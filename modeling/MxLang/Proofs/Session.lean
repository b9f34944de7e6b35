import MxLang.CommandLine.Session
import MxLang.Proofs.Arguments
import MxLang.Proofs.Resume
import MxLang.Proofs.RoundTrip
import MxLang.Proofs.Storage
import MxLang.Proofs.Transport
import MxLang.Proofs.Utf8

/-!
# Compiling and running in one session or in two

`exec` does in one session what `compile` and `run` do in two (`perform_exec`).  The two ways part
after the records: `compile` writes them as a zone, encodes it and stores it, and `run` finds the
file, decodes and reads it.  The records come back unchanged (`fileRecords_of_write`), so both ways
run the same lines in the same surroundings.  What is told differs by what `compile` has already
told.

Where a source cannot be read or compiled, both `compile` and `exec` close before they have done
anything, and with the same status (`exists_close`).

That the files are sound is asked for because `exec` has to find its source again among
directories that `compile` has made; every session keeps it so (`isSound_perform`), since it writes
one file at most (`isKept_perform`).
-/

namespace MxLang.CommandLine

open Text

/-! ### Told remarks -/

/-- The outcome with the remarks that are told from the given level on. -/
def Outcome.atLevel (l : Level) (o : Outcome) : Outcome :=
  { o with remarks := o.remarks.filter (Remark.isTold l) }

theorem Outcome.atLevel_after (l : Level) (remarks : List Remark) (o : Outcome) :
    (o.after remarks).atLevel l = (o.atLevel l).after (remarks.filter (Remark.isTold l)) := by
  rw [atLevel, after, List.filter_append]
  rfl

theorem Outcome.after_nil (o : Outcome) : o.after [] = o := rfl

/-- Notices below the level are not told. -/
theorem filter_isTold_eq_nil {l : Level} {notices : List Notice}
    (h : ∀ n ∈ notices, n.level.rank < l.rank) :
    (notices.map Remark.notice).filter (Remark.isTold l) = [] := by
  rw [List.filter_eq_nil_iff]
  intro r hr
  obtain ⟨n, hn, rfl⟩ := List.mem_map.1 hr
  rw [Remark.isTold, decide_eq_true_eq, Nat.not_le]
  exact h n hn

theorem rank_of_mem_programNotices {ns : Text} {records : List Record} :
    ∀ n ∈ Program.notices ns records, n.level.rank < Level.warning.rank := by
  intro n hn
  rcases List.mem_append.1 hn with hn | hn
  · split at hn
    · cases hn
    · obtain rfl := List.mem_singleton.1 hn
      exact Nat.zero_lt_two
  · split at hn
    · obtain rfl := List.mem_singleton.1 hn
      exact Nat.zero_lt_two
    · cases hn

theorem rank_of_mem_zoneNotices {ns : Text} {s : Storage} {p : Path} {domain : Text} :
    ∀ n ∈ Zone.programNotices ns s p domain, n.level.rank < Level.warning.rank := by
  intro n hn
  rcases List.mem_append.1 hn with hn | hn
  · rcases List.mem_cons.1 hn with rfl | hn
    · exact Nat.one_lt_two
    · unfold Zone.readNotices at hn
      split at hn
      · obtain rfl := List.mem_singleton.1 hn
        exact Nat.zero_lt_two
      · cases hn
  · split at hn
    · rcases List.mem_cons.1 hn with rfl | hn
      · exact Nat.one_lt_two
      · exact rank_of_mem_programNotices n hn
    · cases hn

namespace Surroundings

variable {w : Surroundings} {name zone : Text} {p q : Path} {lines : List Text}
  {records : List Record}

theorem perform_of_read {line : List Text} {call : Call} (h : read line = .ok call) :
    w.perform line
      = (w.carryOut call.verbosity call.request).atLevel (leastLevel call.verbosity) := by
  rw [perform, h]
  rfl

/-- Notices below the level leave no trace. -/
theorem atLevel_withProgram {l : Level} {notices : List Notice}
    (h : ∀ n ∈ notices, n.level.rank < l.rank) (program : Except Failure (List Line))
    (k : List Line → Outcome) :
    (w.withProgram program notices k).atLevel l = (w.withProgram program [] k).atLevel l := by
  unfold withProgram
  rw [Outcome.atLevel_after, filter_isTold_eq_nil h]
  rfl

/-- What the next session finds. -/
def next (w : Surroundings) (o : Outcome) : Surroundings :=
  { w with storage := o.storage, input := o.input }

/-! ### Sources that compile -/

/-- The name leads to a file whose lines compile to the records. -/
structure IsSource (w : Surroundings) (name : Text) (p : Path) (lines : List Text)
    (records : List Record) : Prop where
  located : w.locate "mexico source".toList name = .ok p
  read : w.sourceLines p = .ok lines
  compiled : Source.compile Host.defaultNamespace lines = .ok records

theorem locate_eq_ok {role : Text} : w.locate role name = .ok p ↔
    Path.resolve w.here w.home name = .ok p ∧ w.storage.meetsOverlong p = false ∧
      (w.storage.find? p).isSome := by
  rw [locate]
  cases Path.resolve w.here w.home name with
  | error flaw => simp
  | ok q =>
    dsimp only
    constructor
    · intro h
      split at h
      · cases h
      split at h
      · obtain rfl := Except.ok.inj h
        rename_i hlong hsome
        exact ⟨rfl, eq_false_of_ne_true hlong, hsome⟩
      · cases h
    · rintro ⟨h, hlong, hsome⟩
      obtain rfl := Except.ok.inj h
      rw [hlong, if_neg Bool.false_ne_true, if_pos hsome]

theorem isSource_of_find? {t : Text} (hres : Path.resolve w.here w.home name = .ok p)
    (hlong : w.storage.meetsOverlong p = false)
    (hfind : w.storage.find? p = some (.file (Utf8.encode t)))
    (hc : Source.compile Host.defaultNamespace (splitFeeds (foldReturns t)) = .ok records) :
    w.IsSource name p (splitFeeds (foldReturns t)) records := by
  refine ⟨locate_eq_ok.2 ⟨hres, hlong, by rw [hfind]; rfl⟩, ?_, hc⟩
  rw [sourceLines, Storage.read, hfind]
  dsimp only
  rw [Utf8.decode_encode]

/-- A source is still there when another file has been written. -/
theorem IsSource.write (h : w.IsSource name p lines records) (hs : w.storage.IsSound)
    {bytes : List UInt8} {s : Storage} (hw : w.storage.write q bytes = .ok s) (hne : p ≠ q) :
    IsSource { w with storage := s } name p lines records := by
  obtain ⟨hres, -, hsome⟩ := locate_eq_ok.1 h.located
  obtain ⟨n, hn⟩ := Option.isSome_iff_exists.1 hsome
  have hfound : s.find? p = some n := Storage.find?_of_write hw hne hn
  refine ⟨locate_eq_ok.2 ⟨hres, hs.meetsOverlong hn s, by rw [hfound]; rfl⟩, ?_, h.compiled⟩
  have hread : s.read p = w.storage.read p := by
    rw [Storage.read, Storage.read, hfound, hn]
  rw [← h.read, sourceLines, sourceLines, hread]

/-! ### The zone of a source -/

theorem isAsciiDigit_of_mem_padded {width n : Nat} : ∀ c ∈ Zone.padded width n, isAsciiDigit c := by
  intro c hc
  rcases List.mem_append.1 hc with hc | hc
  · rw [List.eq_of_mem_replicate hc]
    decide
  · exact Numeral.isAsciiDigit_of_mem_writeNat hc

theorem isAsciiDigit_of_mem_serial {h : Zone.Hour} : ∀ c ∈ h.serial, isAsciiDigit c := by
  intro c hc
  simp only [Zone.Hour.serial, List.mem_append] at hc
  rcases hc with ((hc | hc) | hc) | hc <;> exact isAsciiDigit_of_mem_padded c hc

/-- The text of the zone that is written for records. -/
def zoneOf (w : Surroundings) (records : List Record) : Text :=
  Zone.render Host.defaultNamespace w.hour.serial records

theorem isPortable_of_isSource (h : w.IsSource name p lines records) :
    ∀ r ∈ records, Zone.IsPortable r :=
  Zone.isPortable_of_compile (List.all_eq_true.1 (by decide)) h.compiled

theorem zoneText_of_isSource (h : w.IsSource name p lines records) :
    w.zoneText .unset .unset records = .ok (w.zoneOf records) :=
  Zone.render?_eq_ok _ _ (isPortable_of_isSource h)

theorem records_zoneOf (h : w.IsSource name p lines records) (file : Text) :
    Zone.records none file (w.zoneOf records) = .ok records := by
  have howner : Zone.IsOwner (Zone.rooted Host.defaultNamespace) :=
    Zone.isOwner_rooted (List.all_eq_true.1 (by decide)) (by decide)
  have hempty : Zone.records none file [] = .ok [] := by
    rw [Zone.records, Zone.logicalLines, Zone.unclosed?, Zone.joining, splitLines_nil]
    rfl
  have hany : ∀ d ∈ (none : Option Text), lower (Zone.rooted d)
      = lower (Zone.rooted Host.defaultNamespace) := by
    intro d hd
    cases hd
  have hall := Zone.records_append (z := []) (isComplete_iff.2 (.inl rfl)) howner
    (isAsciiDigit_of_mem_serial (h := w.hour)) hany (isPortable_of_isSource h) hempty
  exact hall

/-- **The records of a source come back from the zone file.** -/
theorem fileRecords_of_write (h : w.IsSource name p lines records) {s : Storage}
    (hw : w.storage.write q (Utf8.encode (w.zoneOf records)) = .ok s) :
    Zone.fileRecords s q [] = .ok records := by
  rw [Zone.fileRecords, Storage.read_of_write hw]
  dsimp only
  rw [Zone.recordsOfBytes, Utf8.decode_encode]
  exact records_zoneOf h q.text

/-! ### The three commands -/

theorem compile_of_isSource (h : w.IsSource name p lines records) (hdash : zone ≠ ['-'])
    (hq : Path.resolve w.here w.home zone = .ok q) {s : Storage}
    (hw : w.storage.write q (Utf8.encode (w.zoneOf records)) = .ok s) :
    w.compile name (.given zone) .unset .unset =
      { w.close (.exit 0) (.notice (.compilingFile p.text (outputName (.given zone))) ::
          (Source.notices Host.defaultNamespace lines).map .notice ++
            [.notice (.wroteRecords records.length)]) with storage := s } := by
  have hdeliver : w.deliver (.given zone) (w.zoneOf records) records.length
      = { w.close (.exit 0) [.notice (.wroteRecords records.length)] with storage := s } := by
    unfold deliver
    split
    · rename_i heq; cases heq
    · rename_i heq; cases heq
    · rename_i heq
      exact absurd (Setting.given.inj heq) hdash
    · rename_i heq
      obtain rfl := Setting.given.inj heq
      rw [hq]
      dsimp only
      rw [hw]
  rw [compile, withSource, h.located]
  dsimp only
  rw [h.read]
  dsimp only
  rw [h.compiled]
  dsimp only
  rw [zoneText_of_isSource h]
  dsimp only
  rw [hdeliver]
  simp [Outcome.after, close]

theorem exec_of_isSource (h : w.IsSource name p lines records) (v : Nat) (t : Tuning) :
    w.exec v name t
      = .after ((Source.notices Host.defaultNamespace lines).map .notice)
          (w.withProgram (Program.ofRecords Host.defaultNamespace records)
            (Program.notices Host.defaultNamespace records) (w.execute v t)) := by
  rw [exec, withSource, h.located]
  dsimp only
  rw [h.read]
  dsimp only
  rw [h.compiled, Outcome.after_nil]

theorem withOrigin_of_fileRecords (hz : zone ≠ [])
    (hl : w.locate "zone file".toList zone = .ok q)
    (hr : Zone.fileRecords w.storage q [] = .ok records) (k : List Line → Outcome) :
    w.withOrigin { zoneFile := some zone } k
      = w.withProgram (Program.ofRecords Host.defaultNamespace records)
          (Zone.programNotices Host.defaultNamespace w.storage q []) k := by
  have hprogram : Zone.program Host.defaultNamespace w.storage q []
      = Program.ofRecords Host.defaultNamespace records := by
    rw [Zone.program, Zone.answer, hr]
    rfl
  cases zone with
  | nil => exact absurd rfl hz
  | cons c rest =>
    unfold withOrigin
    dsimp only [Option.getD_some, Setting.get?, Option.getD_none]
    rw [hl]
    dsimp only
    rw [hprogram]

/-! ### Sources that do not compile -/

theorem status_ne_zero (k : Kind) : Close.exit (status k) ≠ .exit 0 := by
  unfold status
  split
  · exact nofun
  split <;> exact nofun

theorem exists_fail (w : Surroundings) (f : Failure) :
    ∃ c remarks, w.fail f = w.close c remarks ∧ c ≠ .exit 0 := by
  cases f <;> exact ⟨_, _, rfl, nofun⟩

theorem exists_locate {role : Text} {o : Outcome} (h : w.locate role name = .error o) :
    ∃ c remarks, o = w.close c remarks ∧ c ≠ .exit 0 := by
  unfold locate at h
  split at h
  · rw [← Except.error.inj h]
    exact w.exists_fail _
  split at h
  · rw [← Except.error.inj h]
    exact w.exists_fail _
  split at h
  · cases h
  · exact ⟨_, _, (Except.error.inj h).symm, nofun⟩

/-- **Without records `compile` and `exec` close alike**, and leave everything as it was. -/
theorem exists_close (h : ¬ ∃ p lines records, w.IsSource name p lines records)
    (output baseDomain serial : Setting Text) (v : Nat) (t : Tuning) :
    ∃ c remarks remarks', w.compile name output baseDomain serial = w.close c remarks ∧
      w.exec v name t = w.close c remarks' ∧ c ≠ .exit 0 := by
  rw [compile, exec, withSource, withSource]
  cases hl : w.locate "mexico source".toList name with
  | error o =>
    obtain ⟨c, remarks, rfl, hc⟩ := exists_locate hl
    exact ⟨c, remarks, remarks, rfl, rfl, hc⟩
  | ok p =>
    dsimp only
    cases hr : w.sourceLines p with
    | error reason => exact ⟨_, _, _, rfl, rfl, nofun⟩
    | ok lines =>
      dsimp only
      cases hc : Source.compile Host.defaultNamespace lines with
      | ok records => exact absurd ⟨p, lines, records, hl, hr, hc⟩ h
      | error f =>
        cases f with
        | fault f => exact ⟨_, _, _, rfl, rfl, status_ne_zero f.kind⟩
        | _ => exact ⟨_, _, _, rfl, rfl, nofun⟩

/-! ### One session or two -/

/-- The name leads to where a file can be written. -/
def IsWritable (w : Surroundings) (name : Text) : Prop :=
  ∃ p, Path.resolve w.here w.home name = .ok p ∧ ∀ bytes, ∃ s, w.storage.write p bytes = .ok s

/-- What `compile` leaves of a source that compiles: the zone in its file, and nothing told but
labels that are declared again. -/
theorem perform_compile_of_isSource (h : w.IsSource name p lines records) (hst : IsClear .tool name)
    (hsc : IsPlain .compile name) (hzt : IsClear .tool zone) (hzc : IsPlain .compile zone)
    (hdash : zone ≠ ['-']) (hq : Path.resolve w.here w.home zone = .ok q) {s : Storage}
    (hw : w.storage.write q (Utf8.encode (w.zoneOf records)) = .ok s) :
    w.perform (compileLine name zone) =
      { w.close (.exit 0) (((Source.notices Host.defaultNamespace lines).map .notice).filter
          (Remark.isTold .warning)) with storage := s } := by
  rw [perform_of_read (read_compileLine hst hsc hzt hzc)]
  change (w.compile name (.given zone) .unset .unset).atLevel .warning = _
  rw [compile_of_isSource h hdash hq hw, Outcome.atLevel]
  simp [close, Remark.isTold, Notice.level, Level.rank]

/-- Where the zone file holds the records of the source, `exec` tells about the source and then
does what `run` does. -/
theorem perform_exec_of_fileRecords (h : w.IsSource name p lines records)
    (hl : w.locate "zone file".toList zone = .ok q)
    (hr : Zone.fileRecords w.storage q [] = .ok records) (hnil : zone ≠ [])
    (hst : IsClear .tool name) (hse : IsPlain .exec name) (hzt : IsClear .tool zone)
    (hzr : IsPlain .run zone) (options : List RunOption) :
    w.perform (runLine .exec name options)
      = (w.perform (runLine .run zone options)).after
          (((Source.notices Host.defaultNamespace lines).map .notice).filter
            (Remark.isTold .warning)) := by
  rw [perform_of_read (read_runLine (.inr rfl) hst hse options rfl),
    perform_of_read (read_runLine (.inl rfl) hzt hzr options rfl)]
  change (w.exec 0 name _).atLevel .warning
    = ((w.withOrigin _ (w.execute 0 _)).atLevel .warning).after _
  rw [exec_of_isSource h, withOrigin_of_fileRecords hnil hl hr, Outcome.atLevel_after,
    atLevel_withProgram rank_of_mem_programNotices, atLevel_withProgram rank_of_mem_zoneNotices]

theorem locate_of_write {role : Text} (hq : Path.resolve w.here w.home zone = .ok q)
    {bytes : List UInt8} {s : Storage} (hw : w.storage.write q bytes = .ok s) :
    locate { w with storage := s } role zone = .ok q := by
  refine locate_eq_ok.2 ⟨hq, Storage.meetsOverlong_of_write hw, ?_⟩
  rw [Storage.find?_self_of_write hw]
  rfl

/-- Without records both command lines close alike. -/
theorem perform_of_not_isSource (h : ¬ ∃ p lines records, w.IsSource name p lines records)
    (hst : IsClear .tool name) (hsc : IsPlain .compile name) (hse : IsPlain .exec name)
    (hzt : IsClear .tool zone) (hzc : IsPlain .compile zone) (options : List RunOption) :
    ∃ c remarks remarks', w.perform (compileLine name zone) = w.close c remarks ∧
      w.perform (runLine .exec name options) = w.close c remarks' ∧ c ≠ .exit 0 := by
  obtain ⟨c, remarks, remarks', hcompile, hexec, hc⟩ :=
    exists_close h (.given zone) .unset .unset 0 (RunOption.tuning options)
  rw [perform_of_read (read_compileLine hst hsc hzt hzc),
    perform_of_read (read_runLine (.inr rfl) hst hse options rfl)]
  refine ⟨c, remarks.filter (Remark.isTold .warning), remarks'.filter (Remark.isTold .warning),
    ?_, ?_, hc⟩
  · exact congrArg (Outcome.atLevel .warning) hcompile
  · exact congrArg (Outcome.atLevel .warning) hexec

/-- **Running a program in one session is compiling it in one and running it in the next.**  Two
sessions do, told remarks included, what one does; where `compile` fails, `exec` fails alike. -/
theorem perform_exec {w : Surroundings} {source zone : Text}
    (ht : ∀ t ∈ [source, zone], IsClear .tool t)
    (hs : ∀ f ∈ [Form.compile, .exec], IsPlain f source)
    (hz : ∀ f ∈ [Form.compile, .run], IsPlain f zone) (hfile : zone ∉ [[], ['-']])
    (hne : Path.resolve w.here w.home zone ≠ Path.resolve w.here w.home source)
    (hw : w.IsWritable zone) (hsound : w.storage.IsSound) (options : List RunOption) :
    let c := w.perform (compileLine source zone)
    let r := (w.next c).perform (runLine .run zone options)
    let e := (w.next c).perform (runLine .exec source options)
    (c.close = .exit 0 ↔ ∃ p lines records, w.IsSource source p lines records) ∧
      (c.close = .exit 0 → e = r.after c.remarks) ∧
      (c.close ≠ .exit 0 → e.close = c.close ∧ e.printed = []) := by
  obtain ⟨q, hq, hwrite⟩ := hw
  obtain ⟨hnil, hdash⟩ : zone ≠ [] ∧ zone ≠ ['-'] := by simpa using hfile
  have hst := ht source (by simp)
  have hzt := ht zone (by simp)
  have hsc := hs .compile (by simp)
  have hzc := hz .compile (by simp)
  have hse := hs .exec (by simp)
  intro c r e
  by_cases hsource : ∃ p lines records, w.IsSource source p lines records
  · obtain ⟨p, lines, records, h⟩ := hsource
    obtain ⟨s, hstored⟩ := hwrite (Utf8.encode (w.zoneOf records))
    have hc : c = _ := perform_compile_of_isSource h hst hsc hzt hzc hdash hq hstored
    have hclose : c.close = .exit 0 := by rw [hc]; rfl
    have hnext : w.next c = { w with storage := s } := by rw [hc]; rfl
    have hpath : p ≠ q := by
      rintro rfl
      exact hne (hq.trans (locate_eq_ok.1 h.located).1.symm)
    have hboth := perform_exec_of_fileRecords (h.write hsound hstored hpath)
      (locate_of_write hq hstored) (fileRecords_of_write h hstored) hnil hst hse hzt
      (hz .run (by simp)) options
    have he : e = r.after c.remarks := by
      change (w.next c).perform _ = ((w.next c).perform _).after c.remarks
      rw [hnext, hboth, hc]
      rfl
    exact ⟨⟨fun _ => ⟨p, lines, records, h⟩, fun _ => hclose⟩, fun _ => he,
      fun hx => absurd hclose hx⟩
  · obtain ⟨close, told, told', hcompile, hexec, hclose⟩ :=
      perform_of_not_isSource hsource hst hsc hse hzt hzc options
    have hc : c = w.close close told := hcompile
    have hnext : w.next c = w := by rw [hc]; rfl
    have he : e = w.close close told' := by
      change (w.next c).perform _ = _
      rw [hnext, hexec]
    have hfailed : c.close ≠ .exit 0 := by
      rw [hc]
      exact hclose
    refine ⟨⟨fun hx => absurd hx hfailed, fun hx => absurd hx hsource⟩, fun hx => absurd hx hfailed,
      fun _ => ?_⟩
    rw [he, hc]
    exact ⟨rfl, rfl⟩

/-- A source with a label that is declared again, compiled to a file in a new directory and run
with a step limit and a dump.  The tool takes the name of the file for one of its own flags with
something attached, and hands it on all the same. -/
theorem perform_exec_redeclared :
    let w : Surroundings :=
      { here := ⟨"/w".toList, []⟩, home := ⟨"/h".toList, []⟩, hour := ⟨2024, 10, 19, 7⟩
        clock := []
        storage := [(⟨"/w".toList, ["s.mx".toList]⟩,
          .file (Utf8.encode "a:\r\npush a\na:\npop\n".toList))] }
    let options : List RunOption :=
      [.maxSteps ⟨"-0".toList, .given 0, by decide⟩ (by decide), .dumpState,
        .maxStepsEq ⟨" 1_0".toList, .given 10, by decide⟩]
    let c := w.perform (compileLine "./s.mx".toList "-v out/z zone".toList)
    let r := (w.next c).perform (runLine .run "-v out/z zone".toList options)
    let e := (w.next c).perform (runLine .exec "./s.mx".toList options)
    c.close = .exit 0 ∧ e = r.after c.remarks := by
  intro w options c r e
  have hsource : w.IsSource "./s.mx".toList ⟨"/w".toList, ["s.mx".toList]⟩ _ _ :=
    isSource_of_find? (by decide) (by decide) rfl
      (by decide +kernel : Source.compile Host.defaultNamespace
          (splitFeeds (foldReturns "a:\r\npush a\na:\npop\n".toList))
        = .ok [⟨0, "push-1.mexico.invalid.".toList⟩, ⟨1, "pop.mexico.invalid.".toList⟩])
  have hwritable : w.IsWritable "-v out/z zone".toList :=
    ⟨⟨"/w".toList, ["-v out".toList, "z zone".toList]⟩, by decide, fun bytes => ⟨_, rfl⟩⟩
  have ht : ∀ t ∈ ["./s.mx".toList, "-v out/z zone".toList], IsClear .tool t := by decide
  have hs : ∀ f ∈ [Form.compile, .exec], IsPlain f "./s.mx".toList := by decide
  have hz : ∀ f ∈ [Form.compile, .run], IsPlain f "-v out/z zone".toList := by decide
  obtain ⟨hc, he, -⟩ := perform_exec ht hs hz (by decide) (by decide) hwritable (by decide) options
  have hclose := hc.2 ⟨_, _, _, hsource⟩
  exact ⟨hclose, he hclose⟩

theorem close_execute_of_halted {v : Nat} {t : Tuning} {program : List Line}
    (h : (w.runLines v t program).2 = .halted) (hd : t.dumpState = false) :
    (w.execute v t program).close = .exit 0 := by
  rw [execute]
  cases hr : w.runLines v t program with
  | mk c ending =>
    rw [hr] at h
    obtain rfl : ending = .halted := h
    rw [hd]
    rfl

/-- The name of a zone file that `compile` takes for a plain word and `run` for an option: compiling
and `exec` succeed, but `run` finds no zone file on its line. -/
theorem perform_run_option_name :
    let w : Surroundings :=
      { here := ⟨"/w".toList, []⟩, home := ⟨"/h".toList, []⟩, hour := ⟨2024, 10, 19, 7⟩
        clock := []
        storage := [(⟨"/w".toList, ["s.mx".toList]⟩,
          .file (Utf8.encode "push 65\nprint\n".toList))]
        patience := 9 }
    let c := w.perform (compileLine "s.mx".toList "--max-steps=9 ".toList)
    let r := (w.next c).perform (runLine .run "--max-steps=9 ".toList [])
    let e := (w.next c).perform (runLine .exec "s.mx".toList [])
    c.close = .exit 0 ∧ r.close = .exit 2 ∧ e.close = .exit 0 := by
  intro w c r e
  have hsource : w.IsSource "s.mx".toList ⟨"/w".toList, ["s.mx".toList]⟩ _ _ :=
    isSource_of_find? (by decide) (by decide) rfl
      (by decide +kernel : Source.compile Host.defaultNamespace
          (splitFeeds (foldReturns "push 65\nprint\n".toList))
        = .ok (Source.publish Host.defaultNamespace [.push 65, .bare .print]))
  have hq : Path.resolve w.here w.home "--max-steps=9 ".toList
      = .ok ⟨"/w".toList, ["--max-steps=9 ".toList]⟩ := by decide
  have hwrite : ∀ bytes, ∃ s, w.storage.write ⟨"/w".toList, ["--max-steps=9 ".toList]⟩ bytes
      = .ok s := fun bytes => ⟨_, rfl⟩
  obtain ⟨s, hstored⟩ := hwrite (Utf8.encode (w.zoneOf _))
  have hc : c = _ := perform_compile_of_isSource hsource (by decide) (by decide) (by decide)
    (by decide) (by decide) hq hstored
  have hnext : w.next c = { w with storage := s } := by rw [hc]; rfl
  refine ⟨by rw [hc]; rfl, ?_, ?_⟩
  · have hword : IsPlain .tool "--max-steps=9 ".toList := by decide
    have hread : read (runLine .run "--max-steps=9 ".toList [])
        = .ok ⟨0, .run {} { maxSteps := .given 9 }⟩ :=
      read_of_arguments (by decide) (classifyAll_cons hword rfl)
        (arguments_options (.inl rfl) [.maxStepsEq ⟨"9 ".toList, .given 9, by decide⟩]) rfl rfl
    change ((w.next c).perform _).close = _
    rw [perform_of_read hread]
    rfl
  · have hprogram : Program.ofRecords Host.defaultNamespace
        (Source.publish Host.defaultNamespace [.push 65, .bare .print])
        = .ok [⟨0, "push 65".toList⟩, ⟨1, "print".toList⟩] :=
      Program.ofRecords_of_perm_publish (.refl _)
    change ((w.next c).perform _).close = _
    rw [hnext, perform_of_read (read_runLine (.inr rfl) (by decide) (by decide) [] rfl)]
    change (exec _ 0 "s.mx".toList {}).close = _
    rw [exec_of_isSource (hsource.write (by decide) hstored (by decide)), hprogram]
    refine close_execute_of_halted ?_ rfl
    change (w.runLines 0 {} _).2 = .halted
    rw [runLines, if_neg (by decide), Control.runProgram_of_ascending _ _ (by decide) (by decide)]
    decide +kernel

/-! ### What a session does to the files -/

theorem storage_fail (w : Surroundings) (f : Failure) : (w.fail f).storage = w.storage := by
  cases f <;> rfl

theorem storage_refuse (w : Surroundings) (f : Failure) : (w.refuse f).storage = w.storage := by
  cases f with
  | fault f => rfl
  | _ => exact w.storage_fail _

theorem storage_execute (w : Surroundings) (v : Nat) (t : Tuning) (program : List Line) :
    (w.execute v t program).storage = w.storage := by
  have hclose : ∀ c ending, (w.closeRun c ending).storage = w.storage := by
    intro c ending
    cases ending with
    | halted => rfl
    | unfinished => rfl
    | failed f =>
      cases f with
      | fault f => rfl
      | _ => exact w.storage_fail _
  rw [execute]
  cases w.runLines v t program with
  | mk c ending =>
    dsimp only [Outcome.after]
    split
    · rw [dump]
      split
      · exact hclose c ending
      · exact w.storage_fail _
    · exact hclose c ending

theorem storage_quit (w : Surroundings) (q : Quit) : (w.quit q).storage = w.storage := by
  have hdisplay : ∀ t, (w.display t).storage = w.storage := by
    intro t
    rw [display]
    split <;> rfl
  cases q with
  | help f => exact hdisplay f.help
  | version => exact hdisplay versionText
  | noCommand => rfl
  | misuse f words => rfl

theorem storage_list (w : Surroundings) (program : List Line) :
    (w.list program).storage = w.storage := by
  rw [list]
  cases listing w.broken program with
  | mk printed stopped =>
    cases stopped with
    | none => rfl
    | some f => exact w.storage_fail f

theorem storage_withProgram {k : List Line → Outcome} (hk : ∀ l, (k l).storage = w.storage)
    (program : Except Failure (List Line)) (notices : List Notice) :
    (w.withProgram program notices k).storage = w.storage := by
  cases program with
  | error f => exact w.storage_refuse f
  | ok l => exact hk l

theorem storage_withOrigin {k : List Line → Outcome} (hk : ∀ l, (k l).storage = w.storage)
    (o : Origin) : (w.withOrigin o k).storage = w.storage := by
  unfold withOrigin
  dsimp only
  split
  · rfl
  · dsimp only
    exact storage_withProgram hk _ _
  · split
    · rename_i h
      obtain ⟨c, remarks, rfl, -⟩ := exists_locate h
      rfl
    · exact storage_withProgram hk _ _

/-- What holds of the files as they are and as the continuation leaves them holds of them after a
source has been read. -/
theorem storage_withSource {P : Storage → Prop} (h : P w.storage) (told : Path → List Remark)
    {k : Path → List Text → Outcome} (hk : ∀ p lines, P (k p lines).storage) :
    P (w.withSource name told k).storage := by
  unfold withSource
  split
  · rename_i hl
    obtain ⟨c, remarks, rfl, -⟩ := exists_locate hl
    exact h
  · dsimp only [Outcome.after]
    split
    · exact h
    · exact hk _ _

/-- The files are as they were, or one of them has been written. -/
def IsKept (w : Surroundings) (s : Storage) : Prop :=
  s = w.storage ∨ ∃ p bytes, w.storage.write p bytes = .ok s

theorem isKept_deliver (w : Surroundings) (output : Setting Text) (t : Text) (count : Nat) :
    w.IsKept (w.deliver output t count).storage := by
  unfold deliver
  dsimp only
  split
  · exact .inl (w.storage_fail _)
  · split <;> exact .inl rfl
  · split <;> exact .inl rfl
  · split
    · exact .inl (w.storage_fail _)
    · split
      · exact .inl rfl
      · rename_i hw
        exact .inr ⟨_, _, hw⟩

theorem isKept_compile (w : Surroundings) (source : Text)
    (output baseDomain serial : Setting Text) :
    w.IsKept (w.compile source output baseDomain serial).storage := by
  refine storage_withSource (P := w.IsKept) (.inl rfl) _ fun p lines => ?_
  dsimp only [Outcome.after]
  split
  · exact .inl rfl
  · exact .inl (w.storage_fail _)
  · split
    · exact .inl (w.storage_fail _)
    · exact w.isKept_deliver _ _ _

theorem storage_exec (w : Surroundings) (v : Nat) (source : Text) (t : Tuning) :
    (w.exec v source t).storage = w.storage := by
  refine storage_withSource (P := (· = w.storage)) rfl _ fun p lines => ?_
  dsimp only [Outcome.after]
  split
  · exact w.storage_refuse _
  · exact storage_withProgram (w.storage_execute v t) _ _

/-- **A session writes at most one file**, whatever its command line is. -/
theorem isKept_perform (w : Surroundings) (line : List Text) :
    w.IsKept (w.perform line).storage := by
  unfold perform
  split
  · exact .inl (w.storage_quit _)
  · rename_i call _
    dsimp only
    cases call.request with
    | compile source output baseDomain serial => exact w.isKept_compile _ _ _ _
    | run o t => exact .inl (storage_withOrigin (w.storage_execute _ t) o)
    | exec source t => exact .inl (w.storage_exec _ source t)
    | disasm o => exact .inl (storage_withOrigin w.storage_list o)

/-- Sessions keep a store sound. -/
theorem isSound_perform (hs : w.storage.IsSound) (line : List Text) :
    (w.perform line).storage.IsSound := by
  rcases w.isKept_perform line with h | ⟨p, bytes, h⟩
  · rw [h]
    exact hs
  · exact hs.write h

end Surroundings

end MxLang.CommandLine
