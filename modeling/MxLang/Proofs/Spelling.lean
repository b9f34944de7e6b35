import MxLang.Proofs.RecordLayout

/-!
# How a record is written

A record may be written in many ways: the gaps between its parts are of any length, blanks and a
comment may follow it, and an item of its data is a word or a quoted string.  A `Spelling` is one of
these ways, cut into its parts.  It says of each part what the part is by itself, and asks for a gap
where two parts meet.  There is one condition more: a type with the name of a class, and without a
class before it, has nothing after it but a comment, for a gap would make it the class.

Every spelling is read as the record that is written in it, although no part is ever taken back once
it has been recognised, and nothing but a spelling is read as a record:
`parseLine_eq_entry_iff_spelling`.  The parts up to the type are those of a `Layout`; what follows
them is read item by item, up to the blanks and the comment (`items_of_remark`, `exists_items`).
-/

namespace MxLang.Zone

open Text

/-! ### What may follow a record -/

/-- A comment, if there is one. -/
def remark : Option Text → Text
  | none => []
  | some t => ';' :: t

theorem stops_remark {p : Char → Bool} (hp : p ';' = false) (o : Option Text) :
    Stops p (remark o) := by
  cases o with
  | none => exact stops_nil p
  | some t => exact stops_cons.2 hp

/-- A property of neither blanks nor semicolons stops where a record ends. -/
theorem stops_blanks {p : Char → Bool} (hp : p ';' = false) (hgap : ∀ c, isGap c → p c = false)
    {blanks : Text} (hblanks : ∀ c ∈ blanks, isGap c) (o : Option Text) :
    Stops p (blanks ++ remark o) := by
  cases blanks with
  | nil => exact stops_remark hp o
  | cons c r => exact stops_cons.2 (hgap c (hblanks c List.mem_cons_self))

theorem item?_remark (o : Option Text) : item? (remark o) = none := by
  cases o with
  | none => rfl
  | some t =>
    show word? (';' :: t) = none
    rw [word?, run?, List.takeWhile_cons_of_neg (by decide), if_pos rfl]

/-- Blanks and a comment hold no item. -/
theorem items_of_remark {blanks : Text} (hblanks : ∀ c ∈ blanks, isGap c) (o : Option Text) :
    items item? (blanks ++ remark o) = ([], blanks ++ remark o) := by
  have hnone : (afterGap? (blanks ++ remark o)).bind item? = none := by
    by_cases hnil : blanks = []
    · rw [hnil, List.nil_append, afterGap?_eq_none_iff.2 (stops_remark (by decide) o)]
      rfl
    · rw [afterGap?_append ⟨hnil, hblanks⟩ (stops_remark (by decide) o)]
      exact item?_remark o
  rw [items, hnone]

/-- **What is left of a record line is nothing but blanks and a comment.** -/
theorem afterComment_eq_nil_iff {t : Text} :
    afterComment t = [] ↔
      ∃ blanks o, (∀ c ∈ blanks, isGap c) ∧ (∀ s ∈ o, '\n' ∉ s) ∧ t = blanks ++ remark o := by
  constructor
  · intro h
    have htext : t = t.takeWhile isGap ++ t.dropWhile isGap :=
      List.takeWhile_append_dropWhile.symm
    have hblanks : ∀ c ∈ t.takeWhile isGap, isGap c := fun c hc => List.mem_takeWhile_imp hc
    unfold afterComment at h
    split at h
    · rename_i comment hdrop
      refine ⟨t.takeWhile isGap, some comment, hblanks, ?_, ?_⟩
      · intro s hs
        obtain rfl := Option.some.inj hs
        intro hfeed
        have hall := List.dropWhile_eq_nil_iff.1 h _ hfeed
        revert hall
        decide
      · rw [hdrop] at htext
        exact htext
    · refine ⟨t.takeWhile isGap, none, hblanks, ?_, ?_⟩
      · intro s hs
        cases hs
      · rw [h] at htext
        exact htext
  · rintro ⟨blanks, o, hblanks, ho, rfl⟩
    rw [afterComment, dropWhile_of_stops hblanks (stops_remark (by decide) o)]
    cases o with
    | none => rfl
    | some s =>
      apply List.dropWhile_eq_nil_iff.2
      intro c hc
      rw [bne_iff_ne]
      rintro rfl
      exact ho s rfl hc

/-! ### Items -/

/-- An item of the data: a word or a quoted string. -/
def IsDatum (s : Text) : Prop :=
  IsRun isWordChar s ∨ IsQuoted s

theorem IsDatum.isItem {s : Text} (h : IsDatum s) : IsItem item? s := by
  rcases h with h | h
  · exact isItem_of_isRun h
  · exact isItem_of_isQuoted h

theorem item?_eq_some {t s rest : Text} (h : item? t = some (s, rest)) :
    IsDatum s ∧ t = s ++ rest := by
  unfold item? at h
  split at h
  · obtain ⟨⟨s', rest'⟩, hr, hq⟩ := Option.map_eq_some_iff.1 h
    cases hq
    obtain ⟨hs, rfl⟩ := quotedRest?_eq_some_iff.1 hr
    exact ⟨.inr ⟨s', hs, rfl⟩, rfl⟩
  · obtain ⟨hs, ht, -⟩ := run?_eq_some h
    exact ⟨.inl hs, ht⟩

/-- Data as they are written, each item behind its gap. -/
def gapped (data : List (Text × Text)) : Text :=
  data.flatMap fun q => q.1 ++ q.2

/-- **What is taken for items are items, each behind a gap.** -/
theorem exists_items (t : Text) :
    ∃ data : List (Text × Text), (∀ q ∈ data, IsRun isGap q.1 ∧ IsDatum q.2) ∧
      (items item? t).1 = data.map Prod.snd ∧ t = gapped data ++ (items item? t).2 := by
  fun_induction items item? t with
  | case1 t hnone => exact ⟨[], by simp, rfl, rfl⟩
  | case2 t s rest hsome hlt more left hrest ih =>
    obtain ⟨r, hr, hs⟩ := Option.bind_eq_some_iff.1 hsome
    obtain ⟨g, hg, rfl, -⟩ := afterGap?_eq_some hr
    obtain ⟨hdatum, rfl⟩ := item?_eq_some hs
    obtain ⟨data, hdata, hmore, heq⟩ := ih
    rw [hrest] at hmore heq
    refine ⟨(g, s) :: data, ?_, ?_, ?_⟩
    · intro q hq
      rcases List.mem_cons.1 hq with rfl | hq
      · exact ⟨hg, hdatum⟩
      · exact hdata q hq
    · exact congrArg (s :: ·) hmore
    · rw [heq]
      simp only [gapped, List.flatMap_cons, List.append_assoc]
  | case3 t s rest hsome hlt => exact ⟨[], by simp, rfl, rfl⟩

/-- A property of neither blanks nor semicolons stops where the type of a record ends. -/
theorem stops_gapped {p : Char → Bool} (hp : p ';' = false) (hgap : ∀ c, isGap c → p c = false)
    {data : List (Text × Text)} (hdata : ∀ q ∈ data, IsRun isGap q.1 ∧ IsDatum q.2)
    {blanks : Text} (hblanks : ∀ c ∈ blanks, isGap c) (o : Option Text) :
    Stops p (gapped data ++ (blanks ++ remark o)) := by
  cases data with
  | nil => exact stops_blanks hp hgap hblanks o
  | cons q rest =>
    obtain ⟨c, r, hq, hc⟩ := (hdata q List.mem_cons_self).1.head
    rw [gapped, List.flatMap_cons, hq]
    exact stops_cons.2 (hgap c hc)

/-- Where no gap follows a type there are neither data nor blanks. -/
theorem eq_nil_of_stops_gap {data : List (Text × Text)}
    (hdata : ∀ q ∈ data, IsRun isGap q.1 ∧ IsDatum q.2) {blanks t : Text}
    (hblanks : ∀ c ∈ blanks, isGap c) (h : Stops isGap (gapped data ++ (blanks ++ t))) :
    data = [] ∧ blanks = [] := by
  cases data with
  | cons q rest =>
    obtain ⟨c, r, hq, hc⟩ := (hdata q List.mem_cons_self).1.head
    rw [gapped, List.flatMap_cons, hq] at h
    exact absurd hc (by rw [stops_cons.1 h]; decide)
  | nil =>
    cases blanks with
    | cons c r => exact absurd (hblanks c List.mem_cons_self) (by rw [stops_cons.1 h]; decide)
    | nil => exact ⟨rfl, rfl⟩

/-- **Data that are written are read**, up to the blanks and the comment after them. -/
theorem items_gapped {data : List (Text × Text)}
    (hdata : ∀ q ∈ data, IsRun isGap q.1 ∧ IsDatum q.2) {blanks : Text}
    (hblanks : ∀ c ∈ blanks, isGap c) (o : Option Text) :
    items item? (gapped data ++ (blanks ++ remark o))
      = (data.map Prod.snd, blanks ++ remark o) := by
  apply items_append
  · exact stops_blanks (by decide) (fun _ => isWordChar_of_isGap) hblanks o
  · exact items_of_remark hblanks o
  · intro q hq
    exact ⟨(hdata q hq).1, (hdata q hq).2.isItem⟩

/-! ### Spellings -/

/-- A way to write a record.  A time to live and a class stand with the gap after them, an item of
the data with the gap before it. -/
structure Spelling where
  /-- Empty, or a word. -/
  owner : Text
  gap : Text
  ttl : Option (Text × Text)
  cls : Option (Text × Text)
  type : Text
  data : List (Text × Text)
  blanks : Text
  /-- What follows the semicolon of a comment. -/
  comment : Option Text
  owner_word : ∀ c ∈ owner, isWordChar c
  /-- The line does not start like a directive. -/
  owner_plain : ∀ c r, owner = '$' :: c :: r → isLetter c = false
  gap_run : IsRun isGap gap
  ttl_read : ∀ q ∈ ttl, IsTtl q.1 ∧ IsRun isGap q.2
  cls_read : ∀ q ∈ cls, q.1 ∈ classes ∧ IsRun isGap q.2
  type_name : IsTypeName type
  /-- The type is not taken for a class. -/
  type_alone : cls = none → type ∈ classes → data = [] ∧ blanks = []
  data_read : ∀ q ∈ data, IsRun isGap q.1 ∧ IsDatum q.2
  blanks_gap : ∀ c ∈ blanks, isGap c
  comment_line : ∀ s ∈ comment, '\n' ∉ s

namespace Spelling

/-- What follows the type. -/
def rest (w : Spelling) : Text :=
  gapped w.data ++ (w.blanks ++ remark w.comment)

/-- The line. -/
def text (w : Spelling) : Text :=
  w.owner ++ (w.gap ++ (spaced w.ttl ++ (spaced w.cls ++ (w.type ++ w.rest))))

/-- The record that is written. -/
def entry (w : Spelling) : Entry :=
  ⟨w.owner, w.ttl.map Prod.fst, w.cls.map Prod.fst, w.type.map capital, w.data.map Prod.snd⟩

/-- The parts up to the type. -/
def layout (w : Spelling) : Layout where
  owner := w.owner
  gap := w.gap
  ttl := w.ttl
  cls := w.cls
  type := w.type
  rest := w.rest
  owner_word := w.owner_word
  owner_plain := w.owner_plain
  gap_run := w.gap_run
  ttl_read := w.ttl_read
  cls_read := w.cls_read
  type_name := w.type_name
  type_ends :=
    stops_gapped (by decide) (fun _ => alphanumeric_of_isGap) w.data_read w.blanks_gap w.comment
  type_alone := by
    intro hcls htype
    obtain ⟨hdata, hblanks⟩ := w.type_alone hcls htype
    rw [rest, hdata, hblanks]
    exact stops_remark (by decide) w.comment

theorem entry_layout (w : Spelling) : w.layout.entry = w.entry := by
  show Entry.mk _ _ _ _ (items item? w.rest).1 = _
  rw [rest, items_gapped w.data_read w.blanks_gap w.comment]
  rfl

theorem afterComment_layout (w : Spelling) :
    afterComment (items item? w.layout.rest).2 = [] := by
  show afterComment (items item? w.rest).2 = []
  rw [rest, items_gapped w.data_read w.blanks_gap w.comment]
  exact afterComment_eq_nil_iff.2 ⟨_, _, w.blanks_gap, w.comment_line, rfl⟩

/-- A layout whose data end where the line does is that of a spelling. -/
theorem exists_of_layout (p : Layout) (hend : afterComment (items item? p.rest).2 = []) :
    ∃ w : Spelling, w.layout = p := by
  obtain ⟨data, hdata, -, hrest⟩ := exists_items p.rest
  obtain ⟨blanks, comment, hblanks, hcomment, hleft⟩ := afterComment_eq_nil_iff.1 hend
  rw [hleft] at hrest
  have halone : p.cls = none → p.type ∈ classes → data = [] ∧ blanks = [] := by
    intro hcls htype
    have hstops := p.type_alone hcls htype
    rw [hrest] at hstops
    exact eq_nil_of_stops_gap hdata hblanks hstops
  refine ⟨⟨p.owner, p.gap, p.ttl, p.cls, p.type, data, blanks, comment, p.owner_word,
    p.owner_plain, p.gap_run, p.ttl_read, p.cls_read, p.type_name, halone, hdata, hblanks,
    hcomment⟩, ?_⟩
  obtain ⟨owner, gap, ttl, cls, type, rest⟩ := p
  obtain rfl := hrest
  rfl

end Spelling

/-- **A line is read as a record exactly if it is a spelling of the record.** -/
theorem parseLine_eq_entry_iff_spelling {t : Text} {e : Entry} :
    parseLine t = .ok (.entry e) ↔ ∃ w : Spelling, w.text = t ∧ w.entry = e := by
  rw [parseLine_eq_entry_iff]
  constructor
  · rintro ⟨p, rfl, rfl, hend⟩
    obtain ⟨w, rfl⟩ := Spelling.exists_of_layout p hend
    exact ⟨w, rfl, w.entry_layout.symm⟩
  · rintro ⟨w, rfl, rfl⟩
    exact ⟨w.layout, rfl, w.entry_layout, w.afterComment_layout⟩

/-- A type that starts like a class, an escaped quote and a semicolon in a quoted string, and a
comment with a quote in it. -/
theorem parseLine_eq_entry_iff_spelling_quoted :
    parseLine "$1\t3h  INfo \"a\\\"; b\"\tIN ;\"".toList
      = .ok (.entry ⟨"$1".toList, some "3h".toList, none, "INFO".toList,
          ["\"a\\\"; b\"".toList, "IN".toList]⟩) := by
  have hrun : ∀ {p : Char → Bool} {t : Text}, t ≠ [] → t.all p = true → IsRun p t :=
    fun hne hall => ⟨hne, List.all_eq_true.1 hall⟩
  have hquoted : IsQuoted "\"a\\\"; b\"".toList := by
    refine ⟨_, ⟨[['a'], ['\\', '"'], [';'], [' '], ['b']], ?_, rfl⟩, rfl⟩
    simp only [List.forall_mem_cons, List.not_mem_nil, false_imp_iff, implies_true, and_true]
    refine ⟨.plain ?_ ?_, .escaped ?_, .plain ?_ ?_, .plain ?_ ?_, .plain ?_ ?_⟩ <;> decide
  refine parseLine_eq_entry_iff_spelling.2 ⟨
    { owner := "$1".toList
      gap := ['\t']
      ttl := some ("3h".toList, "  ".toList)
      cls := none
      type := "INfo".toList
      data := [([' '], "\"a\\\"; b\"".toList), (['\t'], "IN".toList)]
      blanks := [' ']
      comment := some ['"']
      owner_word := List.all_eq_true.1 (by decide)
      owner_plain := ?_
      gap_run := hrun (by decide) (by decide)
      ttl_read := ?_
      cls_read := ?_
      type_name := ⟨'I', "Nfo".toList, rfl, by decide, List.all_eq_true.1 (by decide)⟩
      type_alone := fun _ h => absurd h (by decide)
      data_read := ?_
      blanks_gap := List.all_eq_true.1 (by decide)
      comment_line := ?_ }, rfl, rfl⟩
  · intro c r h
    cases h
    decide
  · intro q hq
    cases hq
    refine ⟨⟨['3'], ['h'], rfl, hrun ?_ ?_, .inr ⟨'h', ?_, rfl⟩⟩, hrun ?_ ?_⟩ <;> decide
  · intro q hq
    cases hq
  · refine List.forall_mem_cons.2 ⟨⟨hrun ?_ ?_, .inr hquoted⟩,
      List.forall_mem_singleton.2 ⟨hrun ?_ ?_, .inl (hrun ?_ ?_)⟩⟩ <;> decide
  · intro t ht
    cases ht
    decide

end MxLang.Zone
