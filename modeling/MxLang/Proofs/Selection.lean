import Mathlib.Data.List.Basic
import MxLang.Proofs.Reading

/-!
# Records of one domain

To read a zone for a domain is to read it for all and to keep the records that the domain owns
(`records_selected`).  The owners are those of `owners`, which knows nothing of domains: they follow
from what the lines say, since every line changes the scope of the lines after it in the same way
whether or not its own record is wanted (`gives_cases`).

A domain never makes a zone unreadable.  It can make one readable, for the data of a record that is
not wanted are not looked at.
-/

namespace MxLang.Zone

open Text

/-! ### Owners -/

/-- The owner of the MX record that a line gives, if it gives one. -/
def Scope.exchangeOwner? (s : Scope) : LineContent → Option Text
  | .entry e => if e.type = "MX".toList then some (s.ownerOf e.owner) else none
  | _ => none

/-- The owners of the MX records that lines give which are read one after another. -/
def Scope.exchangeOwners (s : Scope) : List LineContent → List Text
  | [] => []
  | c :: cs => (s.exchangeOwner? c).toList ++ (s.after c).exchangeOwners cs

/-- What the lines say that can be read. -/
def contents (ls : List Logical) : List LineContent :=
  ls.filterMap fun l => (parseLine l.text).toOption

/-- The owners of the MX records of a zone, in order. -/
def owners (t : Text) : List Text :=
  Scope.exchangeOwners {} (contents (logicalLines t))

theorem contents_cons {l : Logical} {c : LineContent} (h : parseLine l.text = .ok c)
    (ls : List Logical) : contents (l :: ls) = c :: contents ls := by
  refine List.filterMap_cons_some ?_
  rw [h]
  rfl

/-! ### Reading for a domain and for all -/

section Reading

variable {file : Text} {s : Scope} {l : Logical}

/-- **What a line gives for a domain** is what it gives for all, or nothing if another name owns
it. -/
theorem gives_cases {c : LineContent} {new : List Record}
    (h : gives none file s l c = .ok new) :
    (new = [] ∧ s.exchangeOwner? c = none ∧ ∀ d, gives (some d) file s l c = .ok []) ∨
      ∃ owner record, new = [record] ∧ s.exchangeOwner? c = some owner ∧
        ∀ d, gives (some d) file s l c
          = .ok (if isWanted (some d) owner then [record] else []) := by
  cases c with
  | blank =>
    obtain rfl := Except.ok.inj h
    exact .inl ⟨rfl, rfl, fun d => rfl⟩
  | directive name args =>
    obtain rfl := Except.ok.inj h
    exact .inl ⟨rfl, rfl, fun d => rfl⟩
  | entry e =>
    by_cases htype : e.type = "MX".toList
    · have hmx : decide (e.type = "MX".toList) = true := decide_eq_true htype
      simp only [gives, hmx, isWanted, Bool.true_and, if_true] at h
      cases hex : exchange (s.after (.entry e)) l file e.data with
      | error f =>
        rw [hex] at h
        cases h
      | ok record =>
        rw [hex] at h
        obtain rfl := Except.ok.inj h
        refine .inr ⟨s.ownerOf e.owner, record, rfl, if_pos htype, ?_⟩
        intro d
        simp only [gives, hmx, Bool.true_and, hex]
        split <;> rfl
    · have hmx : decide (e.type = "MX".toList) = false := decide_eq_false htype
      have hnothing : ∀ domain, gives domain file s l (.entry e) = .ok [] := by
        intro domain
        simp only [gives, hmx, Bool.false_and, Bool.false_eq_true, if_false]
      rw [hnothing] at h
      obtain rfl := Except.ok.inj h
      exact .inl ⟨rfl, if_neg htype, fun d => hnothing (some d)⟩

/-- Lines that can be read for all can be read for a domain, and the records that it owns are
taken. -/
theorem foldlM_selected {ls : List Logical} {r r₁ : Reading}
    (h : ls.foldlM (Reading.next none file) r = .ok r₁) :
    ∃ new : List (Text × Record),
      new.map Prod.fst = r.scope.exchangeOwners (contents ls) ∧
      r₁.records = (new.map Prod.snd).reverse ++ r.records ∧
      ∀ d taken, ls.foldlM (Reading.next (some d) file) ⟨r.scope, taken⟩
        = .ok ⟨r₁.scope,
            ((new.filter fun p => isWanted (some d) p.1).map Prod.snd).reverse ++ taken⟩ := by
  induction ls generalizing r with
  | nil =>
    cases h
    exact ⟨[], rfl, rfl, fun d taken => rfl⟩
  | cons l ls ih =>
    rw [List.foldlM_cons] at h
    cases hnext : r.next none file l with
    | error f =>
      rw [hnext] at h
      cases h
    | ok r₂ =>
      rw [hnext] at h
      obtain ⟨c, given, hread, hgiven, rfl⟩ := Reading.next_eq_ok hnext
      obtain ⟨new, howners, hrecords, hselected⟩ := ih h
      have hstep : ∀ d taken given', gives (some d) file r.scope l c = .ok given' →
          (l :: ls).foldlM (Reading.next (some d) file) ⟨r.scope, taken⟩
            = ls.foldlM (Reading.next (some d) file) ⟨r.scope.after c, given' ++ taken⟩ := by
        intro d taken given' hgiven'
        rw [List.foldlM_cons, Reading.next_of_parseLine hread, hgiven']
        rfl
      rw [contents_cons hread, Scope.exchangeOwners, ← howners]
      rcases gives_cases hgiven with ⟨rfl, hnone, hall⟩ | ⟨owner, record, rfl, hsome, hall⟩
      · refine ⟨new, ?_, hrecords, ?_⟩
        · rw [hnone]
          rfl
        · intro d taken
          rw [hstep d taken [] (hall d)]
          exact hselected d taken
      · refine ⟨(owner, record) :: new, ?_, ?_, ?_⟩
        · rw [hsome]
          rfl
        · rw [hrecords]
          simp
        · intro d taken
          rw [hstep d taken _ (hall d), hselected]
          by_cases hw : isWanted (some d) owner
          · simp [hw]
          · simp [hw]

end Reading

/-! ### Occurrences of records -/

/-- A record of a zone, with its owner and its place among the records. -/
structure Occurrence where
  place : Nat
  owner : Text
  record : Record

/-- The records of a zone with the owners that the text gives them. -/
def occurrences (t : Text) (rs : List Record) : List Occurrence :=
  ((owners t).zip rs).mapIdx fun i p => ⟨i, p.1, p.2⟩

/-- The occurrences that a domain owns: letters count as small, and the final dot is added to the
domain where it is missing. -/
def ownedBy (d : Text) (os : List Occurrence) : List Occurrence :=
  os.filter fun o => lower o.owner == lower (rooted d)

theorem map_occurrences (t : Text) (rs : List Record) :
    (occurrences t rs).map (fun o => (o.owner, o.record)) = (owners t).zip rs := by
  apply List.ext_getElem?
  intro i
  rw [occurrences, List.getElem?_map, List.getElem?_mapIdx, Option.map_map]
  exact congrFun Option.map_id _

/-- An occurrence is known by its place. -/
theorem eq_of_place_eq {t : Text} {rs : List Record} {o o' : Occurrence}
    (h : o ∈ occurrences t rs) (h' : o' ∈ occurrences t rs) (hplace : o.place = o'.place) :
    o = o' := by
  obtain ⟨i, hi, rfl⟩ := List.mem_mapIdx.1 h
  obtain ⟨j, hj, rfl⟩ := List.mem_mapIdx.1 h'
  obtain rfl : i = j := hplace
  rfl

variable {file t : Text}

theorem records_eq_ok {domain : Option Text} {rs : List Record}
    (h : records domain file t = .ok rs) :
    ∃ r, (logicalLines t).foldlM (Reading.next domain file) {} = .ok r ∧ unclosed? t = none ∧
      rs = r.records.reverse := by
  unfold records at h
  split at h
  · cases h
  · rename_i r hfold
    split at h
    · cases h
    · rename_i hopen
      exact ⟨r, hfold, hopen, (Except.ok.inj h).symm⟩

/-- **A zone that is read for all is read for every domain**, and gives it the records that it
owns. -/
theorem records_some_of_none {rs : List Record} (h : records none file t = .ok rs) :
    (owners t).length = rs.length ∧ ∀ d, records (some d) file t
      = .ok ((((owners t).zip rs).filter fun p => isWanted (some d) p.1).map Prod.snd) := by
  obtain ⟨r, hfold, hopen, rfl⟩ := records_eq_ok h
  obtain ⟨new, howners, hrecords, hselected⟩ := foldlM_selected hfold
  have hrs : r.records.reverse = new.map Prod.snd := by
    rw [hrecords, List.append_nil, List.reverse_reverse]
  have hnew : new = (owners t).zip r.records.reverse := List.zip_of_prod howners hrs.symm
  constructor
  · rw [hrs, List.length_map, owners, ← howners, List.length_map]
  · intro d
    rw [← hnew, records, hselected d [], hopen]
    dsimp only
    rw [List.append_nil, List.reverse_reverse]

/-- **Selecting by domain is a filter.**  If a zone can be read for all, then its text gives an
owner to each of its records, and for every domain the records are those that the domain owns, in
the same order.  Two domains that differ in more than the case of letters and the final dot have no
record in common.  And a zone that cannot be read for some domain cannot be read for all. -/
theorem records_selected (file t : Text) :
    (∀ rs, records none file t = .ok rs →
      (occurrences t rs).map (·.record) = rs ∧
      (∀ d, d ≠ [] → records (domain? d) file t
        = .ok ((ownedBy d (occurrences t rs)).map (·.record))) ∧
      ∀ d d', lower (rooted d) ≠ lower (rooted d') →
        ∀ o ∈ ownedBy d (occurrences t rs), ∀ o' ∈ ownedBy d' (occurrences t rs),
          o.place ≠ o'.place) ∧
    ∀ d f, records (domain? d) file t = .error f → ∃ g, records none file t = .error g := by
  constructor
  · intro rs hrs
    obtain ⟨hlen, hselected⟩ := records_some_of_none hrs
    have hmap := map_occurrences t rs
    refine ⟨?_, ?_, ?_⟩
    · have hsnd := congrArg (List.map Prod.snd) hmap
      rw [List.map_map, List.map_snd_zip (Nat.le_of_eq hlen.symm)] at hsnd
      exact hsnd
    · intro d hd
      rw [domain?, if_neg hd, hselected d, ← hmap, List.filter_map, List.map_map]
      rfl
    · intro d d' hne o ho o' ho' hplace
      obtain ⟨hmem, howner⟩ := List.mem_filter.1 ho
      obtain ⟨hmem', howner'⟩ := List.mem_filter.1 ho'
      obtain rfl := eq_of_place_eq hmem hmem' hplace
      exact hne ((beq_iff_eq.1 howner).symm.trans (beq_iff_eq.1 howner'))
  · intro d f hf
    cases hall : records none file t with
    | error g => exact ⟨g, rfl⟩
    | ok rs =>
      rw [domain?] at hf
      split at hf
      · rw [hall] at hf
        cases hf
      · rw [(records_some_of_none hall).2 d] at hf
        cases hf

/-- Owners that are relative to an origin, repeated across a record of another type, and written in
capitals. -/
theorem records_selected_inherited :
    records none [] "$ORIGIN net\na MX 1 x\nA.NET. A 1\n MX 2 y.\nb MX 3 z.\n".toList
        = .ok [⟨1, "x.net.".toList⟩, ⟨2, "y.".toList⟩, ⟨3, "z.".toList⟩] ∧
      records (domain? "a.Net".toList) []
          "$ORIGIN net\na MX 1 x\nA.NET. A 1\n MX 2 y.\nb MX 3 z.\n".toList
        = .ok [⟨1, "x.net.".toList⟩, ⟨2, "y.".toList⟩] := by
  have hall : records none [] "$ORIGIN net\na MX 1 x\nA.NET. A 1\n MX 2 y.\nb MX 3 z.\n".toList
      = .ok [⟨1, "x.net.".toList⟩, ⟨2, "y.".toList⟩, ⟨3, "z.".toList⟩] := by decide +kernel
  obtain ⟨-, hselected, -⟩ := (records_selected [] _).1 _ hall
  refine ⟨hall, ?_⟩
  rw [hselected "a.Net".toList (by decide)]
  decide +kernel

end MxLang.Zone
