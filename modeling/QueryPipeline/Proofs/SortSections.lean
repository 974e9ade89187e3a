import Mathlib.Algebra.Order.Field.Rat
import QueryPipeline.Proofs.Shape

/-!
What comes of a sort section. A sort object counts as a whole, with its fields in its order, or not at
all; and where it does not count there is one field to sort by, the one that is asked for or the usual one.
Only where there are no words for what is wrong with a sort object nothing comes of the section.
-/

namespace QueryPipeline

open Entries (get?)

/-! ## Directions -/

/-- The number that a double is, unless it is an infinity or none. -/
def Double.toRat? (x : Double) : Option ℚ :=
  x.ratio?.map fun (n, d) => n / d

theorem Double.ratio?_pos {x : Double} {n : Int} {d : Nat} (h : x.ratio? = some (n, d)) : 0 < d := by
  cases x with
  | finite negative m q =>
      simp only [ratio?, Option.some.injEq, Prod.mk.injEq] at h
      obtain ⟨-, rfl⟩ := h
      split
      · exact Nat.one_pos
      · exact Nat.pow_pos (by decide)
  | infinite | nan => cases h

namespace Value

theorem equalNumbers_int (n m : Int) : (int n).equalNumbers (.int m) = true ↔ n = m := by
  simp [equalNumbers, ratio?]

theorem equalNumbers_float (x : Double) (m : Int) :
    (float x).equalNumbers (.int m) = true ↔ x.toRat? = some (m : ℚ) := by
  have hratio : (float x).equalNumbers (.int m) = (x.ratio?.any fun (n, d) => n * 1 == m * d) := by
    cases hx : x.ratio? with
    | none => simp [equalNumbers, ratio?, hx]
    | some r => simp [equalNumbers, ratio?, hx]
  rw [hratio, Double.toRat?]
  cases hx : x.ratio? with
  | none => simp
  | some r =>
      obtain ⟨n, d⟩ := r
      have hd : (d : ℚ) ≠ 0 := Nat.cast_ne_zero.mpr (Double.ratio?_pos hx).ne'
      simp only [Option.any_some, beq_iff_eq, mul_one, Option.map_some, Option.some.injEq,
        div_eq_iff hd]
      exact_mod_cast Iff.rfl

end Value

/-- The texts that name a direction, in small letters. -/
def Direction.names : Direction → List String
  | .ascending => ["1", "asc", "ascending"]
  | .descending => ["-1", "desc", "descending"]

namespace Sorting

/-- A value names a direction: it is equal to the direction's number, or it is one of the direction's
names, whatever the case of its letters. -/
inductive Names : Value → Direction → Prop where
  | int (d : Direction) : Names (.int d.sign) d
  | float {x : Double} {d : Direction} (h : x.toRat? = some (d.sign : ℚ)) : Names (.float x) d
  | text {s : String} {d : Direction} (h : s.toLower ∈ d.names) : Names (.text s) d

theorem directionNames_iff (name : String) (d : Direction) :
    directionNames.get? name = some d ↔ name ∈ d.names := by
  have hn : (Entries.keys directionNames).Nodup := by decide
  rw [← Entries.mem_iff_get? hn]
  cases d <;> simp [directionNames, Direction.names]

theorem direction?_eq_some_iff {v : Value} {d : Direction} : direction? v = some d ↔ Names v d := by
  cases v with
  | int n =>
      have hread : direction? (.int n) = some d ↔ n = d.sign := by
        simp only [direction?, Value.equalNumbers_int]
        cases d <;> simp only [Direction.sign] <;> grind
      rw [hread]
      exact ⟨fun h => h ▸ .int d, fun h => by cases h; rfl⟩
  | float x =>
      have hread : direction? (.float x) = some d ↔ x.toRat? = some (d.sign : ℚ) := by
        simp only [direction?, Value.equalNumbers_float]
        cases d <;> simp only [Direction.sign] <;> grind
      rw [hread]
      exact ⟨.float, fun h => by cases h; assumption⟩
  | text s =>
      rw [direction?, directionNames_iff]
      exact ⟨.text, fun h => by cases h; assumption⟩
  | _ => exact ⟨fun h => (by cases h), nofun⟩

/-! ## Sort objects -/

/-- The spec has the fields of the object in their order, each with the direction that it names. -/
def Spells (entries : Document) (spec : SortSpec) : Prop :=
  List.Forall₂ (fun entry key => key.1 = .text entry.1 ∧ Names entry.2 key.2) entries spec

/-- An object of fields with their directions, and there is a field in it. -/
def IsSortObject (v : Value) : Prop :=
  ∃ entries, v = .object entries ∧ entries ≠ [] ∧ ∀ entry ∈ entries, ∃ d, Names entry.2 d

variable {rules : Rules} {entries : Document} {spec : SortSpec} {v part : Value} {fault : Fault}

theorem readEntries_eq_ok_iff : readEntries entries = .ok spec ↔ Spells entries spec := by
  rw [Spells]
  induction entries generalizing spec with
  | nil => simp [readEntries, eq_comm]
  | cons entry rest ih =>
      rw [readEntries_cons_iff, List.forall₂_cons_left_iff]
      constructor
      · rintro ⟨d, others, hd, hrest, rfl⟩
        exact ⟨_, others, ⟨rfl, direction?_eq_some_iff.mp hd⟩, ih.mp hrest, rfl⟩
      · rintro ⟨⟨_, d⟩, others, ⟨rfl, hd⟩, hrest, rfl⟩
        exact ⟨d, others, direction?_eq_some_iff.mpr hd, ih.mpr hrest, rfl⟩

theorem exists_spells_iff :
    (∃ spec, Spells entries spec) ↔ ∀ entry ∈ entries, ∃ d, Names entry.2 d := by
  induction entries with
  | nil => exact ⟨fun _ => nofun, fun _ => ⟨[], .nil⟩⟩
  | cons entry rest ih =>
      rw [List.forall_mem_cons, ← ih]
      constructor
      · rintro ⟨_, hspec⟩
        cases hspec with
        | cons hentry hrest => exact ⟨⟨_, hentry.2⟩, _, hrest⟩
      · rintro ⟨⟨d, hd⟩, others, hothers⟩
        exact ⟨(.text entry.1, d) :: others, .cons ⟨rfl, hd⟩ hothers⟩

/-- Sort objects are what is looked at and can be read. -/
theorem isSortObject_iff :
    IsSortObject v ↔ v.isTruthy = true ∧ ∃ spec, readObject v = .ok spec := by
  constructor
  · rintro ⟨entries, rfl, hne, hall⟩
    obtain ⟨spec, hspec⟩ := exists_spells_iff.mpr hall
    exact ⟨by simp [Value.isTruthy, hne], spec, readEntries_eq_ok_iff.mpr hspec⟩
  · rintro ⟨htruthy, spec, hread⟩
    cases v with
    | object entries =>
        refine ⟨entries, rfl, ?_, exists_spells_iff.mp ⟨spec, readEntries_eq_ok_iff.mp hread⟩⟩
        rintro rfl
        cases htruthy
    | _ => cases hread

/-! ## Sections -/

/-- What a section has under a key; null for a key that it does not have, and for what is no object. -/
def given (part : Value) (key : String) : Value :=
  (get? (part.entries?.getD []) key).getD .null

/-- The name in a value: the text, of a text with something in it. -/
def name? : Value → Option String
  | .text s => if s = "" then none else some s
  | _ => none

/-- What to sort by where no sort object counts: the field that is asked for, or the usual one. -/
def fallback (field : String) (direction part : Value) : Value × Direction :=
  (.text ((name? (given part "orderByField")).getD field),
    if (given part "orderDirection").orElse direction = .text "asc" then .ascending else .descending)

/-- There is a field to sort by, and it is no text. -/
def HasWrongField (part : Value) : Prop :=
  (given part "orderByField").isTruthy = true ∧ ∀ s, given part "orderByField" ≠ .text s

/-- What a strict reader refuses: what is no section, a sort object that is none, and, where there is no
sort object to look at, a field to sort by that is no text. -/
inductive Refused (part : Value) : Prop where
  | part (hnull : part ≠ .null) (hobject : ∀ entries, part ≠ .object entries)
  | sortObject (hgiven : (given part "sortObject").isTruthy = true)
      (hbroken : ¬ IsSortObject (given part "sortObject"))
  | field (hnone : (given part "sortObject").isTruthy = false) (hwrong : HasWrongField part)

/-- There are no words for what is wrong with the sort object: the first value in it that names no
direction has no text. -/
def Unshown (part : Value) : Prop :=
  ∃ before field v after, given part "sortObject" = .object (before ++ (field, v) :: after) ∧
    (∀ entry ∈ before, ∃ d, Names entry.2 d) ∧ (∀ d, ¬ Names v d) ∧ v.hasText = false

theorem direction?_eq_none_iff : direction? v = none ↔ ∀ d, ¬ Names v d := by
  rw [Option.eq_none_iff_forall_not_mem]
  simp only [Option.mem_def, direction?_eq_some_iff]

/-- What is refused as a sort object is so for its kind or for its first value that names no direction. -/
theorem readObject_fault (h : readObject (given part "sortObject") = .error fault) :
    (∃ flaw, fault = .invalid flaw) ∨ Unshown part ∧ fault = .misuse .tooManyDigits := by
  unfold readObject at h
  split at h
  · rename_i hobject
    obtain ⟨before, field, v, after, rfl, hbefore, hv, rfl⟩ := readEntries_error_iff.mp h
    rcases Fault.ofFlaw_cases (.sortDirection v field) with hflaw | ⟨hmisuse, _, ⟨⟩, hnone⟩
    · exact .inl ⟨_, hflaw⟩
    · refine .inr ⟨⟨before, field, v, after, hobject, ?_, direction?_eq_none_iff.mp hv, hnone⟩, hmisuse⟩
      exact fun entry hentry => (hbefore entry hentry).imp fun _ => direction?_eq_some_iff.mp
  · exact .inl ⟨_, (Except.error.inj h).symm⟩

theorem readObject_unshown (h : Unshown part) :
    readObject (given part "sortObject") = .error (.misuse .tooManyDigits) := by
  obtain ⟨before, field, v, after, hobject, hbefore, hv, hnone⟩ := h
  rw [hobject]
  refine readEntries_error_iff.mpr ⟨before, field, v, after, rfl, fun entry hentry => ?_,
    direction?_eq_none_iff.mpr hv, ?_⟩
  · exact (hbefore entry hentry).imp fun _ => direction?_eq_some_iff.mpr
  · simp [Fault.ofFlaw, Flaw.shows?, hnone]

/-- What has words has words for what is wrong with it. -/
theorem not_unshown (h : part.hasText = true) : ¬ Unshown part := by
  rintro ⟨before, field, v, after, hobject, -, -, hnone⟩
  have hgiven : (given part "sortObject").hasText = true := by
    cases part with
    | object entries => exact Value.hasText_get? h "sortObject"
    | _ => rfl
  rw [hobject] at hgiven
  have hv : v.hasText = true := Value.hasText_object.mp hgiven (field, v) (by simp)
  exact Bool.false_ne_true (hnone.symm.trans hv)

theorem name?_of_no_text (h : ∀ s, v ≠ .text s) : name? v = none := by
  cases v with
  | text s => exact absurd rfl (h s)
  | _ => rfl

theorem orElse_name? (field : String) (h : v.isTruthy = false ∨ ∃ s, v = .text s) :
    v.orElse (.text field) = .text ((name? v).getD field) := by
  rw [Value.orElse]
  rcases h with hfalsy | ⟨s, rfl⟩
  · cases v <;> simp_all [Value.isTruthy, name?]
  · by_cases hs : s = "" <;> simp [Value.isTruthy, name?, hs]

theorem not_hasWrongField_iff : ¬ HasWrongField part ↔
    (given part "orderByField").isTruthy = false ∨ ∃ s, given part "orderByField" = .text s := by
  rw [HasWrongField, Classical.not_and_iff_not_or_not, Bool.not_eq_true]
  simp

/-- How a section is read without a sort object, by what it has under its keys. -/
theorem readField_eq (part : Value) : readField rules (part.entries?.getD []) =
    let direction := (given part "orderDirection").orElse rules.defaultDirection
    match (given part "orderByField").orElse rules.defaultField with
    | .text s => single (.text s) direction
    | _ => if rules.lenient then single rules.defaultField direction
      else .error (.invalid .sortFieldNotText) := by
  simp only [readField, given]
  split <;> simp_all

theorem readField_wrong (h : HasWrongField part) : readField rules (part.entries?.getD []) =
    if rules.lenient then
      single rules.defaultField ((given part "orderDirection").orElse rules.defaultDirection)
    else .error (.invalid .sortFieldNotText) := by
  obtain ⟨htruthy, hno⟩ := h
  have hkept : (given part "orderByField").orElse rules.defaultField = given part "orderByField" :=
    if_pos htruthy
  simp only [readField_eq, hkept]

theorem readField_fallback {field : String} (hfield : rules.defaultField = .text field)
    (h : rules.lenient = true ∨ ¬ HasWrongField part) :
    readField rules (part.entries?.getD []) = .ok [fallback field rules.defaultDirection part] := by
  by_cases hwrong : HasWrongField part
  · have hlenient : rules.lenient = true := h.resolve_right (not_not.mpr hwrong)
    rw [readField_wrong hwrong, if_pos hlenient, hfield, fallback, name?_of_no_text hwrong.2]
    rfl
  · rw [readField_eq, hfield, orElse_name? field (not_hasWrongField_iff.mp hwrong), fallback]
    rfl

theorem readSection_sortObject (h : IsSortObject (given part "sortObject")) :
    ∃ spec, readObject (given part "sortObject") = .ok spec ∧
      ∀ rules, readSection rules (part.entries?.getD []) = .ok spec := by
  obtain ⟨htruthy, spec, hread⟩ := isSortObject_iff.mp h
  refine ⟨spec, hread, fun rules => ?_⟩
  rw [given] at htruthy hread
  simp only [readSection, htruthy, hread, if_true]

theorem readSection_broken (hshown : ¬ Unshown part)
    (htruthy : (given part "sortObject").isTruthy = true)
    (h : ¬ IsSortObject (given part "sortObject")) :
    ∃ flaw, ∀ rules, readSection rules (part.entries?.getD []) =
      if rules.lenient then readField rules (part.entries?.getD []) else .error (.invalid flaw) := by
  rw [isSortObject_iff, not_and] at h
  cases hread : readObject (given part "sortObject") with
  | ok spec => exact absurd ⟨spec, hread⟩ (h htruthy)
  | error fault =>
      obtain ⟨flaw, rfl⟩ := (readObject_fault hread).resolve_right fun hnone => hshown hnone.1
      refine ⟨flaw, fun rules => ?_⟩
      rw [given] at htruthy hread
      simp only [readSection, htruthy, hread, if_true]

theorem readSection_none (h : (given part "sortObject").isTruthy = false) :
    readSection rules (part.entries?.getD []) = readField rules (part.entries?.getD []) := by
  rw [given] at h
  simp [readSection, h]

theorem read_section (h : rules.lenient = true ∨ part = .null ∨ ∃ entries, part = .object entries) :
    read rules part = readSection rules (part.entries?.getD []) := by
  rcases h with hlenient | rfl | ⟨entries, rfl⟩
  · cases part <;> simp [read, hlenient, Value.entries?]
  · rfl
  · rfl

/-- Only objects have sort objects in them. -/
theorem entries_of_isSortObject {key : String} (h : IsSortObject (given part key)) :
    ∃ entries, part = .object entries := by
  cases part with
  | object entries => exact ⟨entries, rfl⟩
  | _ =>
      obtain ⟨entries, hnull, -⟩ := h
      cases hnull

/-- A sort object is read as it is spelled, however strict the reader. -/
theorem read_sortObject (h : IsSortObject (given part "sortObject")) :
    ∃ spec, (∀ entries, given part "sortObject" = .object entries → Spells entries spec) ∧
      ∀ rules, read rules part = .ok spec := by
  obtain ⟨spec, hspec, hread⟩ := readSection_sortObject h
  refine ⟨spec, fun entries hentries => ?_, fun rules => ?_⟩
  · rw [hentries] at hspec
    exact readEntries_eq_ok_iff.mp hspec
  · rw [read_section (.inr (.inr (entries_of_isSortObject h)))]
    exact hread rules

theorem not_refused_of_isSortObject (h : IsSortObject (given part "sortObject")) : ¬ Refused part := by
  rintro (⟨-, hobject⟩ | ⟨-, hbroken⟩ | ⟨hnone, -⟩)
  · obtain ⟨entries, hentries⟩ := entries_of_isSortObject h
    exact hobject entries hentries
  · exact hbroken h
  · rw [(isSortObject_iff.mp h).1] at hnone
    cases hnone

/-- Without words for what is wrong with the sort object, no reader goes on. -/
theorem read_unshown (h : Unshown part) : read rules part = .error (.misuse .tooManyDigits) := by
  have hread := readObject_unshown h
  obtain ⟨before, field, v, after, hobject, -⟩ := h
  cases part with
  | object entries =>
      have htruthy : (given (.object entries) "sortObject").isTruthy = true := by
        rw [hobject]
        simp [Value.isTruthy]
      rw [read_section (.inr (.inr ⟨entries, rfl⟩))]
      rw [given] at htruthy hread
      simp only [readSection, htruthy, hread, if_true]
  | _ => cases hobject

theorem read_refused (hshown : ¬ Unshown part) (hstrict : rules.lenient = false) (h : Refused part) :
    ∃ flaw, read rules part = .error (.invalid flaw) := by
  by_cases hsection : part = .null ∨ ∃ entries, part = .object entries
  · rw [read_section (.inr hsection)]
    cases h with
    | part hnull hobject =>
        obtain ⟨entries, hentries⟩ := hsection.resolve_left hnull
        exact absurd hentries (hobject entries)
    | sortObject hgiven hbroken =>
        obtain ⟨flaw, hread⟩ := readSection_broken hshown hgiven hbroken
        exact ⟨flaw, by rw [hread, hstrict]; rfl⟩
    | field hnone hwrong =>
        exact ⟨_, by rw [readSection_none hnone, readField_wrong hwrong, hstrict]; rfl⟩
  · refine ⟨.sortNotObject, ?_⟩
    cases part <;> simp_all [read]

/-- Without a sort object there is one field to sort by, unless a strict reader refuses the section. -/
theorem read_fallback {field : String} (hfield : rules.defaultField = .text field)
    (hshown : ¬ Unshown part) (hnone : ¬ IsSortObject (given part "sortObject"))
    (h : rules.lenient = true ∨ ¬ Refused part) :
    read rules part = .ok [fallback field rules.defaultDirection part] := by
  have hsection : rules.lenient = true ∨ part = .null ∨ ∃ entries, part = .object entries := by
    refine h.imp_right fun hnot => ?_
    by_contra hneither
    obtain ⟨hnull, hobject⟩ := not_or.mp hneither
    exact hnot (.part hnull (not_exists.mp hobject))
  rw [read_section hsection]
  cases htruthy : (given part "sortObject").isTruthy with
  | true =>
      have hlenient : rules.lenient = true := h.resolve_right (not_not.mpr (.sortObject htruthy hnone))
      obtain ⟨flaw, hread⟩ := readSection_broken hshown htruthy hnone
      rw [hread, if_pos hlenient, readField_fallback hfield (.inl hlenient)]
  | false =>
      rw [readSection_none htruthy]
      exact readField_fallback hfield (h.imp_right fun hnot hwrong => hnot (.field htruthy hwrong))

/-- Where there are words for what is wrong with a section, as there are in JSON, a lenient reader finds
something to sort by in it: all of a sort object with a direction for each of its fields, and nothing of
any other. A strict reader finds the same, or refuses the section. Without the words both fail. -/
theorem read_all_or_nothing (field : String) (direction part : Value) :
    let rules (lenient : Bool) : Rules :=
      { defaultField := .text field, defaultDirection := direction, lenient }
    let sortObject := given part "sortObject"
    (¬ Unshown part →
      (∃ spec, read (rules true) part = .ok spec ∧ spec ≠ [] ∧
        (∀ key ∈ spec, key.2.sign = 1 ∨ key.2.sign = -1) ∧
        (IsSortObject sortObject → ∀ entries, sortObject = .object entries → Spells entries spec) ∧
        (¬ IsSortObject sortObject → spec = [fallback field direction part])) ∧
      ((∃ flaw, read (rules false) part = .error (.invalid flaw)) ↔ Refused part) ∧
      (¬ Refused part → read (rules false) part = read (rules true) part)) ∧
    (part.InJson → ¬ Unshown part) ∧
    (Unshown part → ∀ lenient, read (rules lenient) part = .error (.misuse .tooManyDigits)) := by
  intro rules sortObject
  refine ⟨fun hshown => ?_, fun hjson => not_unshown hjson.hasText, fun h lenient => read_unshown h⟩
  by_cases h : IsSortObject sortObject
  · obtain ⟨spec, hspells, hread⟩ := read_sortObject h
    have hnot := not_refused_of_isSortObject h
    refine ⟨⟨spec, hread _, read_ne_nil (hread (rules true)), fun key _ => key.2.sign_eq,
      fun _ => hspells, absurd h⟩, iff_of_false ?_ hnot, fun _ => (hread _).trans (hread _).symm⟩
    rintro ⟨flaw, hflaw⟩
    cases (hread _).symm.trans hflaw
  · have hlenient : read (rules true) part = .ok [fallback field direction part] :=
      read_fallback rfl hshown h (.inl rfl)
    have hstrict : ¬ Refused part → read (rules false) part = .ok [fallback field direction part] :=
      fun hnot => read_fallback rfl hshown h (.inr hnot)
    refine ⟨⟨_, hlenient, List.cons_ne_nil _ _, fun key _ => key.2.sign_eq,
      fun hobject => absurd hobject h, fun _ => rfl⟩, ⟨?_, read_refused hshown rfl⟩, fun hnot => ?_⟩
    · rintro ⟨flaw, hflaw⟩
      by_contra hnot
      cases (hstrict hnot).symm.trans hflaw
    · exact (hstrict hnot).trans hlenient.symm

/-- One direction that is none is enough: no field of the sort object is sorted by. -/
example :
    let broken : Value := .object [("name", .text "Asc"), ("age", .bool true)]
    read { defaultField := .text "_id", defaultDirection := .text "desc", lenient := true }
        (.object [("sortObject", broken), ("orderDirection", .text "asc")]) =
      .ok [(.text "_id", .ascending)] := by
  with_unfolding_all rfl

end Sorting

end QueryPipeline
