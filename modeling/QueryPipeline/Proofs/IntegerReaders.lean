import QueryPipeline.Proofs.Numerals

/-!
The two readers of whole numbers. One takes a text as a whole, without the white space around it, and
knows the digits of ASCII only; the other takes what is at the front of a text, in the digits of any
script. Where the first one reads a number the second reads the same, whatever follows the text, as long
as it does not go on with a digit.
-/

namespace QueryPipeline

open Text

/-! ## Digits of every script -/

/-- The character is the digit of this value in some script. -/
def IsDigitFor (c : Char) (d : Nat) : Prop :=
  ∃ first ∈ digitZeros, d < 10 ∧ c.toNat = first + d

/-- The number that digits of any script denote, by their places. -/
inductive Denotes : List Char → Nat → Prop where
  | nil : Denotes [] 0
  | cons {c : Char} {rest : List Char} {d n : Nat} (hc : IsDigitFor c d) (h : Denotes rest n) :
    Denotes (c :: rest) (d * 10 ^ rest.length + n)

variable {c : Char} {cs digits rest : List Char} {d n : Nat}

theorem digit?_eq_some_iff : digit? c = some d ↔ IsDigitFor c d := by
  -- The scripts' tens of digits do not overlap.
  have hapart : digitZeros.all (fun first => digitZeros.all fun other =>
      first == other || (first + 10).ble other || (other + 10).ble first) = true := by decide +kernel
  simp only [List.all_eq_true, Bool.or_eq_true, beq_iff_eq, Nat.ble_eq] at hapart
  constructor
  · intro h
    obtain ⟨first, hfirst, hrange⟩ := List.exists_of_findSome?_eq_some h
    split at hrange <;> cases hrange
    exact ⟨first, hfirst, by omega, by omega⟩
  · rintro ⟨first, hfirst, hd, hc⟩
    have hdigit : isDigit c = true := by
      rw [isDigit, digit?, List.isSome_findSome?, List.any_eq_true]
      exact ⟨first, hfirst, by simp [hc, hd]⟩
    obtain ⟨d', hd'⟩ := Option.isSome_iff_exists.mp hdigit
    obtain ⟨other, hother, hrange⟩ := List.exists_of_findSome?_eq_some hd'
    split at hrange <;> cases hrange
    have := hapart first hfirst other hother
    rw [hd']
    congr 1
    omega

theorem Denotes.isDigit (h : Denotes digits n) : ∀ c ∈ digits, isDigit c = true := by
  induction h with
  | nil => simp
  | cons hc _ ih =>
      refine List.forall_mem_cons.mpr ⟨?_, ih⟩
      rw [Text.isDigit, digit?_eq_some_iff.mpr hc]
      rfl

theorem Denotes.ofDigits (h : Denotes digits n) : ofDigits digit? digits = n := by
  have hfold (m : Nat) : digits.foldl (fun n c => 10 * n + (digit? c).getD 0) m =
      m * 10 ^ digits.length + n := by
    induction h generalizing m with
    | nil => simp
    | cons hc _ ih =>
        rw [List.foldl_cons, ih, digit?_eq_some_iff.mpr hc, Option.getD_some, List.length_cons, pow_succ]
        ring
  have hzero := hfold 0
  rwa [Nat.zero_mul, Nat.zero_add] at hzero

theorem exists_denotes (h : ∀ c ∈ digits, Text.isDigit c = true) : ∃ n, Denotes digits n := by
  induction digits with
  | nil => exact ⟨0, .nil⟩
  | cons c rest ih =>
      obtain ⟨hc, hrest⟩ := List.forall_mem_cons.mp h
      obtain ⟨d, hd⟩ := Option.isSome_iff_exists.mp hc
      obtain ⟨n, hn⟩ := ih hrest
      exact ⟨_, .cons (digit?_eq_some_iff.mp hd) hn⟩

/-- The digits of ASCII are among the digits of all scripts, with the same values. -/
theorem denotes_ascii (h : AllDigits digits) : Denotes digits (denotes digits) := by
  induction digits with
  | nil => exact .nil
  | cons c rest ih =>
      obtain ⟨hc, hrest⟩ := List.forall_mem_cons.mp h
      have hbounds := toNat_bounds hc
      refine .cons ⟨0x30, by decide, ?_, ?_⟩ (ih hrest) <;> simp only [Char.reduceToNat] <;> omega

/-! ## The number at the front of a text -/

/-- The text begins with these digits, which are all of those in a row, after white space and a sign; with
the sign they are this number. -/
def StartsWith (cs digits : List Char) (n : Int) : Prop :=
  ∃ blanks sign rest negative k, cs = blanks ++ (sign ++ (digits ++ rest)) ∧
    (∀ c ∈ blanks, isBlank c = true) ∧ IsSign negative sign ∧ digits ≠ [] ∧ Denotes digits k ∧
    (∀ c ∈ rest.head?, Text.isDigit c = false) ∧ n = signed negative k

theorem leadingDigits?_of_startsWith {n : Int} (h : StartsWith cs digits n) :
    ∃ negative k, leadingDigits? cs = some (negative, digits) ∧ Denotes digits k ∧
      n = signed negative k := by
  obtain ⟨blanks, sign, rest, negative, k, rfl, hblanks, hsign, hd, hk, hrest, rfl⟩ := h
  have hnone : ([] ++ rest).takeWhile Text.isDigit = [] :=
    (takeWhile_append_stop (fun c hc => absurd hc List.not_mem_nil) hrest).1
  have hread := leadingDigits?_append hblanks hsign hd hk.isDigit rest
  rw [List.nil_append] at hnone
  rw [hnone, List.append_nil] at hread
  exact ⟨negative, k, hread, hk, rfl⟩

theorem startsWith_of_leadingDigits? {negative : Bool} {k : Nat}
    (h : leadingDigits? cs = some (negative, digits)) (hk : Denotes digits k) :
    StartsWith cs digits (signed negative k) := by
  obtain ⟨blanks, sign, rest, rfl, hblanks, hsign, hd, hdigits⟩ := leadsWith_of_leadingDigits? h
  -- No digit is left over, or it would have been read too.
  have hread := leadingDigits?_append hblanks hsign hd hdigits rest
  rw [h, Option.some.injEq, Prod.mk.injEq, List.self_eq_append_right] at hread
  refine ⟨blanks, sign, rest, negative, k, rfl, hblanks, hsign, hd, hk, fun c hc => ?_, rfl⟩
  cases rest with
  | nil => cases hc
  | cons first rest =>
      cases hc
      cases hdigit : Text.isDigit c with
      | false => rfl
      | true =>
          rw [List.takeWhile_cons_of_pos hdigit] at hread
          cases hread.2

namespace Value

variable {s : String} {n : Int}

/-- A number is read where there is one, and its digits are not more than there may be. -/
theorem toInteger_text_eq_some_iff : (text s).toInteger = .ok (some n) ↔
    ∃ digits, StartsWith s.toList digits n ∧ digits.length ≤ 4300 := by
  rw [toInteger, leadingInteger]
  constructor
  · intro h
    split at h
    · cases h
    · rename_i negative digits hread
      split at h
      · cases h
      · rename_i hlength
        obtain ⟨-, -, -, -, -, -, -, hdigits⟩ := leadsWith_of_leadingDigits? hread
        obtain ⟨k, hk⟩ := exists_denotes hdigits
        cases h
        rw [hk.ofDigits]
        exact ⟨digits, startsWith_of_leadingDigits? hread hk, Nat.le_of_not_lt hlength⟩
  · rintro ⟨digits, hstarts, hlength⟩
    obtain ⟨negative, k, hread, hk, rfl⟩ := leadingDigits?_of_startsWith hstarts
    have hshort : ¬ digitLimit < digits.length := Nat.not_lt.mpr hlength
    simp only [hread, hk.ofDigits, if_neg hshort, signed]

/-- None is read where there are no digits, after white space and a sign or without them. -/
theorem toInteger_text_eq_none_iff : (text s).toInteger = .ok none ↔
    ∀ negative digits, ¬ LeadsWith s.toList negative digits := by
  rw [toInteger, leadingInteger]
  constructor
  · intro h negative digits hleads
    obtain ⟨more, hread⟩ := leadingDigits?_of_leadsWith hleads
    simp only [hread] at h
    split at h <;> cases h
  · intro h
    split
    · rfl
    · rename_i negative digits hread
      exact absurd (leadsWith_of_leadingDigits? hread) (h negative digits)

theorem coerced_eq_int_iff : (text s).coerced = .int n ↔ WritesWhole (trim s.toList) n := by
  rw [← number?_eq_int_iff]
  exact ofText_eq_iff_number? nofun nofun

/-- What is written as a whole number, with white space around it, begins with that number, and so does
the text with more behind it, as long as that is no digit. -/
theorem startsWith_of_coerced (h : (text s).coerced = .int n) {rest : List Char}
    (hrest : ∀ c ∈ rest.head?, Text.isDigit c = false) :
    ∃ digits, StartsWith (s.toList ++ rest) digits n ∧ digits.length ≤ 4300 := by
  obtain ⟨negative, sign, digits, htrim, hsign, hdigits, hlength, rfl⟩ := coerced_eq_int_iff.mp h
  obtain ⟨before, after, hs, hbefore, hafter⟩ := (stripped_trim s.toList).around
  refine ⟨digits, ⟨before, sign, after ++ rest, negative, _, ?_, hbefore, hsign, hdigits.1,
    denotes_ascii hdigits.2, ?_, rfl⟩, hlength⟩
  · rw [hs, htrim]
    simp only [List.append_assoc]
  · cases after with
    | nil => exact hrest
    | cons c after =>
        rintro _ ⟨⟩
        have hblank := hafter c List.mem_cons_self
        cases hdigit : Text.isDigit c with
        | false => rfl
        | true => cases (isBlank_of_isDigit hdigit).symm.trans hblank

/-- A text that stands for a whole number is read as this number, and still is with more behind it that
does not begin with a digit. A text is read as the number that it begins with, if that has at most 4300
digits, and as none if it begins with none. -/
theorem integer_readers_agree (s : String) :
    (∀ n, (text s).coerced = .int n → (text s).toInteger = .ok (some n) ∧
      ∀ r : String, (∀ c ∈ r.toList.head?, Text.isDigit c = false) →
        (text (s ++ r)).toInteger = .ok (some n)) ∧
    (∀ n, (text s).toInteger = .ok (some n) ↔
      ∃ digits, StartsWith s.toList digits n ∧ digits.length ≤ 4300) ∧
    ((text s).toInteger = .ok none ↔ ∀ negative digits, ¬ LeadsWith s.toList negative digits) := by
  refine ⟨fun n h => ⟨?_, fun r hr => ?_⟩, fun n => toInteger_text_eq_some_iff,
    toInteger_text_eq_none_iff⟩
  · have hnil : ∀ c ∈ ([] : List Char).head?, Text.isDigit c = false := nofun
    have hstarts := startsWith_of_coerced h hnil
    rw [List.append_nil] at hstarts
    exact toInteger_text_eq_some_iff.mpr hstarts
  · have hstarts := startsWith_of_coerced h hr
    rw [← String.toList_append] at hstarts
    exact toInteger_text_eq_some_iff.mpr hstarts

end Value

end QueryPipeline
