import Mathlib.Data.List.TakeWhile
import QueryPipeline.Value.LeadingInteger

/-!
Texts with a whole number at their front: white space, a sign or none, and digits of any script. The
digits that are read are all of those in a row.
-/

namespace QueryPipeline

open Text

theorem Text.digit_range {c : Char} (h : isDigit c = true) :
    ∃ start ∈ digitZeros, start ≤ c.toNat ∧ c.toNat < start + 10 := by
  obtain ⟨n, hn⟩ := Option.isSome_iff_exists.mp h
  obtain ⟨start, hstart, hrange⟩ := List.exists_of_findSome?_eq_some hn
  split at hrange
  · exact ⟨start, hstart, ‹_›⟩
  · cases hrange

/-- No digit is white space. -/
theorem Text.isBlank_of_isDigit {c : Char} (h : isDigit c = true) : isBlank c = false := by
  have htable : ∀ start ∈ digitZeros, ∀ n < 10, isBlank (Char.ofNat (start + n)) = false := by
    decide +kernel
  obtain ⟨start, hstart, hle, hlt⟩ := digit_range h
  have hc : start + (c.toNat - start) = c.toNat := Nat.add_sub_cancel' hle
  have hblank := htable start hstart (c.toNat - start) (by omega)
  rwa [hc, Char.ofNat_toNat] at hblank

/-- Characters of a class, taken off a text where something else begins. -/
theorem Text.takeWhile_append_stop {p : Char → Bool} {front rest : List Char}
    (hfront : ∀ c ∈ front, p c = true) (hrest : ∀ c ∈ rest.head?, p c = false) :
    (front ++ rest).takeWhile p = front ∧ (front ++ rest).dropWhile p = rest := by
  rw [List.takeWhile_append_of_pos hfront, List.dropWhile_append_of_pos hfront]
  cases rest with
  | nil => simp
  | cons c rest => simp [hrest c rfl]

/-- A sign, or none, and whether it is a minus. -/
inductive IsSign : Bool → List Char → Prop where
  | none : IsSign false []
  | plus : IsSign false ['+']
  | minus : IsSign true ['-']

/-- A text has digits at its front, after white space and a sign. More digits may follow. -/
def LeadsWith (cs : List Char) (negative : Bool) (digits : List Char) : Prop :=
  ∃ blanks sign rest, cs = blanks ++ (sign ++ (digits ++ rest)) ∧
    (∀ c ∈ blanks, isBlank c = true) ∧ IsSign negative sign ∧
    digits ≠ [] ∧ ∀ c ∈ digits, isDigit c = true

variable {negative : Bool} {digits cs : List Char}

theorem takeSign_sound (cs : List Char) :
    ∃ sign, cs = sign ++ (Decimal.takeSign cs).2 ∧ IsSign (Decimal.takeSign cs).1 sign := by
  unfold Decimal.takeSign
  split
  · exact ⟨_, rfl, .minus⟩
  · exact ⟨_, rfl, .plus⟩
  · exact ⟨_, rfl, .none⟩

/-- What follows a sign does not begin with one. -/
theorem takeSign_sign {sign rest : List Char} (h : IsSign negative sign)
    (hrest : ∀ c ∈ rest.head?, c ≠ '-' ∧ c ≠ '+') :
    Decimal.takeSign (sign ++ rest) = (negative, rest) := by
  cases h with
  | plus | minus => rfl
  | none =>
      cases rest with
      | nil => rfl
      | cons c rest =>
          obtain ⟨hminus, hplus⟩ := hrest c rfl
          simp [Decimal.takeSign, hminus, hplus]

theorem takeSign_append {sign : List Char} (h : IsSign negative sign) (hd : digits ≠ [])
    (hdigits : ∀ c ∈ digits, isDigit c = true) (rest : List Char) :
    Decimal.takeSign (sign ++ (digits ++ rest)) = (negative, digits ++ rest) := by
  apply takeSign_sign h
  obtain ⟨c, more, rfl⟩ := List.exists_cons_of_ne_nil hd
  rintro _ ⟨⟩
  constructor <;> rintro rfl <;> exact absurd (hdigits _ List.mem_cons_self) (by decide)

theorem leadsWith_of_leadingDigits? (h : leadingDigits? cs = some (negative, digits)) :
    LeadsWith cs negative digits := by
  obtain ⟨sign, hsign, hsigned⟩ := takeSign_sound (cs.dropWhile isBlank)
  unfold leadingDigits? at h
  rcases htaken : Decimal.takeSign (cs.dropWhile isBlank) with ⟨minus, tail⟩
  rw [htaken] at hsign hsigned h
  simp only at hsign hsigned h
  split at h
  · cases h
  · rename_i hne
    cases h
    refine ⟨cs.takeWhile isBlank, sign, tail.dropWhile isDigit, ?_, ?_, hsigned, ?_, ?_⟩
    · rw [List.takeWhile_append_dropWhile, ← hsign, List.takeWhile_append_dropWhile]
    · exact fun c hc => List.mem_takeWhile_imp hc
    · exact fun hnil => hne hnil
    · exact fun c hc => List.mem_takeWhile_imp hc

/-- All digits in a row are read. -/
theorem leadingDigits?_append {blanks sign : List Char} (hblanks : ∀ c ∈ blanks, isBlank c = true)
    (hsign : IsSign negative sign) (hd : digits ≠ []) (hdigits : ∀ c ∈ digits, isDigit c = true)
    (rest : List Char) :
    leadingDigits? (blanks ++ (sign ++ (digits ++ rest))) =
      some (negative, digits ++ rest.takeWhile isDigit) := by
  have hstop : (sign ++ (digits ++ rest)).dropWhile isBlank = sign ++ (digits ++ rest) := by
    obtain ⟨c, more, heq, hc⟩ : ∃ c more, sign ++ (digits ++ rest) = c :: more ∧ isBlank c = false := by
      cases hsign with
      | plus | minus => exact ⟨_, _, rfl, by decide⟩
      | none =>
          obtain ⟨c, more, rfl⟩ := List.exists_cons_of_ne_nil hd
          exact ⟨c, more ++ rest, rfl, isBlank_of_isDigit (hdigits c List.mem_cons_self)⟩
    rw [heq, List.dropWhile_cons_of_neg (by simp [hc])]
  have hread : (digits ++ rest).takeWhile isDigit = digits ++ rest.takeWhile isDigit :=
    List.takeWhile_append_of_pos hdigits
  unfold leadingDigits?
  rw [List.dropWhile_append_of_pos hblanks, hstop, takeSign_append hsign hd hdigits]
  simp only [hread]
  split
  · rename_i hnil
    exact absurd (List.append_eq_nil_iff.mp hnil).1 hd
  · rfl

theorem leadingDigits?_of_leadsWith (h : LeadsWith cs negative digits) :
    ∃ more, leadingDigits? cs = some (negative, digits ++ more) := by
  obtain ⟨blanks, sign, rest, rfl, hblanks, hsign, hd, hdigits⟩ := h
  exact ⟨_, leadingDigits?_append hblanks hsign hd hdigits rest⟩

/-- Whether a value is a text with more digits at its front than numbers may have. -/
def Value.IsOverlong : Value → Prop
  | .text s => ∃ negative digits, LeadsWith s.toList negative digits ∧ digitLimit < digits.length
  | _ => False

theorem Value.isOverlong_nines {n : Nat} (h : digitLimit < n) :
    (Value.text (String.ofList (List.replicate n '9'))).IsOverlong := by
  refine ⟨false, List.replicate n '9', ⟨[], [], [], ?_, by simp, .none, ?_, ?_⟩, by simpa using h⟩
  · simp [String.toList_ofList]
  · simp [List.replicate_eq_nil_iff]
    omega
  · intro c hc
    rw [List.eq_of_mem_replicate hc]
    decide

theorem Value.toInteger_overlong {v : Value} (h : v.IsOverlong) :
    v.toInteger = .error (.misuse .tooManyDigits) := by
  cases v with
  | text s =>
      obtain ⟨negative, digits, hleads, hlong⟩ := h
      obtain ⟨more, hread⟩ := leadingDigits?_of_leadsWith hleads
      have hlonger : digitLimit < (digits ++ more).length := by
        rw [List.length_append]
        omega
      rw [toInteger, leadingInteger, hread]
      exact if_pos hlonger
  | _ => exact h.elim

theorem Value.toInteger_of_not_overlong {v : Value} (h : ¬ v.IsOverlong) :
    ∃ n?, v.toInteger = .ok n? := by
  cases v with
  | text s =>
      rw [toInteger, leadingInteger]
      split
      · exact ⟨_, rfl⟩
      · rename_i negative digits hread
        rw [if_neg fun hlong => h ⟨negative, digits, leadsWith_of_leadingDigits? hread, hlong⟩]
        exact ⟨_, rfl⟩
  | _ => exact ⟨_, rfl⟩

end QueryPipeline
