import QueryPipeline.Json.Reader
import QueryPipeline.Proofs.Numerals
import QueryPipeline.Proofs.Results

/-!
Numbers in JSON texts: a minus or none, a whole part, and after it a fraction and a power of ten, or only one
of them, or neither. With neither the number is a whole one; else it is rounded to the nearest double.
-/

namespace QueryPipeline.Json

open Text

/-! ## The grammar -/

/-- A minus, for a negative number. -/
def minus (negative : Bool) : List Char :=
  if negative then ['-'] else []

/-- The whole part of a number: a zero alone, or digits that begin with another. -/
def IsWhole (whole : List Char) : Prop :=
  whole = ['0'] ∨ IsDigits whole ∧ whole.head? ≠ some '0'

/-- The fraction of a number, or nothing, and its digits. -/
inductive Fraction : List Char → List Char → Prop where
  | none : Fraction [] []
  | some {digits : List Char} (hd : IsDigits digits) : Fraction ('.' :: digits) digits

/-- The text writes this number. -/
inductive IsNumber : List Char → Value → Prop where
  | int {negative : Bool} {whole : List Char} (hw : IsWhole whole) (hlength : whole.length ≤ 4300) :
    IsNumber (minus negative ++ whole) (.int (signed negative (denotes whole)))
  | float {negative : Bool} {whole fraction digits power : List Char} {k : Int} {x : Double}
    (hw : IsWhole whole) (hf : Fraction fraction digits) (hk : Power power k)
    (hpresent : fraction ≠ [] ∨ power ≠ [])
    (hx : Double.Rounds negative ((denotes whole + denotes digits / 10 ^ digits.length) * 10 ^ k) x) :
    IsNumber (minus negative ++ (whole ++ (fraction ++ power))) (.float x)

variable {negative : Bool} {cs rest whole fraction digits power : List Char} {k : Int} {v : Value}

theorem IsWhole.isDigits (h : IsWhole whole) : IsDigits whole := by
  rcases h with rfl | h
  · exact ⟨nofun, List.forall_mem_singleton.mpr (by decide)⟩
  · exact h.1

theorem IsNumber.front (h : IsNumber t v) :
    ∃ negative d more, t = minus negative ++ d :: more ∧ '0' ≤ d ∧ d ≤ '9' := by
  cases h with
  | @int negative whole hw _ =>
      obtain ⟨hne, hdigits⟩ := hw.isDigits
      obtain ⟨d, more, rfl⟩ := List.exists_cons_of_ne_nil hne
      exact ⟨negative, d, more, rfl, hdigits d List.mem_cons_self⟩
  | @float negative whole fraction digits power k x hw _ _ _ _ =>
      obtain ⟨hne, hdigits⟩ := hw.isDigits
      obtain ⟨d, more, rfl⟩ := List.exists_cons_of_ne_nil hne
      exact ⟨negative, d, _, rfl, hdigits d List.mem_cons_self⟩

/-! ## Reading the parts -/

theorem wholeDigits_sound (h : wholeDigits cs = some (whole, rest)) : cs = whole ++ rest ∧ IsWhole whole := by
  unfold wholeDigits at h
  split at h
  · cases h
    exact ⟨rfl, .inl rfl⟩
  · rename_i hzero
    split at h
    · cases h
    · rename_i hne
      cases h
      refine ⟨List.takeWhile_append_dropWhile.symm, .inr ⟨⟨hne, Decimal.allDigits_takeWhile cs⟩, ?_⟩⟩
      intro hhead
      obtain ⟨more, hmore⟩ := List.head?_eq_some_iff.mp hhead
      have hcs := List.takeWhile_append_dropWhile (p := isAsciiDigit) (l := cs)
      rw [hmore] at hcs
      exact hzero _ hcs.symm

theorem wholeDigits_append (h : IsWhole whole) (hrest : ∀ c ∈ rest.head?, isAsciiDigit c = false) :
    wholeDigits (whole ++ rest) = some (whole, rest) := by
  rcases h with rfl | ⟨hdigits, hhead⟩
  · rfl
  · obtain ⟨htake, hdrop⟩ := Decimal.takeWhile_digits hdigits.2 hrest
    obtain ⟨c, more, rfl⟩ := List.exists_cons_of_ne_nil hdigits.1
    rw [wholeDigits, htake, hdrop]
    rintro _ ⟨⟩
    exact hhead rfl

theorem fractionDigits_sound (h : (fractionDigits cs).getD ([], cs) = (digits, rest)) : ∃ fraction,
    cs = fraction ++ rest ∧ Fraction fraction digits ∧
      ((fractionDigits cs).isSome = true ↔ fraction ≠ []) := by
  unfold fractionDigits at h ⊢
  split at h
  · rename_i cs
    split at h
    · cases h
      exact ⟨[], rfl, .none, by simp⟩
    · rename_i hne
      cases h
      refine ⟨_, ?_, .some ⟨hne, Decimal.allDigits_takeWhile cs⟩, ?_⟩
      · rw [List.cons_append, List.takeWhile_append_dropWhile]
      · simp
  · cases h
    exact ⟨[], rfl, .none, by simp⟩

theorem exponentDigits_sound (h : (exponentDigits cs).getD (0, cs) = (k, rest)) : ∃ power,
    cs = power ++ rest ∧ Power power k ∧ ((exponentDigits cs).isSome = true ↔ power ≠ []) := by
  unfold exponentDigits at h ⊢
  split at h
  · rename_i e cs
    obtain ⟨sign, hsign, hsigned⟩ := takeSign_sound cs
    rcases htaken : Decimal.takeSign cs with ⟨negative, tail⟩
    rw [htaken] at h hsign hsigned
    dsimp only at h hsign hsigned ⊢
    split at h <;> rename_i he
    · split at h
      · cases h
        exact ⟨[], rfl, .none, by simp [he]⟩
      · rename_i hne
        cases h
        refine ⟨e :: (sign ++ tail.takeWhile isAsciiDigit), ?_, ?_, by simp [he]⟩
        · rw [List.cons_append, List.append_assoc, List.takeWhile_append_dropWhile, ← hsign]
        · have hdigits : IsDigits (tail.takeWhile isAsciiDigit) := ⟨hne, Decimal.allDigits_takeWhile tail⟩
          rw [ofDigits_eq_denotes hdigits.2]
          exact .some he hsigned hdigits
    · cases h
      exact ⟨[], rfl, .none, by simp [he]⟩
  · cases h
    exact ⟨[], rfl, .none, by simp⟩

theorem fractionDigits_append (h : Fraction fraction digits)
    (hrest : ∀ c ∈ rest.head?, isAsciiDigit c = false ∧ c ≠ '.') :
    (fractionDigits (fraction ++ rest)).getD ([], fraction ++ rest) = (digits, rest) ∧
      ((fractionDigits (fraction ++ rest)).isSome = true ↔ fraction ≠ []) := by
  cases h with
  | none =>
      cases rest with
      | nil => simp [fractionDigits]
      | cons c rest => simp [fractionDigits, (hrest c rfl).2]
  | some hd =>
      obtain ⟨htake, hdrop⟩ := Decimal.takeWhile_digits hd.2 fun c hc => (hrest c hc).1
      obtain ⟨c, more, rfl⟩ := List.exists_cons_of_ne_nil hd.1
      simp only [List.cons_append, fractionDigits] at htake hdrop ⊢
      simp [htake, hdrop]

theorem exponentDigits_append (h : Power power k)
    (hrest : ∀ c ∈ rest.head?, isAsciiDigit c = false ∧ c ≠ 'e' ∧ c ≠ 'E') :
    (exponentDigits (power ++ rest)).getD (0, power ++ rest) = (k, rest) ∧
      ((exponentDigits (power ++ rest)).isSome = true ↔ power ≠ []) := by
  cases h with
  | none =>
      cases rest with
      | nil => simp [exponentDigits]
      | cons c rest => simp [exponentDigits, hrest c rfl]
  | @some e sign digits negative he hs hd =>
      obtain ⟨htake, hdrop⟩ := Decimal.takeWhile_digits hd.2 fun c hc => (hrest c hc).1
      have hsigned := takeSign_sign hs (hd.head_ne_sign rest)
      have hdenotes := ofDigits_eq_denotes hd.2
      obtain ⟨c, more, rfl⟩ := List.exists_cons_of_ne_nil hd.1
      rw [List.cons_append, exponentDigits, if_pos he, List.append_assoc, hsigned]
      simp only [htake, hdrop, hdenotes]
      simp [signed]

/-! ## Reading numbers -/

/-- A number ends where the text goes on with something else. -/
def EndsNumber (rest : List Char) : Prop :=
  ∀ c ∈ rest.head?, isAsciiDigit c = false ∧ c ≠ '.' ∧ c ≠ 'e' ∧ c ≠ 'E'

theorem rounds_parts (negative : Bool) (hw : IsWhole whole) (hf : Fraction fraction digits) (k : Int) :
    Double.Rounds negative ((denotes whole + denotes digits / 10 ^ digits.length) * 10 ^ k)
      (Decimal.toDouble ⟨negative, whole, digits, k⟩) := by
  have hdigits : AllDigits digits := by
    cases hf with
    | none => exact nofun
    | some hd => exact hd.2
  have hproper : Decimal.Proper ⟨negative, whole, digits, k⟩ := ⟨hw.isDigits.2, hdigits⟩
  have hrounds := Decimal.rounds_toDouble hproper
  rwa [Decimal.value_eq hproper] at hrounds

theorem number_sound (h : number digitLimit cs = .ok (v, rest)) : ∃ t, cs = t ++ rest ∧ IsNumber t v := by
  unfold number at h
  split at h
  rename_i negative body hbody
  have hcs : cs = minus negative ++ body := by
    split at hbody <;> cases hbody <;> rfl
  split at h
  · cases h
  rename_i whole tail hwhole
  obtain ⟨rfl, hw⟩ := wholeDigits_sound hwhole
  rcases hfraction : (fractionDigits tail).getD ([], tail) with ⟨digits, tail'⟩
  obtain ⟨fraction, rfl, hf, hfsome⟩ := fractionDigits_sound hfraction
  rcases hexponent : (exponentDigits tail').getD (0, tail') with ⟨k, tail''⟩
  obtain ⟨power, rfl, hk, hksome⟩ := exponentDigits_sound hexponent
  simp only [hfraction, hexponent, Bool.or_eq_true, hfsome, hksome] at h
  split at h
  · rename_i hpresent
    cases h
    exact ⟨_, by simp only [hcs, List.append_assoc], .float hw hf hk hpresent (rounds_parts negative hw hf k)⟩
  · rename_i habsent
    obtain ⟨rfl, rfl⟩ : fraction = [] ∧ power = [] := by simpa using habsent
    split at h
    · cases h
    · rename_i hlength
      cases h
      rw [ofDigits_eq_denotes hw.isDigits.2]
      exact ⟨_, by simp only [hcs, List.append_assoc, List.nil_append], .int hw (not_lt.mp hlength)⟩

theorem Power.head_append (hk : Power power k) (hrest : EndsNumber rest) :
    ∀ c ∈ (power ++ rest).head?, isAsciiDigit c = false ∧ c ≠ '.' := by
  cases power with
  | nil => exact fun c hc => ⟨(hrest c hc).1, (hrest c hc).2.1⟩
  | cons e power => exact hk.head_not_digit

theorem Fraction.head_append (hf : Fraction fraction digits)
    (hrest : ∀ c ∈ rest.head?, isAsciiDigit c = false ∧ c ≠ '.') :
    ∀ c ∈ (fraction ++ rest).head?, isAsciiDigit c = false := by
  cases hf with
  | none => exact fun c hc => (hrest c hc).1
  | some hd =>
      rintro _ ⟨⟩
      decide

/-- A number is read by its parts. -/
theorem number_parts (limit : Nat) (negative : Bool) (hw : IsWhole whole)
    (hf : Fraction fraction digits) (hk : Power power k) (hrest : EndsNumber rest) :
    number limit (minus negative ++ (whole ++ (fraction ++ (power ++ rest)))) =
      if fraction ≠ [] ∨ power ≠ [] then
        .ok (.float (Decimal.toDouble ⟨negative, whole, digits, k⟩), rest)
      else if limit < whole.length then .error (.tooManyDigits limit whole.length)
      else .ok (.int (signed negative (denotes whole)), rest) := by
  have hpower := Power.head_append hk hrest
  have hwhole := wholeDigits_append hw (hf.head_append hpower)
  obtain ⟨hfraction, hfsome⟩ := fractionDigits_append hf hpower
  obtain ⟨hexponent, hksome⟩ :=
    exponentDigits_append hk fun c hc => ⟨(hrest c hc).1, (hrest c hc).2.2⟩
  unfold number
  split
  rename_i negative' body hbody
  obtain ⟨rfl, rfl⟩ : negative = negative' ∧ whole ++ (fraction ++ (power ++ rest)) = body := by
    cases negative with
    | true => simpa [minus] using hbody
    | false =>
        obtain ⟨c, more, rfl⟩ := List.exists_cons_of_ne_nil hw.isDigits.1
        have hc := (digit_ne_sign (hw.isDigits.2 c List.mem_cons_self)).1
        simpa [minus, hc] using hbody
  simp only [hwhole, hfraction, hexponent, Bool.or_eq_true, hfsome, hksome,
    ofDigits_eq_denotes hw.isDigits.2, signed]

/-- Numbers are read as the grammar has them, up to where they end. -/
theorem number_append (h : IsNumber cs v) (hrest : EndsNumber rest) :
    number digitLimit (cs ++ rest) = .ok (v, rest) := by
  cases h with
  | @int negative whole hw hlength =>
      have hread := number_parts digitLimit negative hw .none .none hrest
      rw [if_neg (by simp), if_neg (show ¬ digitLimit < _ from not_lt.mpr hlength)] at hread
      rw [List.append_assoc]
      exact hread
  | float hw hf hk hpresent hx =>
      rw [List.append_assoc, List.append_assoc, List.append_assoc, number_parts _ _ hw hf hk hrest,
        if_pos hpresent, hx.unique (rounds_parts _ hw hf _)]

end QueryPipeline.Json
