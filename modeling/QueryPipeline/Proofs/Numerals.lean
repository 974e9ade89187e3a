import QueryPipeline.Proofs.LeadingDigits
import QueryPipeline.Proofs.Rounding
import QueryPipeline.Value.Coerced

/-!
Texts that write numbers. The grammar says which texts these are and what they denote; a text without
the white space around it stands for the number that it writes, whole or rounded to the nearest double.
-/

namespace QueryPipeline

open Text

/-! ## Digits and what they denote -/

/-- The number that ASCII digits denote, by their places. -/
def denotes : List Char → Nat
  | [] => 0
  | c :: rest => (c.toNat - '0'.toNat) * 10 ^ rest.length + denotes rest

/-- ASCII digits and nothing else, if anything at all. -/
def AllDigits (cs : List Char) : Prop :=
  ∀ c ∈ cs, '0' ≤ c ∧ c ≤ '9'

/-- ASCII digits, one at least. -/
def IsDigits (cs : List Char) : Prop :=
  cs ≠ [] ∧ AllDigits cs

variable {c : Char} {cs digits rest : List Char} {negative : Bool}

theorem isAsciiDigit_iff : isAsciiDigit c = true ↔ '0' ≤ c ∧ c ≤ '9' := by
  unfold isAsciiDigit asciiDigit?
  split <;> simp_all

theorem all_isAsciiDigit_iff : cs.all isAsciiDigit = true ↔ AllDigits cs := by
  simp only [List.all_eq_true, isAsciiDigit_iff, AllDigits]

theorem toNat_bounds (h : '0' ≤ c ∧ c ≤ '9') : 48 ≤ c.toNat ∧ c.toNat ≤ 57 := h

theorem denotes_append (cs rest : List Char) :
    denotes (cs ++ rest) = denotes cs * 10 ^ rest.length + denotes rest := by
  induction cs with
  | nil => simp [denotes]
  | cons c cs ih =>
      rw [List.cons_append, denotes, denotes, ih, List.length_append, pow_add]
      ring

theorem denotes_lt (h : AllDigits cs) : denotes cs < 10 ^ cs.length := by
  induction cs with
  | nil => exact Nat.one_pos
  | cons c cs ih =>
      have hc : c.toNat - '0'.toNat ≤ 9 := by
        have := toNat_bounds (h c List.mem_cons_self)
        simp only [Char.reduceToNat]
        omega
      have hrest := ih fun c hc => h c (List.mem_cons_of_mem _ hc)
      have hmul := Nat.mul_le_mul_right (10 ^ cs.length) hc
      rw [denotes, List.length_cons, pow_succ]
      omega

theorem ofDigits_eq_denotes (h : AllDigits cs) : ofDigits asciiDigit? cs = denotes cs := by
  induction cs using List.reverseRecOn with
  | nil => rfl
  | append_singleton cs c ih =>
      have hc := h c (List.mem_append_right _ List.mem_cons_self)
      have hread : asciiDigit? c = some (c.toNat - '0'.toNat) := if_pos hc
      have hstep : ofDigits asciiDigit? (cs ++ [c]) =
          10 * ofDigits asciiDigit? cs + (asciiDigit? c).getD 0 := by
        rw [ofDigits, List.foldl_append]
        rfl
      rw [hstep, hread, ih fun c hc => h c (List.mem_append_left _ hc), denotes_append]
      simp [denotes, Nat.mul_comm]

/-- Zeros at the front count for nothing. -/
theorem denotes_dropWhile (cs : List Char) : denotes (cs.dropWhile (· == '0')) = denotes cs := by
  induction cs with
  | nil => rfl
  | cons c cs ih =>
      rw [List.dropWhile_cons]
      split
      · rename_i hc
        rw [ih, denotes, beq_iff_eq.mp hc]
        simp
      · rfl

/-- A first digit other than zero counts for its place. -/
theorem le_denotes (hc : '0' ≤ c ∧ c ≤ '9') (hne : c ≠ '0') (cs : List Char) :
    10 ^ cs.length ≤ denotes (c :: cs) := by
  have hpos : 1 ≤ c.toNat - '0'.toNat := by
    have := toNat_bounds hc
    have hzero : c.toNat ≠ '0'.toNat := fun h => hne (Char.ext (UInt32.ext h))
    simp only [Char.reduceToNat] at hzero ⊢
    omega
  have hmul := Nat.mul_le_mul_right (10 ^ cs.length) hpos
  rw [denotes]
  omega

/-! ## The grammar -/

/-- A number with the sign in front of it. -/
def signed (negative : Bool) (n : Nat) : Int :=
  if negative then -n else n

/-- The text writes a whole number: a sign or none, and digits, not more than there may be. -/
def WritesWhole (cs : List Char) (n : Int) : Prop :=
  ∃ negative sign digits, cs = sign ++ digits ∧ IsSign negative sign ∧ IsDigits digits ∧
    digits.length ≤ 4300 ∧ n = signed negative (denotes digits)

/-- The digits of a numeral, with at most one point among or around them, and what they denote. -/
inductive Significand : List Char → ℚ → Prop where
  | whole {w : List Char} (hw : IsDigits w) : Significand w (denotes w)
  | pointed {w f : List Char} (hw : IsDigits w) (hf : AllDigits f) :
    Significand (w ++ '.' :: f) (denotes w + denotes f / 10 ^ f.length)
  | fraction {f : List Char} (hf : IsDigits f) : Significand ('.' :: f) (denotes f / 10 ^ f.length)

/-- The power of ten at the end of a numeral. -/
inductive Power : List Char → Int → Prop where
  | none : Power [] 0
  | some {e : Char} {sign digits : List Char} {negative : Bool} (he : e = 'e' ∨ e = 'E')
    (hs : IsSign negative sign) (hd : IsDigits digits) :
    Power (e :: (sign ++ digits)) (signed negative (denotes digits))

/-- The text writes a number with this sign and absolute value. -/
def Writes (cs : List Char) (negative : Bool) (r : ℚ) : Prop :=
  ∃ sign body power a k, cs = sign ++ (body ++ power) ∧ IsSign negative sign ∧ Significand body a ∧
    Power power k ∧ r = a * 10 ^ k

/-! ## Reading -/

theorem digit_ne_sign (h : '0' ≤ c ∧ c ≤ '9') : c ≠ '-' ∧ c ≠ '+' := by
  constructor <;> rintro rfl <;> exact absurd h (by decide)

theorem IsDigits.head_ne_sign (h : IsDigits digits) (rest : List Char) :
    ∀ c ∈ (digits ++ rest).head?, c ≠ '-' ∧ c ≠ '+' := by
  obtain ⟨c, more, rfl⟩ := List.exists_cons_of_ne_nil h.1
  rintro _ ⟨⟩
  exact digit_ne_sign (h.2 c List.mem_cons_self)

/-- Whole numbers are read as the grammar has them. -/
theorem readInteger?_eq_some_iff {n : Int} : readInteger? cs = some n ↔ WritesWhole cs n := by
  constructor
  · intro h
    obtain ⟨sign, hsign, hsigned⟩ := takeSign_sound cs
    unfold readInteger? at h
    rcases htaken : Decimal.takeSign cs with ⟨negative, digits⟩
    rw [htaken] at hsign hsigned h
    dsimp only at hsign hsigned h
    split at h
    · rename_i hdigits
      obtain ⟨hne, hall, hlength⟩ := hdigits
      rw [all_isAsciiDigit_iff] at hall
      cases h
      exact ⟨negative, sign, digits, hsign, hsigned, ⟨hne, hall⟩, hlength, by
        rw [ofDigits_eq_denotes hall, signed]⟩
    · cases h
  · rintro ⟨negative, sign, digits, rfl, hsign, hdigits, hlength, rfl⟩
    have hhead := hdigits.head_ne_sign []
    rw [List.append_nil] at hhead
    rw [readInteger?, takeSign_sign hsign hhead]
    dsimp only
    rw [if_pos ⟨hdigits.1, all_isAsciiDigit_iff.mpr hdigits.2, hlength⟩, ofDigits_eq_denotes hdigits.2,
      signed]

theorem readExponent?_eq_some_iff {k : Int} : Decimal.readExponent? cs = some k ↔ Power cs k := by
  constructor
  · intro h
    cases cs with
    | nil =>
        cases h
        exact .none
    | cons e rest =>
        obtain ⟨sign, hsign, hsigned⟩ := takeSign_sound rest
        rw [Decimal.readExponent?] at h
        rcases htaken : Decimal.takeSign rest with ⟨negative, digits⟩
        rw [htaken] at hsign hsigned h
        dsimp only at hsign hsigned h
        split at h <;> rename_i he
        · split at h <;> rename_i hdigits
          · obtain ⟨hne, hall⟩ := hdigits
            rw [all_isAsciiDigit_iff] at hall
            cases h
            rw [hsign, ofDigits_eq_denotes hall]
            exact .some he hsigned ⟨hne, hall⟩
          · cases h
        · cases h
  · intro h
    cases h with
    | none => rfl
    | some he hs hd =>
        have hhead := hd.head_ne_sign []
        rw [List.append_nil] at hhead
        rw [Decimal.readExponent?, if_pos he, takeSign_sign hs hhead]
        dsimp only
        rw [if_pos ⟨hd.1, all_isAsciiDigit_iff.mpr hd.2⟩, ofDigits_eq_denotes hd.2, signed]

theorem Power.head_not_digit {power : List Char} {k : Int} (h : Power power k) :
    ∀ c ∈ power.head?, isAsciiDigit c = false ∧ c ≠ '.' := by
  cases h with
  | none => exact nofun
  | some he _ _ =>
      rintro _ ⟨⟩
      rcases he with rfl | rfl <;> exact ⟨by decide, by decide⟩

namespace Decimal

variable {x : Decimal} {r : ℚ}

/-- The absolute value of a numeral. -/
def value (x : Decimal) : ℚ :=
  x.significand * 10 ^ x.scale

/-- The numeral has digits where it should. -/
def Proper (x : Decimal) : Prop :=
  AllDigits x.whole ∧ AllDigits x.fraction

theorem Proper.significand_eq (h : x.Proper) : x.significand = denotes (x.whole ++ x.fraction) :=
  ofDigits_eq_denotes (List.forall_mem_append.mpr h)

theorem value_eq (h : x.Proper) :
    x.value = (denotes x.whole + denotes x.fraction / 10 ^ x.fraction.length) * 10 ^ x.exponent := by
  have hten : (10 : ℚ) ^ x.fraction.length ≠ 0 := by positivity
  rw [value, h.significand_eq, denotes_append, scale, zpow_sub₀ (by norm_num),
    zpow_natCast]
  push_cast
  field_simp

theorem significand_pointed {w f : List Char} (hw : AllDigits w) (hf : AllDigits f)
    (hne : ¬ (w = [] ∧ f = [])) :
    Significand (w ++ '.' :: f) (denotes w + denotes f / 10 ^ f.length) := by
  cases w with
  | nil =>
      have hfraction : IsDigits f := ⟨fun hnil => hne ⟨rfl, hnil⟩, hf⟩
      simpa [denotes] using Significand.fraction hfraction
  | cons c w => exact .pointed ⟨nofun, hw⟩ hf

/-- A numeral of a sign, digits and a power of ten is written by them. -/
theorem writes_value {sign body power : List Char} (hproper : x.Proper)
    (hsign : IsSign x.negative sign)
    (hbody : Significand body (denotes x.whole + denotes x.fraction / 10 ^ x.fraction.length))
    (hpower : readExponent? power = some x.exponent) :
    Writes (sign ++ (body ++ power)) x.negative x.value :=
  ⟨sign, body, power, _, _, rfl, hsign, hbody, readExponent?_eq_some_iff.mp hpower, value_eq hproper⟩

theorem allDigits_takeWhile (cs : List Char) : AllDigits (cs.takeWhile isAsciiDigit) :=
  fun _ hc => isAsciiDigit_iff.mp (List.mem_takeWhile_imp hc)

/-- What is read is written in the text. -/
theorem writes_of_read? (h : read? cs = some x) : x.Proper ∧ Writes cs x.negative x.value := by
  obtain ⟨sign, hsign, hsigned⟩ := takeSign_sound cs
  rcases htaken : takeSign cs with ⟨negative, body⟩
  rw [read?, htaken] at h
  rw [htaken] at hsign hsigned
  dsimp only at h hsign hsigned
  have hbody := List.takeWhile_append_dropWhile (p := isAsciiDigit) (l := body)
  split at h
  · rename_i tail hpoint
    have htail := List.takeWhile_append_dropWhile (p := isAsciiDigit) (l := tail)
    dsimp only at h
    split at h
    · cases h
    · rename_i hne
      obtain ⟨k, hpower, rfl⟩ := Option.map_eq_some_iff.mp h
      have hproper : Proper ⟨negative, body.takeWhile isAsciiDigit, tail.takeWhile isAsciiDigit, k⟩ :=
        ⟨allDigits_takeWhile body, allDigits_takeWhile tail⟩
      refine ⟨hproper, ?_⟩
      have hsignificand := significand_pointed (allDigits_takeWhile body) (allDigits_takeWhile tail)
        (by simpa using hne)
      have hwrites := writes_value hproper hsigned hsignificand hpower
      rw [hpoint] at hbody
      rwa [List.append_assoc, List.cons_append, htail, hbody, ← hsign] at hwrites
  · dsimp only at h
    split at h
    · cases h
    · rename_i hne
      obtain ⟨k, hpower, rfl⟩ := Option.map_eq_some_iff.mp h
      have hproper : Proper ⟨negative, body.takeWhile isAsciiDigit, [], k⟩ :=
        ⟨allDigits_takeWhile body, fun _ hc => absurd hc List.not_mem_nil⟩
      refine ⟨hproper, ?_⟩
      have hsignificand := Significand.whole ⟨by simpa using hne, allDigits_takeWhile body⟩
      have hwrites := writes_value hproper hsigned (by simpa [denotes] using hsignificand) hpower
      rwa [hbody, ← hsign] at hwrites

/-! ## Everything that is written is read -/

/-- Digits end where something else begins. -/
theorem takeWhile_digits (hdigits : AllDigits digits)
    (hrest : ∀ c ∈ rest.head?, isAsciiDigit c = false) :
    (digits ++ rest).takeWhile isAsciiDigit = digits ∧
      (digits ++ rest).dropWhile isAsciiDigit = rest :=
  takeWhile_append_stop (fun c hc => isAsciiDigit_iff.mpr (hdigits c hc)) hrest

theorem read?_whole {sign power : List Char} {k : Int} (hsign : IsSign negative sign)
    (hdigits : IsDigits digits) (hpower : Power power k) :
    read? (sign ++ (digits ++ power)) = some ⟨negative, digits, [], k⟩ := by
  obtain ⟨htake, hdrop⟩ := takeWhile_digits hdigits.2 fun c hc => (hpower.head_not_digit c hc).1
  rw [read?, takeSign_sign hsign (hdigits.head_ne_sign power)]
  dsimp only
  rw [htake, hdrop]
  split
  · rename_i tail
    exact absurd rfl (hpower.head_not_digit '.' rfl).2
  · dsimp only
    rw [if_neg (by simpa using hdigits.1), readExponent?_eq_some_iff.mpr hpower]
    rfl

theorem read?_pointed {sign w f power : List Char} {k : Int} (hsign : IsSign negative sign)
    (hw : AllDigits w) (hf : AllDigits f) (hne : ¬ (w = [] ∧ f = [])) (hpower : Power power k) :
    read? (sign ++ (w ++ '.' :: (f ++ power))) = some ⟨negative, w, f, k⟩ := by
  have hhead : ∀ c ∈ (w ++ '.' :: (f ++ power)).head?, c ≠ '-' ∧ c ≠ '+' := by
    cases w with
    | nil =>
        rintro _ ⟨⟩
        decide
    | cons c w =>
        rintro _ ⟨⟩
        exact digit_ne_sign (hw c List.mem_cons_self)
  have hpoint : ∀ c ∈ ('.' :: (f ++ power)).head?, isAsciiDigit c = false := by
    rintro _ ⟨⟩
    decide
  obtain ⟨htake, hdrop⟩ := takeWhile_digits hw hpoint
  obtain ⟨htake', hdrop'⟩ := takeWhile_digits hf fun c hc => (hpower.head_not_digit c hc).1
  rw [read?, takeSign_sign hsign hhead]
  dsimp only
  rw [htake, hdrop]
  simp only [htake', hdrop']
  rw [if_neg (by simpa using hne), readExponent?_eq_some_iff.mpr hpower]
  rfl

/-- Numerals are read as the grammar has them. -/
theorem writes_iff : Writes cs negative r ↔
    ∃ x, read? cs = some x ∧ x.Proper ∧ x.negative = negative ∧ x.value = r := by
  constructor
  · rintro ⟨sign, body, power, a, k, rfl, hsign, hbody, hpower, rfl⟩
    cases hbody with
    | whole hw =>
        have hproper : Proper ⟨negative, body, [], k⟩ :=
          ⟨hw.2, fun _ hc => absurd hc List.not_mem_nil⟩
        refine ⟨_, read?_whole hsign hw hpower, hproper, rfl, ?_⟩
        rw [value_eq hproper]
        simp [denotes]
    | @pointed w f hw hf =>
        have hproper : Proper ⟨negative, w, f, k⟩ := ⟨hw.2, hf⟩
        rw [List.append_assoc, List.cons_append]
        exact ⟨_, read?_pointed hsign hw.2 hf (fun h => hw.1 h.1) hpower, hproper, rfl,
          value_eq hproper⟩
    | @fraction f hf =>
        have hproper : Proper ⟨negative, [], f, k⟩ :=
          ⟨fun _ hc => absurd hc List.not_mem_nil, hf.2⟩
        refine ⟨_, read?_pointed hsign hproper.1 hf.2 (fun h => hf.1 h.2) hpower, hproper, rfl, ?_⟩
        rw [value_eq hproper]
        simp [denotes]
  · rintro ⟨x, hread, -, rfl, rfl⟩
    exact (writes_of_read? hread).2

/-! ## The nearest double of a numeral -/

theorem magnitude_bounds (h : x.Proper) (hne : x.significand ≠ 0) :
    (10 : ℚ) ^ x.magnitude ≤ x.value ∧ x.value < 10 ^ (x.magnitude + 1) := by
  have hall : AllDigits ((x.whole ++ x.fraction).dropWhile (· == '0')) := fun c hc =>
    List.forall_mem_append.mpr h c ((List.dropWhile_sublist _).subset hc)
  have hdenotes := denotes_dropWhile (x.whole ++ x.fraction)
  rw [← h.significand_eq] at hdenotes
  rcases hdigits : (x.whole ++ x.fraction).dropWhile (· == '0') with _ | ⟨c, more⟩
  · rw [hdigits] at hdenotes
    exact absurd hdenotes.symm hne
  · have hc : c ≠ '0' := by
      have hhead := List.head?_dropWhile_not (· == '0') (x.whole ++ x.fraction)
      rw [hdigits] at hhead
      simpa using hhead
    rw [hdigits] at hall hdenotes
    have hmagnitude : x.magnitude = more.length + x.scale := by
      rw [magnitude, hdigits, List.length_cons]
      push_cast
      ring
    have hlow : (10 ^ more.length : ℚ) ≤ x.significand := by
      rw [← hdenotes]
      exact_mod_cast le_denotes (hall c List.mem_cons_self) hc more
    have hhigh : (x.significand : ℚ) < 10 ^ (more.length + 1) := by
      rw [← hdenotes]
      exact_mod_cast denotes_lt hall
    have hscale : (0 : ℚ) < 10 ^ x.scale := zpow_pos (by norm_num) x.scale
    have hten : (10 : ℚ) ≠ 0 := by norm_num
    rw [hmagnitude, value, add_right_comm, zpow_add₀ hten, zpow_add₀ hten, ← Nat.cast_succ,
      zpow_natCast, zpow_natCast]
    exact ⟨mul_le_mul_of_nonneg_right hlow hscale.le, mul_lt_mul_of_pos_right hhigh hscale⟩

theorem value_of_scale_nonneg (h : 0 ≤ x.scale) :
    x.value = ((x.significand * Nat.pow 10 x.scale.toNat : Nat) : ℚ) / (1 : Nat) := by
  have hcast : ((Nat.pow 10 x.scale.toNat : Nat) : ℚ) = 10 ^ x.scale := by
    rw [Nat.pow_eq, Nat.cast_pow, ← zpow_natCast, Int.toNat_of_nonneg h, Nat.cast_ofNat]
  rw [Nat.cast_mul, hcast, Nat.cast_one, div_one, value]

theorem value_of_scale_neg (h : ¬ 0 ≤ x.scale) :
    x.value = (x.significand : ℚ) / (Nat.pow 10 (-x.scale).toNat : Nat) := by
  have hcast : ((Nat.pow 10 (-x.scale).toNat : Nat) : ℚ) = (10 ^ x.scale)⁻¹ := by
    rw [Nat.pow_eq, Nat.cast_pow, ← zpow_natCast, Int.toNat_of_nonneg (by omega), zpow_neg,
      Nat.cast_ofNat]
  rw [hcast, div_inv_eq_mul, value]

theorem scaled_le_ten : Double.scaled (2 ^ 53) Double.maxExponent ≤ 10 ^ (310 : ℤ) := by
  have hnat : 2 ^ 53 * 2 ^ 971 ≤ 10 ^ 310 := by decide +kernel
  rw [Double.scaled, Double.maxExponent]
  exact_mod_cast hnat

theorem ten_lt_scaled : 2 * 10 ^ (-325 : ℤ) < Double.scaled 1 Double.minExponent := by
  have hnat : 2 * 2 ^ 1074 < 10 ^ 325 := by decide +kernel
  have hrat : (2 * 2 ^ 1074 : ℚ) < 10 ^ 325 := by exact_mod_cast hnat
  have hinv (b : ℚ) (k : Nat) : b ^ (-(k : ℤ)) = (b ^ k)⁻¹ := by rw [zpow_neg, zpow_natCast]
  have hten : (10 : ℚ) ^ (-325 : ℤ) = (10 ^ 325)⁻¹ := hinv 10 325
  have htwo : (2 : ℚ) ^ (-1074 : ℤ) = (2 ^ 1074)⁻¹ := hinv 2 1074
  rw [Double.scaled, Double.minExponent, hten, htwo, Nat.cast_one, one_mul, ← div_eq_mul_inv,
    div_lt_iff₀ (by positivity), inv_mul_eq_div, lt_div_iff₀ (by positivity)]
  exact hrat

/-- A numeral is rounded to the nearest double; the shortcuts for what is far out of range give the
same. -/
theorem rounds_toDouble (h : x.Proper) : Double.Rounds x.negative x.value x.toDouble := by
  unfold toDouble
  split
  · rename_i hzero
    rw [value, hzero, Nat.cast_zero, zero_mul]
    exact Double.rounds_zero x.negative
  · rename_i hne
    obtain ⟨hlow, hhigh⟩ := magnitude_bounds h hne
    have hone : (1 : ℚ) ≤ 10 := by norm_num
    split
    · rename_i hmagnitude
      apply Double.rounds_huge
      exact scaled_le_ten.trans ((zpow_le_zpow_right₀ hone hmagnitude).trans hlow)
    · split
      · rename_i hmagnitude
        have htiny := ten_lt_scaled
        have hvalue : x.value < 10 ^ (-325 : ℤ) :=
          hhigh.trans_le (zpow_le_zpow_right₀ hone (by omega))
        refine Double.rounds_tiny x.negative ?_ (by linarith)
        exact (zpow_nonneg (by norm_num) x.magnitude).trans hlow
      · split
        · rename_i hscale
          rw [value_of_scale_nonneg hscale]
          exact Double.rounds_ofRatio x.negative _ Nat.one_pos
        · rename_i hscale
          rw [value_of_scale_neg hscale]
          exact Double.rounds_ofRatio x.negative _ (Nat.pow_pos (by norm_num))

end Decimal

/-! ## White space around a text -/

/-- The second text is the first one without the white space at its ends. -/
structure Stripped (cs t : List Char) : Prop where
  around : ∃ before after, cs = before ++ (t ++ after) ∧ (∀ c ∈ before, isBlank c = true) ∧
    ∀ c ∈ after, isBlank c = true
  first : ∀ c ∈ t.head?, isBlank c = false
  last : ∀ c ∈ t.getLast?, isBlank c = false

theorem not_blank_of_dropWhile {l : List Char} (h : c ∈ (l.dropWhile isBlank).head?) :
    isBlank c = false := by
  have hhead := List.head?_dropWhile_not isBlank l
  rw [Option.mem_def.mp h] at hhead
  simpa using hhead

theorem stripped_trim (cs : List Char) : Stripped cs (trim cs) := by
  have hfront := List.takeWhile_append_dropWhile (p := isBlank) (l := cs)
  have hback : trim cs ++ ((cs.dropWhile isBlank).reverse.takeWhile isBlank).reverse =
      cs.dropWhile isBlank := by
    rw [trim, ← List.reverse_append, List.takeWhile_append_dropWhile, List.reverse_reverse]
  refine ⟨⟨cs.takeWhile isBlank, _, by rw [hback, hfront], fun c hc => List.mem_takeWhile_imp hc,
    fun c hc => List.mem_takeWhile_imp (List.mem_reverse.mp hc)⟩, fun c hc => ?_, fun c hc => ?_⟩
  · rw [Option.mem_def] at hc
    refine not_blank_of_dropWhile (l := cs) ?_
    rw [← hback, List.head?_append, hc]
    rfl
  · rw [trim, List.getLast?_reverse] at hc
    exact not_blank_of_dropWhile hc

namespace Value

variable {s : String} {v : Value} {n : Int} {x : Double}

/-! ## The number that a text stands for -/

/-- The text writes a number whose nearest double is this one, and it is finite. -/
def WritesDouble (cs : List Char) (x : Double) : Prop :=
  ∃ negative r, Writes cs negative r ∧ Double.Rounds negative r x ∧ x.isFinite = true

theorem number?_eq_int_iff : number? cs = some (.int n) ↔ WritesWhole cs n := by
  rw [← readInteger?_eq_some_iff, number?]
  cases readInteger? cs with
  | some m => simp
  | none =>
      simp only [reduceCtorEq, iff_false]
      cases Decimal.read? cs with
      | none => exact nofun
      | some x =>
          dsimp only [Option.bind_some]
          split <;> exact nofun

theorem writesDouble_iff : WritesDouble cs x ↔
    ∃ d, Decimal.read? cs = some d ∧ d.toDouble = x ∧ x.isFinite = true := by
  constructor
  · rintro ⟨negative, r, hwrites, hrounds, hfinite⟩
    obtain ⟨d, hread, hproper, rfl, rfl⟩ := Decimal.writes_iff.mp hwrites
    exact ⟨d, hread, (Decimal.rounds_toDouble hproper).unique hrounds, hfinite⟩
  · rintro ⟨d, hread, rfl, hfinite⟩
    obtain ⟨hproper, hwrites⟩ := Decimal.writes_of_read? hread
    exact ⟨_, _, hwrites, Decimal.rounds_toDouble hproper, hfinite⟩

theorem number?_eq_float_iff :
    number? cs = some (.float x) ↔ (∀ n, ¬ WritesWhole cs n) ∧ WritesDouble cs x := by
  simp only [writesDouble_iff, ← readInteger?_eq_some_iff, number?]
  cases readInteger? cs with
  | some m => simp
  | none =>
      cases Decimal.read? cs with
      | none => simp
      | some d =>
          simp only [reduceCtorEq, not_false_eq_true, implies_true, true_and, Option.bind_some,
            Option.some.injEq, exists_eq_left']
          split <;> rename_i hfinite
          · simp only [Option.some.injEq, float.injEq]
            exact ⟨fun h => ⟨h, h ▸ hfinite⟩, fun h => h.1⟩
          · simp only [reduceCtorEq, false_iff, not_and]
            rintro rfl
            exact hfinite

/-- A text other than the two words stands for the number that it writes. -/
theorem ofText_eq_iff_number? (hv : ∀ b, v ≠ .bool b) (hs : v ≠ .text s) :
    ofText s = v ↔ number? (trim s.toList) = some v := by
  unfold ofText
  split
  · rename_i htrue
    subst htrue
    exact ⟨fun h => absurd h.symm (hv true), fun h => by cases h⟩
  · split
    · rename_i hfalse
      subst hfalse
      exact ⟨fun h => absurd h.symm (hv false), fun h => by cases h⟩
    · cases number? (trim s.toList) with
      | none => simpa using hs.symm
      | some w => simp

theorem number?_cases (cs : List Char) :
    number? cs = none ∨ (∃ n, number? cs = some (.int n)) ∨ ∃ x, number? cs = some (.float x) := by
  unfold number?
  cases readInteger? cs with
  | some n => exact .inr (.inl ⟨n, rfl⟩)
  | none =>
      cases Decimal.read? cs with
      | none => exact .inl rfl
      | some d =>
          dsimp only [Option.bind_some]
          split
          · exact .inr (.inr ⟨_, rfl⟩)
          · exact .inl rfl

theorem ofText_eq_bool_iff {b : Bool} : ofText s = .bool b ↔ s = if b then "true" else "false" := by
  unfold ofText
  split
  · rename_i htrue
    subst htrue
    cases b <;> simp
  · split
    · rename_i hfalse
      subst hfalse
      cases b <;> simp
    · rename_i htrue hfalse
      have hnumber : (number? (trim s.toList)).getD (.text s) ≠ .bool b := by
        rcases number?_cases (trim s.toList) with h | ⟨n, h⟩ | ⟨x, h⟩ <;> rw [h] <;> exact nofun
      cases b <;> simp [hnumber, htrue, hfalse]

/-- What a text `s` becomes, `t` being what is left of it without the white space around it: a truth
value if it is one of the two words; a number if the grammar has `t`, not too long as a whole number and
not too large as a double; and else itself, the white space included. -/
structure CoercesTo (s : String) (t : List Char) (v : Value) : Prop where
  stripped : Stripped s.toList t
  isTrue : v = .bool true ↔ s = "true"
  isFalse : v = .bool false ↔ s = "false"
  whole : ∀ n, v = .int n ↔ WritesWhole t n
  double : ∀ x, v = .float x ↔ (∀ n, ¬ WritesWhole t n) ∧ WritesDouble t x
  itself : v = .text s ↔
    s ≠ "true" ∧ s ≠ "false" ∧ (∀ n, ¬ WritesWhole t n) ∧ ∀ x, ¬ WritesDouble t x

/-- A value is made of a text as its words or the grammar of numbers have it. -/
theorem coerced_text (s : String) : CoercesTo s (trim s.toList) (text s).coerced := by
  have hbool (b : Bool) : (text s).coerced = .bool b ↔ s = if b then "true" else "false" :=
    ofText_eq_bool_iff
  have hint (n : Int) : (text s).coerced = .int n ↔ WritesWhole (trim s.toList) n := by
    rw [← number?_eq_int_iff]
    exact ofText_eq_iff_number? nofun nofun
  have hfloat (x : Double) : (text s).coerced = .float x ↔
      (∀ n, ¬ WritesWhole (trim s.toList) n) ∧ WritesDouble (trim s.toList) x := by
    rw [← number?_eq_float_iff]
    exact ofText_eq_iff_number? nofun nofun
  refine ⟨stripped_trim s.toList, hbool true, hbool false, hint, hfloat, fun hv => ?_, ?_⟩
  · have hother {w : Value} (hw : (text s).coerced = w) (hne : text s ≠ w) : False :=
      hne (hv.symm.trans hw)
    have hwhole (n : Int) : ¬ WritesWhole (trim s.toList) n := fun h => hother ((hint n).mpr h) nofun
    refine ⟨fun h => ?_, fun h => ?_, hwhole, fun x h => ?_⟩
    · exact hother ((hbool true).mpr h) nofun
    · exact hother ((hbool false).mpr h) nofun
    · exact hother ((hfloat x).mpr ⟨hwhole, h⟩) nofun
  · rintro ⟨htrue, hfalse, hwhole, hdouble⟩
    have hnone : number? (trim s.toList) = none := by
      rcases number?_cases (trim s.toList) with h | ⟨n, h⟩ | ⟨x, h⟩
      · exact h
      · exact absurd (number?_eq_int_iff.mp h) (hwhole n)
      · exact absurd (number?_eq_float_iff.mp h).2 (hdouble x)
    change ofText s = .text s
    rw [ofText, if_neg htrue, if_neg hfalse, hnone]
    rfl

/-- A number that is too large for a double is left as it is, with its white space. -/
example : (text " 1e309").coerced = .text " 1e309" := by decide +kernel

end Value

end QueryPipeline
