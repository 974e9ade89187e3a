import Mathlib.Algebra.Order.Field.Power
import Mathlib.Algebra.Order.Field.Rat
import Mathlib.Tactic.FieldSimp
import Mathlib.Tactic.Linarith
import Mathlib.Tactic.NormNum
import Mathlib.Tactic.Positivity
import Mathlib.Tactic.Ring
import QueryPipeline.Number.Double

/-!
Rounding to doubles. What a number is rounded to is said without the way there: no double is nearer, and
of two that are equally near it is the even one, as if exponents had no upper bound; a number whose
exponent turns out too large is rounded to an infinity. There is one such double, and the double of a
fraction is it.
-/

namespace QueryPipeline.Double

/-! ## The nearest double -/

/-- A mantissa and an exponent as doubles have them, but that exponents have no upper bound: the
mantissa fills its bits unless the exponent is the least one. -/
structure Legal (m : Nat) (q : Int) : Prop where
  bounded : m < 2 ^ 53
  least : minExponent ≤ q
  full : minExponent < q → 2 ^ 52 ≤ m

/-- The number that a mantissa and an exponent stand for. -/
def scaled (m : Nat) (q : Int) : ℚ :=
  m * 2 ^ q

/-- No legal mantissa and exponent are nearer to the number, and of two that are equally near it is
the even mantissa. -/
structure Nearest (r : ℚ) (m : Nat) (q : Int) : Prop where
  legal : Legal m q
  le : ∀ {m' q'}, Legal m' q' → |r - scaled m q| ≤ |r - scaled m' q'|
  even : ∀ {m' q'}, Legal m' q' → scaled m' q' ≠ scaled m q →
    |r - scaled m' q'| = |r - scaled m q| → m % 2 = 0

/-- What a number of this sign and absolute value is rounded to. Beyond the largest exponent that is
an infinity. -/
inductive Rounds (negative : Bool) (r : ℚ) : Double → Prop where
  | finite {m : Nat} {q : Int} (h : Nearest r m q) (hq : q ≤ maxExponent) :
    Rounds negative r (.finite negative m q)
  | infinite {m : Nat} {q : Int} (h : Nearest r m q) (hq : maxExponent < q) :
    Rounds negative r (.infinite negative)

variable {r : ℚ} {m m' k n d : Nat} {q q' : Int} {negative : Bool}

theorem two_zpow_pos (q : Int) : (0 : ℚ) < 2 ^ q :=
  zpow_pos (by norm_num) q

theorem scaled_le_scaled (h : m ≤ m') : scaled m q ≤ scaled m' q :=
  mul_le_mul_of_nonneg_right (Nat.cast_le.mpr h) (two_zpow_pos q).le

theorem scaled_lt_scaled (h : m < m') : scaled m q < scaled m' q :=
  mul_lt_mul_of_pos_right (Nat.cast_lt.mpr h) (two_zpow_pos q)

/-- A larger exponent is a larger mantissa. -/
theorem scaled_add (m : Nat) (q : Int) (i : Nat) : scaled m (q + i) = scaled (m * 2 ^ i) q := by
  rw [scaled, scaled, zpow_add₀ (by norm_num), zpow_natCast]
  push_cast
  ring

theorem exists_scaled_eq (m' : Nat) (h : q ≤ q') : ∃ k, scaled m' q' = scaled k q := by
  obtain ⟨i, rfl⟩ := Int.exists_add_of_le h
  exact ⟨_, scaled_add m' q i⟩

/-- A mantissa that fills its bits is above all mantissas of smaller exponents. -/
theorem scaled_lt_of_lt (h : m' < 2 ^ 53) (hq : q' < q) : scaled m' q' < scaled (2 ^ 52) q := by
  obtain ⟨i, rfl⟩ := Int.exists_add_of_le (Int.add_one_le_of_lt hq)
  have hlow : scaled (2 ^ 53) q' ≤ scaled (2 ^ 52) (q' + 1 + i) := by
    rw [add_assoc, ← Nat.cast_one, ← Nat.cast_add, scaled_add, Nat.pow_add]
    apply scaled_le_scaled
    have := Nat.one_le_two_pow (n := i)
    omega
  exact (scaled_lt_scaled h).trans_le hlow

/-! ## Rounding to a whole mantissa -/

/-- A mantissa that is at most half a unit away; if it is half a unit, the mantissa is even. -/
structure Close (r : ℚ) (k : Nat) (q : Int) : Prop where
  le_half : |r - scaled k q| ≤ 2 ^ q / 2
  even_of_half : |r - scaled k q| = 2 ^ q / 2 → k % 2 = 0

theorem scaled_sub (k k' : Nat) (q : Int) :
    |scaled k q - scaled k' q| = |(k : ℚ) - k'| * 2 ^ q := by
  rw [scaled, scaled, ← sub_mul, abs_mul, abs_of_pos (two_zpow_pos q)]

/-- Any other mantissa is at least half a unit away. -/
theorem Close.half_le (h : Close r k q) {k' : Nat} (hne : k' ≠ k) : 2 ^ q / 2 ≤ |r - scaled k' q| := by
  have hone : (1 : ℚ) ≤ |(k : ℚ) - k'| := by
    have hint : (1 : ℤ) ≤ |(k : ℤ) - k'| := Int.one_le_abs (by omega)
    exact_mod_cast hint
  have hunit : 2 ^ q ≤ |scaled k q - scaled k' q| := by
    rw [scaled_sub]
    exact le_mul_of_one_le_left (two_zpow_pos q).le hone
  have htriangle := abs_sub_le (scaled k q) r (scaled k' q)
  rw [abs_sub_comm (scaled k q) r] at htriangle
  linarith [h.le_half]

theorem Close.le (h : Close r k q) (k' : Nat) : |r - scaled k q| ≤ |r - scaled k' q| := by
  by_cases hk : k' = k
  · rw [hk]
  · exact h.le_half.trans (h.half_le hk)

theorem roundDiv_bounds (n : Nat) (hd : 0 < d) :
    2 * n ≤ 2 * (d * roundDiv n d) + d ∧ 2 * (d * roundDiv n d) ≤ 2 * n + d ∧
      (2 * n = 2 * (d * roundDiv n d) + d ∨ 2 * (d * roundDiv n d) = 2 * n + d →
        roundDiv n d % 2 = 0) := by
  have hn := Nat.div_add_mod n d
  have hlt := Nat.mod_lt n hd
  have hsucc : d * (n / d + 1) = d * (n / d) + d := Nat.mul_succ d (n / d)
  unfold roundDiv
  dsimp only
  split_ifs with hdown hup heven
  · omega
  · rw [hsucc]
    omega
  · omega
  · rw [hsucc]
    omega

theorem close_roundDiv (n : Nat) (hd : 0 < d) : Close (n / d * 2 ^ q) (roundDiv n d) q := by
  obtain ⟨hlow, hhigh, heven⟩ := roundDiv_bounds n hd
  have hdpos : (0 : ℚ) < d := Nat.cast_pos.mpr hd
  have hdist : (n / d * 2 ^ q : ℚ) - scaled (roundDiv n d) q =
      (n - d * roundDiv n d) / d * 2 ^ q := by
    rw [scaled]
    field_simp
  have habs : |(n / d * 2 ^ q : ℚ) - scaled (roundDiv n d) q| =
      |(n : ℚ) - d * roundDiv n d| / d * 2 ^ q := by
    rw [hdist, abs_mul, abs_div, abs_of_pos hdpos, abs_of_pos (two_zpow_pos q)]
  have hlow' : (2 * n : ℚ) ≤ 2 * (d * roundDiv n d) + d := by exact_mod_cast hlow
  have hhigh' : (2 * (d * roundDiv n d) : ℚ) ≤ 2 * n + d := by exact_mod_cast hhigh
  constructor
  · have hhalf : |(n : ℚ) - d * roundDiv n d| / d ≤ 1 / 2 := by
      rw [div_le_iff₀ hdpos, abs_le]
      constructor <;> linarith
    rw [habs]
    nlinarith [two_zpow_pos q]
  · intro htie
    apply heven
    have hhalf : |(n : ℚ) - d * roundDiv n d| = d / 2 := by
      have h := htie
      rw [habs] at h
      have := (two_zpow_pos q).ne'
      field_simp at h
      linarith
    rcases abs_cases ((n : ℚ) - d * roundDiv n d) with ⟨h, -⟩ | ⟨h, -⟩
    · left
      have : (2 * n : ℚ) = 2 * (d * roundDiv n d) + d := by linarith
      exact_mod_cast this
    · right
      have : (2 * (d * roundDiv n d) : ℚ) = 2 * n + d := by linarith
      exact_mod_cast this

/-! ## From a whole mantissa to the nearest double -/

/-- An exponent at which the mantissa of a number fits its bits, and fills them if it can. -/
structure Fits (r : ℚ) (q : Int) : Prop where
  least : minExponent ≤ q
  lt : r < scaled (2 ^ 53) q
  le : minExponent < q → scaled (2 ^ 52) q ≤ r

theorem Close.le_bound (h : Close r k q) (hfits : Fits r q) : k ≤ 2 ^ 53 := by
  by_contra hk
  have hlt : scaled (2 ^ 53) q < scaled k q := scaled_lt_scaled (by omega)
  have hle := h.le (2 ^ 53)
  rw [abs_of_neg (by linarith [hfits.lt]), abs_of_neg (by linarith [hfits.lt])] at hle
  linarith

theorem Close.full (h : Close r k q) (hfits : Fits r q) (hq : minExponent < q) : 2 ^ 52 ≤ k := by
  by_contra hk
  have hlt : scaled k q < scaled (2 ^ 52) q := scaled_lt_scaled (by omega)
  have hfull := hfits.le hq
  have hle := h.le (2 ^ 52)
  rw [abs_of_pos (by linarith), abs_of_nonneg (by linarith)] at hle
  linarith

/-- A close mantissa beats every double: those of larger exponents have a mantissa at this one, and
those of smaller exponents are farther away than the least mantissa that fills its bits. -/
theorem Close.nearest (h : Close r k q) (hfits : Fits r q) (hlegal : Legal m' q') :
    |r - scaled k q| ≤ |r - scaled m' q'| ∧
      (scaled m' q' ≠ scaled k q → |r - scaled m' q'| = |r - scaled k q| → k % 2 = 0) := by
  rcases le_or_gt q q' with hq | hq
  · obtain ⟨k', hk'⟩ := exists_scaled_eq m' hq
    rw [hk']
    refine ⟨h.le k', fun hne htie => h.even_of_half (le_antisymm h.le_half ?_)⟩
    rw [← htie]
    exact h.half_le fun heq => hne (by rw [heq])
  · have hfull := hfits.le (hlegal.least.trans_lt hq)
    have hlt := scaled_lt_of_lt hlegal.bounded hq
    have hle := h.le (2 ^ 52)
    rw [abs_of_nonneg (sub_nonneg.mpr hfull)] at hle
    have hfar : |r - scaled k q| < |r - scaled m' q'| := by
      have habs : |r - scaled m' q'| = r - scaled m' q' := abs_of_pos (by linarith)
      linarith
    exact ⟨hfar.le, fun _ htie => absurd htie hfar.ne'⟩

/-- The mantissa that a rounding leaves, when it has grown by a bit. -/
def settle (k : Nat) (q : Int) : Nat × Int :=
  if k = mantissaBound then (2 ^ 52, q + 1) else (k, q)

theorem scaled_settle (k : Nat) (q : Int) : scaled (settle k q).1 (settle k q).2 = scaled k q := by
  unfold settle
  split
  · rename_i hk
    have hone := scaled_add (2 ^ 52) q 1
    rw [hk]
    exact hone
  · rfl

theorem Close.nearest_settle (h : Close r k q) (hfits : Fits r q) :
    Nearest r (settle k q).1 (settle k q).2 := by
  have heven : k % 2 = 0 → (settle k q).1 % 2 = 0 := by
    unfold settle
    split
    · exact fun _ => by norm_num
    · exact id
  refine ⟨?_, fun hlegal => ?_, fun hlegal hne htie => ?_⟩
  · have hle := h.le_bound hfits
    unfold settle
    split
    · exact ⟨by norm_num, by linarith [hfits.least], fun _ => le_refl _⟩
    · rename_i hk
      exact ⟨lt_of_le_of_ne hle hk, hfits.least, h.full hfits⟩
  · rw [scaled_settle]
    exact (h.nearest hfits hlegal).1
  · rw [scaled_settle] at hne htie
    exact heven ((h.nearest hfits hlegal).2 hne htie)

/-! ## The exponent of a fraction -/

theorem inUnits_pos (n : Nat) (hd : 0 < d) (q : Int) : 0 < (inUnits n d q).2 := by
  unfold inUnits
  split
  · exact Nat.mul_pos hd (Nat.pow_pos (by norm_num))
  · exact hd

theorem inUnits_eq (n d : Nat) (q : Int) :
    ((inUnits n d q).1 : ℚ) / (inUnits n d q).2 * 2 ^ q = n / d := by
  have hpow := (two_zpow_pos q).ne'
  unfold inUnits
  split
  · rename_i hq
    have hcast : ((Nat.pow 2 q.toNat : Nat) : ℚ) = 2 ^ q := by
      rw [Nat.pow_eq, Nat.cast_pow, ← zpow_natCast, Int.toNat_of_nonneg hq, Nat.cast_ofNat]
    rw [Nat.cast_mul, hcast]
    field_simp
  · rename_i hq
    have hcast : ((Nat.pow 2 (-q).toNat : Nat) : ℚ) = (2 ^ q)⁻¹ := by
      rw [Nat.pow_eq, Nat.cast_pow, ← zpow_natCast, Int.toNat_of_nonneg (by omega), zpow_neg,
        Nat.cast_ofNat]
    rw [Nat.cast_mul, hcast]
    field_simp

/-- The exponent that is tried first leaves the mantissa 53 or 54 bits. -/
theorem estimate_bounds (hn : 0 < n) (hd : 0 < d) :
    scaled (2 ^ 52) ((n.log2 : Int) - d.log2 - 53) ≤ n / d ∧
      (n / d : ℚ) < scaled (2 ^ 54) ((n.log2 : Int) - d.log2 - 53) := by
  have hnlow : (2 ^ n.log2 : ℚ) ≤ n := by exact_mod_cast Nat.log2_self_le hn.ne'
  have hnhigh : (n : ℚ) < 2 ^ (n.log2 + 1) := by exact_mod_cast Nat.lt_log2_self
  have hdlow : (2 ^ d.log2 : ℚ) ≤ d := by exact_mod_cast Nat.log2_self_le hd.ne'
  have hdhigh : (d : ℚ) < 2 ^ (d.log2 + 1) := by exact_mod_cast Nat.lt_log2_self
  have hunit : (2 : ℚ) ^ ((n.log2 : Int) - d.log2 - 53) = 2 ^ n.log2 / 2 ^ d.log2 / 2 ^ 53 := by
    rw [zpow_sub₀ (by norm_num), zpow_sub₀ (by norm_num), zpow_natCast, zpow_natCast]
    norm_cast
  have hpow : (0 : ℚ) < 2 ^ d.log2 := by positivity
  have hlow : scaled (2 ^ 52) ((n.log2 : Int) - d.log2 - 53) = 2 ^ n.log2 / 2 ^ (d.log2 + 1) := by
    rw [scaled, hunit, pow_succ (2 : ℚ) d.log2]
    field_simp
    norm_num
  have hhigh : scaled (2 ^ 54) ((n.log2 : Int) - d.log2 - 53) = 2 ^ (n.log2 + 1) / 2 ^ d.log2 := by
    rw [scaled, hunit, pow_succ (2 : ℚ) n.log2]
    field_simp
    norm_num
  rw [hlow, hhigh]
  exact ⟨div_le_div₀ (Nat.cast_nonneg n) hnlow (Nat.cast_pos.mpr hd) hdhigh.le,
    div_lt_div₀ hnhigh hdlow (by positivity) hpow⟩

theorem mantissaBound_le_iff (n : Nat) (hd : 0 < d) (q : Int) :
    mantissaBound ≤ (inUnits n d q).1 / (inUnits n d q).2 ↔ scaled (2 ^ 53) q ≤ n / d := by
  have hpos := inUnits_pos n hd q
  have hposq : (0 : ℚ) < (inUnits n d q).2 := Nat.cast_pos.mpr hpos
  rw [Nat.le_div_iff_mul_le hpos, ← inUnits_eq n d q, scaled, mul_le_mul_iff_left₀ (two_zpow_pos q),
    le_div_iff₀ hposq]
  exact_mod_cast Iff.rfl

theorem fits_exponentOf (hn : 0 < n) (hd : 0 < d) : Fits (n / d) (exponentOf n d) := by
  obtain ⟨hlow, hhigh⟩ := estimate_bounds hn hd
  unfold exponentOf
  dsimp only
  generalize (n.log2 : Int) - d.log2 - 53 = estimate at hlow hhigh
  obtain ⟨q, hq, hle, hlt⟩ : ∃ q : Int,
      (if mantissaBound ≤ (inUnits n d estimate).1 / (inUnits n d estimate).2 then estimate + 1
        else estimate) = q ∧ scaled (2 ^ 52) q ≤ n / d ∧ (n / d : ℚ) < scaled (2 ^ 53) q := by
    refine ⟨_, rfl, ?_⟩
    have hup (m : Nat) : scaled m (estimate + 1) = scaled (m * 2) estimate := scaled_add m estimate 1
    split
    · rename_i hbound
      rw [hup, hup]
      exact ⟨(mantissaBound_le_iff n hd estimate).mp hbound, hhigh⟩
    · rename_i hbound
      rw [mantissaBound_le_iff n hd, not_le] at hbound
      exact ⟨hlow, hbound⟩
  rw [hq]
  rcases le_or_gt q minExponent with hmin | hmin
  · rw [max_eq_left hmin]
    obtain ⟨k, hk⟩ := Int.exists_add_of_le hmin
    refine ⟨le_refl _, hlt.trans_le ?_, fun h => absurd h (lt_irrefl _)⟩
    rw [hk, scaled_add]
    exact scaled_le_scaled (Nat.le_mul_of_pos_right _ (by positivity))
  · rw [max_eq_right hmin.le]
    exact ⟨hmin.le, hlt, fun _ => hle⟩

/-! ## Rounding -/

theorem scaled_zero (q : Int) : scaled 0 q = 0 := by
  rw [scaled, Nat.cast_zero, zero_mul]

theorem rounds_zero (negative : Bool) : Rounds negative 0 (.zero negative) := by
  refine .finite ⟨⟨by norm_num, le_refl _, fun h => absurd h (lt_irrefl _)⟩, fun _ => ?_,
    fun _ _ _ => rfl⟩ (by decide)
  rw [scaled_zero, sub_zero, abs_zero]
  exact abs_nonneg _

theorem Nearest.rounds (h : Nearest r m q) (negative : Bool) :
    Rounds negative r (if maxExponent < q then .infinite negative else .finite negative m q) := by
  split <;> rename_i hq
  · exact .infinite h hq
  · exact .finite h (not_lt.mp hq)

/-- The double of a fraction is the nearest one. -/
theorem rounds_ofRatio (negative : Bool) (n : Nat) (hd : 0 < d) :
    Rounds negative (n / d) (ofRatio negative n d) := by
  rcases Nat.eq_zero_or_pos n with rfl | hn
  · rw [Nat.cast_zero, zero_div]
    exact rounds_zero negative
  · have hfits := fits_exponentOf hn hd
    have hclose := close_roundDiv (q := exponentOf n d) (inUnits n d (exponentOf n d)).1
      (inUnits_pos n hd (exponentOf n d))
    rw [inUnits_eq] at hclose
    have hnearest := hclose.nearest_settle hfits
    rw [ofRatio, if_neg hn.ne']
    dsimp only
    unfold settle at hnearest
    split at hnearest <;> rename_i hk
    · rw [if_pos hk]
      exact hnearest.rounds negative
    · rw [if_neg hk]
      exact hnearest.rounds negative

/-! ## Beyond the range of doubles -/

theorem Rounds.exists_nearest {x : Double} (h : Rounds negative r x) : ∃ m q, Nearest r m q := by
  cases h with
  | finite h _ => exact ⟨_, _, h⟩
  | infinite h _ => exact ⟨_, _, h⟩

theorem exists_nearest (hr : 0 < r) : ∃ m q, Nearest r m q := by
  have hnum : ((r.num.toNat : Nat) : ℚ) = r.num := by
    rw [← Int.cast_natCast, Int.toNat_of_nonneg (Rat.num_pos.mpr hr).le]
  have hrounds := rounds_ofRatio false r.num.toNat r.pos
  rw [hnum, Rat.num_div_den] at hrounds
  exact hrounds.exists_nearest

/-- What is not below the first power of two without a double is rounded to an infinity. -/
theorem rounds_huge (negative : Bool) (h : scaled (2 ^ 53) maxExponent ≤ r) :
    Rounds negative r (.infinite negative) := by
  have hpos : 0 < scaled (2 ^ 53) maxExponent := by
    rw [scaled]
    positivity
  obtain ⟨m, q, hnearest⟩ := exists_nearest (hpos.trans_le h)
  refine .infinite hnearest ?_
  by_contra hq
  have hup : scaled (2 ^ 52) (maxExponent + 1) = scaled (2 ^ 53) maxExponent :=
    scaled_add (2 ^ 52) maxExponent 1
  have hlegal : Legal (2 ^ 52) (maxExponent + 1) := ⟨by norm_num, by decide, fun _ => le_refl _⟩
  have hlt : scaled m q < scaled (2 ^ 52) (maxExponent + 1) :=
    scaled_lt_of_lt hnearest.legal.bounded (by omega)
  have hle := hnearest.le hlegal
  rw [abs_of_pos (by linarith), abs_of_nonneg (by linarith)] at hle
  linarith

/-- What is below half of the least double is rounded to zero. -/
theorem rounds_tiny (negative : Bool) (hr : 0 ≤ r) (h : 2 * r < scaled 1 minExponent) :
    Rounds negative r (.zero negative) := by
  refine .finite ⟨⟨by norm_num, le_refl _, fun h => absurd h (lt_irrefl _)⟩, fun {m q} hlegal => ?_,
    fun _ _ _ => rfl⟩ (by decide)
  rw [scaled_zero, sub_zero, abs_of_nonneg hr]
  rcases Nat.eq_zero_or_pos m with rfl | hm
  · rw [scaled_zero, sub_zero]
    exact le_abs_self r
  · obtain ⟨k, hk⟩ := exists_scaled_eq m hlegal.least
    have hone : scaled 1 minExponent ≤ scaled m q := by
      rw [hk]
      refine scaled_le_scaled (Nat.one_le_iff_ne_zero.mpr ?_)
      rintro rfl
      rw [scaled_zero] at hk
      exact hk.not_gt (scaled_zero q ▸ scaled_lt_scaled hm)
    rw [abs_of_neg (by linarith)]
    linarith

/-! ## There is one nearest double -/

theorem Legal.lt_of_lt (h : Legal m q) (h' : Legal m' q') (hq : q < q') : scaled m q < scaled m' q' :=
  (scaled_lt_of_lt h.bounded hq).trans_le (scaled_le_scaled (h'.full (h.least.trans_lt hq)))

theorem Legal.inj (h : Legal m q) (h' : Legal m' q') (heq : scaled m q = scaled m' q') :
    m = m' ∧ q = q' := by
  have hq : q = q' := by
    rcases lt_trichotomy q q' with hlt | hq | hlt
    · exact absurd heq (h.lt_of_lt h' hlt).ne
    · exact hq
    · exact absurd heq (h'.lt_of_lt h hlt).ne'
  subst hq
  rcases lt_trichotomy m m' with hlt | hm | hlt
  · exact absurd heq (scaled_lt_scaled hlt).ne
  · exact ⟨hm, rfl⟩
  · exact absurd heq (scaled_lt_scaled hlt).ne'

theorem Legal.settle_succ (h : Legal m q) : Legal (settle (m + 1) q).1 (settle (m + 1) q).2 := by
  have hm := h.bounded
  unfold settle
  split
  · exact ⟨by norm_num, by linarith [h.least], fun _ => le_refl _⟩
  · rename_i hne
    exact ⟨lt_of_le_of_ne hm hne, h.least, fun hq => (h.full hq).trans (Nat.le_succ m)⟩

/-- Between two different nearest doubles there would be one that is nearer. -/
theorem Nearest.scaled_le (h : Nearest r m q) (h' : Nearest r m' q') : scaled m' q' ≤ scaled m q := by
  by_contra hlt
  rw [not_le] at hlt
  have hdist : |r - scaled m q| = |r - scaled m' q'| := le_antisymm (h.le h'.legal) (h'.le h.legal)
  have heven := h.even h'.legal hlt.ne' hdist.symm
  have heven' := h'.even h.legal hlt.ne hdist
  have hq : q ≤ q' := not_lt.mp fun hq => (h'.legal.lt_of_lt h.legal hq).not_gt hlt
  obtain ⟨i, rfl⟩ := Int.exists_add_of_le hq
  rw [scaled_add] at hlt hdist
  -- Both mantissas are even, so they are no neighbours.
  have hgap : m + 1 < m' * 2 ^ i := by
    have hm : m < m' * 2 ^ i := by
      by_contra hm
      exact hlt.not_ge (scaled_le_scaled (not_lt.mp hm))
    have heven'' : m' * 2 ^ i % 2 = 0 := by
      rw [Nat.mul_mod, heven', zero_mul, Nat.zero_mod]
    omega
  have hnext := h.le h.legal.settle_succ
  rw [scaled_settle] at hnext
  have hlow : scaled m q < scaled (m + 1) q := scaled_lt_scaled (Nat.lt_succ_self m)
  have hhigh : scaled (m + 1) q < scaled (m' * 2 ^ i) q := scaled_lt_scaled hgap
  rcases abs_cases (r - scaled m q) with ⟨h1, _⟩ | ⟨h1, _⟩ <;>
    rcases abs_cases (r - scaled (m' * 2 ^ i) q) with ⟨h2, _⟩ | ⟨h2, _⟩ <;>
      rcases abs_cases (r - scaled (m + 1) q) with ⟨h3, _⟩ | ⟨h3, _⟩ <;> linarith

/-- A double is the nearest one to itself. -/
theorem Legal.nearest (h : Legal m q) : Nearest (scaled m q) m q where
  legal := h
  le _ := by
    rw [sub_self, abs_zero]
    exact abs_nonneg _
  even _ hne heq := by
    rw [sub_self, abs_zero, abs_eq_zero, sub_eq_zero] at heq
    exact absurd heq.symm hne

theorem Nearest.unique (h : Nearest r m q) (h' : Nearest r m' q') : m = m' ∧ q = q' :=
  h.legal.inj h'.legal (le_antisymm (h'.scaled_le h) (h.scaled_le h'))

theorem Rounds.unique {x y : Double} (hx : Rounds negative r x) (hy : Rounds negative r y) : x = y := by
  cases hx with
  | finite h hq =>
      cases hy with
      | finite h' _ =>
          obtain ⟨rfl, rfl⟩ := h.unique h'
          rfl
      | infinite h' hq' => exact absurd (h.unique h').2 (by omega)
  | infinite h hq =>
      cases hy with
      | finite h' hq' => exact absurd (h.unique h').2 (by omega)
      | infinite => rfl

end QueryPipeline.Double
