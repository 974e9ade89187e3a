import Mathlib.Data.Nat.Digits.Lemmas
import QueryPipeline.Proofs.JsonValues

/-!
The values that have a JSON text: those without points in time, whose whole numbers have no more digits than
there may be and whose objects have every key once, however deep they nest.
-/

namespace QueryPipeline

/-- A finite double has a mantissa and an exponent as doubles have them. -/
def Double.IsProper : Double → Prop
  | .finite _ m q => Legal m q ∧ q ≤ maxExponent
  | _ => True

/-- The values of JSON. -/
inductive Value.InJson : Value → Prop where
  | null : InJson .null
  | bool (b : Bool) : InJson (.bool b)
  | int {n : Int} (h : (Nat.digits 10 n.natAbs).length ≤ 4300) : InJson (.int n)
  | float {x : Double} (h : x.IsProper) : InJson (.float x)
  | text (s : String) : InJson (.text s)
  | list {vs : List Value} (h : ∀ v ∈ vs, InJson v) : InJson (.list vs)
  | object {q : Document} (hn : (Entries.keys q).Nodup) (h : ∀ entry ∈ q, InJson entry.2) :
    InJson (.object q)

namespace Json

variable {v : Value} {x : Double} {n : Nat} {t whole : List Char}

/-! ## What texts denote -/

theorem IsWhole.length_digits_le (h : IsWhole whole) : (Nat.digits 10 (denotes whole)).length ≤ whole.length :=
  (Nat.digits_length_le_iff (by decide) _).mpr (denotes_lt h.isDigits.2)

theorem IsWhole.length_le (h : IsWhole whole) : whole.length ≤ max 1 (Nat.digits 10 (denotes whole)).length := by
  rcases h with rfl | ⟨hdigits, hhead⟩
  · exact le_max_left _ _
  · obtain ⟨c, more, rfl⟩ := List.exists_cons_of_ne_nil hdigits.1
    have hne : c ≠ '0' := fun heq => hhead (congrArg some heq)
    have hle := le_denotes (hdigits.2 c List.mem_cons_self) hne more
    exact le_max_of_le_right ((Nat.lt_digits_length_iff (by decide) _).mpr hle)

theorem signed_natAbs (n : Int) : signed (decide (n < 0)) n.natAbs = n := by
  unfold signed
  split <;> rename_i h <;> rw [decide_eq_true_eq] at h <;> omega

theorem natAbs_signed (negative : Bool) (n : Nat) : (signed negative n).natAbs = n := by
  cases negative <;> simp [signed]

theorem isProper_of_rounds {negative : Bool} {r : ℚ} (h : Double.Rounds negative r x) : x.IsProper := by
  cases h with
  | finite h hq => exact ⟨h.legal, hq⟩
  | infinite => trivial

theorem IsNumber.inJson (h : IsNumber t v) : v.InJson := by
  cases h with
  | @int negative whole hw hlength =>
      refine .int ?_
      rw [natAbs_signed]
      exact hw.length_digits_le.trans hlength
  | float _ _ _ _ hx => exact .float (isProper_of_rounds hx)

theorem Collects.mem {ms : List (String × Value)} {entries : Document} (h : Collects ms entries)
    {entry : String × Value} (hentry : entry ∈ entries) : entry ∈ ms := by
  rw [← collects_iff.mp h] at hentry
  exact (Entries.mem_merge hentry).resolve_left List.not_mem_nil

mutual
theorem IsValue.inJson : ∀ {t : List Char} {v : Value}, IsValue t v → v.InJson
  | _, _, .word hword => by
      cases hword with
      | null => exact .null
      | yes | no => exact .bool _
      | nan | infinity | minusInfinity => exact .float trivial
  | _, _, .number hnumber => hnumber.inJson
  | _, _, .text _ => .text _
  | _, _, .emptyList _ => .list (List.forall_mem_nil _)
  | _, _, .list _ hvs => .list (IsItems.inJson hvs)
  | _, _, .emptyObject _ => .object List.nodup_nil (List.forall_mem_nil _)
  | _, _, .object _ hms hentries =>
      .object (collects_iff.mp hentries ▸ Entries.nodup_ofList _) fun _ hentry =>
        IsMembers.inJson hms _ (hentries.mem hentry)

theorem IsItems.inJson : ∀ {t : List Char} {vs : List Value}, IsItems t vs → ∀ v ∈ vs, v.InJson
  | _, _, .one hv _ => List.forall_mem_singleton.mpr (IsValue.inJson hv)
  | _, _, .cons hv _ _ hvs => List.forall_mem_cons.mpr ⟨IsValue.inJson hv, IsItems.inJson hvs⟩

theorem IsMember.inJson : ∀ {t : List Char} {m : String × Value}, IsMember t m → m.2.InJson
  | _, _, .mk _ _ _ hv => IsValue.inJson hv

theorem IsMembers.inJson : ∀ {t : List Char} {ms : List (String × Value)}, IsMembers t ms →
    ∀ m ∈ ms, m.2.InJson
  | _, _, .one hm _ => List.forall_mem_singleton.mpr (IsMember.inJson hm)
  | _, _, .cons hm _ _ hms => List.forall_mem_cons.mpr ⟨IsMember.inJson hm, IsMembers.inJson hms⟩
end

/-! ## Every value of JSON has a text -/

theorem exists_hexDigit (h : n < 16) : ∃ c, (c, n) ∈ hexDigits := by
  have htable : ∀ n < 16, ∃ digit ∈ hexDigits, digit.2 = n := by decide
  obtain ⟨⟨c, _⟩, hc, rfl⟩ := htable n h
  exact ⟨c, hc⟩

theorem exists_piece (c : Char) : ∃ piece, Piece piece c.toNat := by
  by_cases hquote : c = '"'
  · exact ⟨_, .escape (e := '"') (by rw [hquote]; decide)⟩
  by_cases hslash : c = '\\'
  · exact ⟨_, .escape (e := '\\') (by rw [hslash]; decide)⟩
  by_cases hcontrol : 0x1F < c.toNat
  · exact ⟨_, .plain hquote hslash hcontrol⟩
  · obtain ⟨z, hz⟩ := exists_hexDigit (n := 0) (by decide)
    obtain ⟨a, ha⟩ := exists_hexDigit (n := c.toNat / 16) (by omega)
    obtain ⟨b, hb⟩ := exists_hexDigit (n := c.toNat % 16) (by omega)
    exact ⟨_, .unit ⟨_, _, _, _, hz, hz, ha, hb, by omega⟩⟩

theorem exists_pieces (cs : List Char) : ∃ body, Pieces body (cs.map Char.toNat) := by
  induction cs with
  | nil => exact ⟨[], .nil⟩
  | cons c cs ih =>
      obtain ⟨piece, hpiece⟩ := exists_piece c
      obtain ⟨body, hbody⟩ := ih
      exact ⟨_, .cons hpiece hbody⟩

theorem decodes_toNat (cs : List Char) : Decodes (cs.map Char.toNat) cs := by
  induction cs with
  | nil => exact .nil
  | cons c cs ih => exact .point ih

theorem exists_text (s : String) : ∃ body, IsText body s := by
  obtain ⟨body, hbody⟩ := exists_pieces s.toList
  exact ⟨body, _, hbody, decodes_toNat s.toList⟩

theorem exists_digit (h : n < 10) : ∃ c, ('0' ≤ c ∧ c ≤ '9') ∧ denotes [c] = n := by
  have htable : ∀ n < 10, ('0' ≤ Char.ofNat (48 + n) ∧ Char.ofNat (48 + n) ≤ '9') ∧
      denotes [Char.ofNat (48 + n)] = n := by decide
  exact ⟨_, htable n h⟩

theorem exists_whole (n : Nat) : ∃ whole, IsWhole whole ∧ denotes whole = n := by
  induction n using Nat.strongRecOn with
  | ind n ih =>
      by_cases hn : n = 0
      · exact ⟨['0'], .inl rfl, by rw [hn]; decide⟩
      obtain ⟨c, hc, hdenotes⟩ := exists_digit (Nat.mod_lt n (by decide : 0 < 10))
      obtain ⟨whole, hwhole, hn'⟩ := ih (n / 10) (by omega)
      -- of a number below ten this digit is all there is, else it comes behind those of a tenth
      by_cases hsmall : n / 10 = 0
      · have hc' : denotes [c] ≠ 0 := by omega
        refine ⟨[c], .inr ⟨⟨nofun, List.forall_mem_singleton.mpr hc⟩, ?_⟩, by omega⟩
        rintro ⟨⟩
        exact hc' (by decide)
      · obtain rfl | ⟨⟨hwne, hdigits⟩, hhead⟩ := hwhole
        · exact absurd hn'.symm hsmall
        · refine ⟨whole ++ [c], .inr ⟨⟨by simp, ?_⟩, ?_⟩, ?_⟩
          · exact List.forall_mem_append.mpr ⟨hdigits, List.forall_mem_singleton.mpr hc⟩
          · rwa [List.head?_append_of_ne_nil _ hwne]
          · rw [denotes_append, hn', hdenotes, List.length_singleton]
            omega

theorem exists_power (k : Int) : ∃ power, power ≠ [] ∧ Power power k := by
  obtain ⟨digits, hdigits, hdenotes⟩ := exists_whole k.natAbs
  have hsign : ∀ negative, ∃ sign, IsSign negative sign := by
    rintro (_ | _)
    · exact ⟨_, .none⟩
    · exact ⟨_, .minus⟩
  obtain ⟨sign, hsign⟩ := hsign (decide (k < 0))
  have hpower := Power.some (.inl rfl) hsign hdigits.isDigits
  rw [hdenotes, signed_natAbs] at hpower
  exact ⟨_, List.cons_ne_nil _ _, hpower⟩

/-- Every double is a decimal numeral. -/
theorem exists_scaled_eq_ten (m : Nat) (q : Int) : ∃ (n : Nat) (k : Int), (n : ℚ) * 10 ^ k = Double.scaled m q := by
  obtain ⟨i, rfl | rfl⟩ := q.eq_nat_or_neg
  · exact ⟨m * 2 ^ i, 0, by simp [Double.scaled]⟩
  · refine ⟨m * 5 ^ i, -i, ?_⟩
    rw [Double.scaled, show (10 : ℚ) = 5 * 2 by norm_num, mul_zpow]
    push_cast
    rw [zpow_neg, zpow_natCast]
    field_simp

theorem exists_float {negative : Bool} {m : Nat} {q : Int} (h : Double.Legal m q) (hq : q ≤ Double.maxExponent) :
    ∃ t, IsNumber t (.float (.finite negative m q)) := by
  obtain ⟨n, k, hvalue⟩ := exists_scaled_eq_ten m q
  obtain ⟨whole, hwhole, rfl⟩ := exists_whole n
  obtain ⟨power, hne, hpower⟩ := exists_power k
  have hx : Double.Rounds negative ((denotes whole + denotes [] / 10 ^ ([] : List Char).length) * 10 ^ k)
      (.finite negative m q) := by
    have hrounds : Double.Rounds negative _ _ := .finite h.nearest hq
    rw [← hvalue] at hrounds
    simpa [denotes] using hrounds
  exact ⟨_, .float hwhole .none hpower (.inr hne) hx⟩

theorem exists_items {vs : List Value} (hne : vs ≠ []) (h : ∀ v ∈ vs, ∃ t, IsValue t v) :
    ∃ t, IsItems t vs := by
  induction vs with
  | nil => exact absurd rfl hne
  | cons v vs ih =>
      obtain ⟨⟨t, ht⟩, hvs⟩ := List.forall_mem_cons.mp h
      cases vs with
      | nil => exact ⟨_, .one ht .nil⟩
      | cons w ws =>
          obtain ⟨ts, hts⟩ := ih nofun hvs
          exact ⟨_, .cons ht .nil .nil hts⟩

theorem exists_members {ms : List (String × Value)} (hne : ms ≠ []) (h : ∀ m ∈ ms, ∃ t, IsValue t m.2) :
    ∃ t, IsMembers t ms := by
  induction ms with
  | nil => exact absurd rfl hne
  | cons m ms ih =>
      obtain ⟨⟨t, ht⟩, hms⟩ := List.forall_mem_cons.mp h
      obtain ⟨body, hname⟩ := exists_text m.1
      have hm : IsMember _ m := .mk hname .nil .nil ht
      cases ms with
      | nil => exact ⟨_, .one hm .nil⟩
      | cons w ws =>
          obtain ⟨ts, hts⟩ := ih nofun hms
          exact ⟨_, .cons hm .nil .nil hts⟩

theorem exists_isValue (h : v.InJson) : ∃ t, IsValue t v := by
  induction h with
  | null => exact ⟨_, .word .null⟩
  | bool b => cases b <;> exact ⟨_, .word (by constructor)⟩
  | @int n h =>
      obtain ⟨whole, hwhole, hdenotes⟩ := exists_whole n.natAbs
      have hlength := hwhole.length_le
      rw [hdenotes] at hlength
      have hnumber : IsNumber (minus (decide (n < 0)) ++ whole) _ := .int hwhole (by omega)
      rw [hdenotes, signed_natAbs] at hnumber
      exact ⟨_, .number hnumber⟩
  | @float x h =>
      cases x with
      | finite negative m q =>
          obtain ⟨t, ht⟩ := exists_float h.1 h.2
          exact ⟨t, .number ht⟩
      | infinite negative => cases negative <;> exact ⟨_, .word (by constructor)⟩
      | nan => exact ⟨_, .word .nan⟩
  | text s =>
      obtain ⟨body, hbody⟩ := exists_text s
      exact ⟨_, .text hbody⟩
  | @list vs _ ih =>
      obtain rfl | hne := eq_or_ne vs []
      · exact ⟨_, .emptyList .nil⟩
      · obtain ⟨t, ht⟩ := exists_items hne ih
        exact ⟨_, .list .nil ht⟩
  | @object q hn _ ih =>
      obtain rfl | hne := eq_or_ne q []
      · exact ⟨_, .emptyObject .nil⟩
      · obtain ⟨t, ht⟩ := exists_members hne ih
        exact ⟨_, .object .nil ht (collects_iff.mpr (Entries.ofList_of_nodup hn))⟩

/-- Just the values of JSON have texts. -/
theorem inJson_iff : v.InJson ↔ ∃ s : String, IsJson s.toList v := by
  constructor
  · intro h
    obtain ⟨t, ht⟩ := exists_isValue h
    exact ⟨String.ofList t, [], t, [], by simp, .nil, ht, .nil⟩
  · rintro ⟨s, before, t, after, -, -, hv, -⟩
    exact hv.inJson

end Json

end QueryPipeline
