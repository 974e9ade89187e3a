import QueryPipeline.Json.Reader
import QueryPipeline.Proofs.Results

/-!
Texts in quotation marks. What stands between the marks is a row of pieces, each a character as it is or an
escape, and each writes a code point or one half of a surrogate pair. The reader accepts just these rows.
-/

namespace QueryPipeline.Json

/-! ## Pieces -/

/-- The hexadecimal digits, in lower and upper case, with their values. -/
def hexDigits : List (Char × Nat) :=
  ['0', '1', '2', '3', '4', '5', '6', '7', '8', '9', 'a', 'b', 'c', 'd', 'e', 'f'].zipIdx ++
    ['A', 'B', 'C', 'D', 'E', 'F'].zipIdx 10

/-- The letters after a backslash, with the characters that they write. -/
def escapes : List (Char × Char) :=
  [('"', '"'), ('\\', '\\'), ('/', '/'), ('b', '\x08'), ('f', '\x0c'), ('n', '\n'), ('r', '\r'),
    ('t', '\t')]

/-- Four hexadecimal digits write this unit. -/
def HexUnit (a b c d : Char) (u : Nat) : Prop :=
  ∃ i j k l, (a, i) ∈ hexDigits ∧ (b, j) ∈ hexDigits ∧ (c, k) ∈ hexDigits ∧ (d, l) ∈ hexDigits ∧
    u = ((i * 16 + j) * 16 + k) * 16 + l

/-- A piece of a text and what it writes. -/
inductive Piece : List Char → Nat → Prop where
  | plain {c : Char} (hquote : c ≠ '"') (hslash : c ≠ '\\') (hcontrol : 0x1F < c.toNat) :
    Piece [c] c.toNat
  | escape {e c : Char} (h : (e, c) ∈ escapes) : Piece ['\\', e] c.toNat
  | unit {a b c d : Char} {u : Nat} (h : HexUnit a b c d u) : Piece ['\\', 'u', a, b, c, d] u

/-- A row of pieces and what it writes. -/
inductive Pieces : List Char → List Nat → Prop where
  | nil : Pieces [] []
  | cons {piece rest : List Char} {u : Nat} {us : List Nat} (h : Piece piece u) (hs : Pieces rest us) :
    Pieces (piece ++ rest) (u :: us)

/-- The first half of a surrogate pair. -/
def IsHigh (u : Nat) : Prop :=
  0xD800 ≤ u ∧ u < 0xDC00

/-- The second half of a surrogate pair. -/
def IsLow (u : Nat) : Prop :=
  0xDC00 ≤ u ∧ u < 0xE000

/-- What code points and halves of pairs stand for: each point for its character, two halves in a row for
one. A half that stands alone is no character, and the replacement character stands in for it. -/
inductive Decodes : List Nat → List Char → Prop where
  | nil : Decodes [] []
  | point {c : Char} {us : List Nat} {cs : List Char} (h : Decodes us cs) : Decodes (c.toNat :: us) (c :: cs)
  | pair {high low : Nat} {c : Char} {us : List Nat} {cs : List Char} (hhigh : IsHigh high) (hlow : IsLow low)
    (hc : c.toNat = 0x10000 + (high - 0xD800) * 0x400 + (low - 0xDC00)) (h : Decodes us cs) :
    Decodes (high :: low :: us) (c :: cs)
  | lone {half : Nat} {us : List Nat} {cs : List Char} (hhalf : IsHigh half ∨ IsLow half)
    (hlone : IsHigh half → ∀ low ∈ us.head?, ¬ IsLow low) (h : Decodes us cs) :
    Decodes (half :: us) ('\uFFFD' :: cs)

/-- The text is written by these characters between quotation marks. -/
def IsText (body : List Char) (s : String) : Prop :=
  ∃ us, Pieces body us ∧ Decodes us s.toList

/-! ## Reading pieces -/

variable {a b c d e : Char} {n u opened : Nat} {cs rest body piece : List Char} {us : List Nat}

theorem hexValue?_eq_some_iff : hexValue? c = some n ↔ (c, n) ∈ hexDigits := by
  constructor
  · intro h
    have htable : ∀ m < 128, ∀ n ∈ hexValue? (Char.ofNat m), (Char.ofNat m, n) ∈ hexDigits := by decide
    have hascii : c.toNat < 128 := by
      unfold hexValue? at h
      split at h
      · rename_i hc
        exact Nat.lt_of_le_of_lt (show c.toNat ≤ 57 from hc.2) (by decide)
      split at h
      · rename_i hc
        exact Nat.lt_of_le_of_lt (show c.toNat ≤ 102 from hc.2) (by decide)
      split at h
      · rename_i hc
        exact Nat.lt_of_le_of_lt (show c.toNat ≤ 70 from hc.2) (by decide)
      · cases h
    have hc := htable c.toNat hascii n
    rw [Char.ofNat_toNat] at hc
    exact hc h
  · have htable : ∀ digit ∈ hexDigits, hexValue? digit.1 = some digit.2 := by decide
    exact htable (c, n)

theorem unit?_eq_some_iff : unit? a b c d = some u ↔ HexUnit a b c d u := by
  simp only [unit?, bind, Option.bind_eq_some_iff, hexValue?_eq_some_iff, pure, Option.some.injEq, HexUnit]
  constructor
  · rintro ⟨i, hi, j, hj, k, hk, l, hl, rfl⟩
    exact ⟨i, j, k, l, hi, hj, hk, hl, rfl⟩
  · rintro ⟨i, j, k, l, hi, hj, hk, hl, rfl⟩
    exact ⟨i, hi, j, hj, k, hk, l, hl, rfl⟩

theorem escapedCharacter?_eq_some_iff : escapedCharacter? e = some c ↔ (e, c) ∈ escapes := by
  unfold escapedCharacter?
  split <;> simp_all [escapes, eq_comm]

theorem units_sound (h : units opened cs = .ok (us, rest)) :
    ∃ body, cs = body ++ '"' :: rest ∧ Pieces body us := by
  fun_induction units opened cs generalizing us rest with
  | case2 =>
      cases h
      exact ⟨[], rfl, .nil⟩
  | case4 a b c d u head tail hu ih =>
      obtain ⟨⟨us, rest⟩, hread, ⟨⟩⟩ := map_eq_ok_iff.mp h
      obtain ⟨body, hbody, hpieces⟩ := ih hread
      exact ⟨_, by rw [hbody]; rfl, .cons (.unit (unit?_eq_some_iff.mp hu)) hpieces⟩
  | case7 e cs _ _ c hc ih =>
      obtain ⟨⟨us, rest⟩, hread, ⟨⟩⟩ := map_eq_ok_iff.mp h
      obtain ⟨body, rfl, hpieces⟩ := ih hread
      exact ⟨_, rfl, .cons (.escape (escapedCharacter?_eq_some_iff.mp hc)) hpieces⟩
  | case10 c cs hquote hslash hunit hu hescape hcontrol ih =>
      obtain ⟨⟨us, rest⟩, hread, ⟨⟩⟩ := map_eq_ok_iff.mp h
      obtain ⟨body, rfl, hpieces⟩ := ih hread
      have hplain : c ≠ '\\' := by
        rintro rfl
        cases hcs : body ++ '"' :: rest with
        | nil => exact hslash rfl hcs
        | cons e more => exact hescape e more rfl hcs
      exact ⟨_, rfl, .cons (.plain hquote hplain (Nat.not_le.mp hcontrol)) hpieces⟩
  | _ => cases h

/-- One piece is read by itself, as long as the text goes on after it. -/
theorem units_piece (h : Piece piece u) :
    units opened (piece ++ c :: cs) =
      (units opened (c :: cs)).map fun (us, rest) => (u :: us, rest) := by
  cases h with
  | plain hquote hslash hcontrol =>
      simp [units, hslash, Nat.not_le.mpr hcontrol]
  | @escape e d hd =>
      have hu : e ≠ 'u' := by
        rintro rfl
        simp [escapes] at hd
      simp [units, hu, escapedCharacter?_eq_some_iff.mpr hd]
  | unit hu =>
      have hread := unit?_eq_some_iff.mpr hu
      simp [units, hread]

theorem units_complete (opened : Nat) (h : Pieces body us) (rest : List Char) :
    units opened (body ++ '"' :: rest) = .ok (us, rest) := by
  induction h with
  | nil => rfl
  | @cons piece more u us hp _ ih =>
      obtain ⟨c, cs, hmore⟩ : ∃ c cs, more ++ '"' :: rest = c :: cs :=
        List.exists_cons_of_ne_nil (by simp)
      rw [List.append_assoc, hmore, units_piece hp, ← hmore, ih]
      rfl

/-! ## Joining surrogate pairs -/

theorem isHigh_iff : isHigh u = true ↔ IsHigh u := by
  simp [isHigh, IsHigh]

theorem isLow_iff : isLow u = true ↔ IsLow u := by
  simp [isLow, IsLow]

/-- The code point of a character is no half of a pair. -/
theorem toNat_not_half (c : Char) : ¬ (IsHigh c.toNat ∨ IsLow c.toNat) := by
  have hvalid : c.toNat < 0xD800 ∨ 0xDFFF < c.toNat ∧ c.toNat < 0x110000 := c.valid
  unfold IsHigh IsLow
  omega

theorem toNat_ofNat (hu : u < 0x110000) (h : ¬ (IsHigh u ∨ IsLow u)) : (Char.ofNat u).toNat = u := by
  have hvalid : u.isValidChar := by
    unfold IsHigh IsLow at h
    unfold Nat.isValidChar
    omega
  rw [Char.ofNat, dif_pos hvalid]
  rfl

theorem character_toNat (c : Char) : character c.toNat = c := by
  have hc := toNat_not_half c
  rw [← isHigh_iff, ← isLow_iff, ← Bool.or_eq_true] at hc
  rw [character, if_neg hc, Char.ofNat_toNat]

theorem character_half (h : IsHigh u ∨ IsLow u) : character u = '\uFFFD' := by
  rw [← isHigh_iff, ← isLow_iff, ← Bool.or_eq_true] at h
  rw [character, if_pos h]

/-- What is not the first half of a pair with the next one is a character by itself. -/
theorem characters_cons (h : IsHigh u → ∀ low ∈ us.head?, ¬ IsLow low) :
    characters (u :: us) = character u :: characters us := by
  cases us with
  | nil => rfl
  | cons low us =>
      rw [characters, if_neg]
      rw [Bool.and_eq_true, isHigh_iff, isLow_iff]
      exact fun hpair => h hpair.1 low rfl hpair.2

theorem characters_of_decodes (h : Decodes us cs) : characters us = cs := by
  induction h with
  | nil => rfl
  | @point c us cs h ih =>
      rw [characters_cons fun hhigh => absurd (.inl hhigh) (toNat_not_half c), character_toNat, ih]
  | pair hhigh hlow hc _ ih =>
      rw [characters, if_pos (by rw [isHigh_iff.mpr hhigh, isLow_iff.mpr hlow]; rfl), ← hc, Char.ofNat_toNat, ih]
  | lone hhalf hlone _ ih => rw [characters_cons hlone, character_half hhalf, ih]

/-- Code points of characters, and halves of pairs. -/
def IsUnit (u : Nat) : Prop :=
  (∃ c : Char, c.toNat = u) ∨ IsHigh u ∨ IsLow u

theorem HexUnit.isUnit (h : HexUnit a b c d u) : IsUnit u := by
  have hdigits : ∀ digit ∈ hexDigits, digit.2 < 16 := by decide
  obtain ⟨i, j, k, l, hi, hj, hk, hl, rfl⟩ := h
  have hi := hdigits _ hi
  have hj := hdigits _ hj
  have hk := hdigits _ hk
  have hl := hdigits _ hl
  by_cases hhalf : IsHigh (((i * 16 + j) * 16 + k) * 16 + l) ∨ IsLow (((i * 16 + j) * 16 + k) * 16 + l)
  · exact .inr hhalf
  · exact .inl ⟨_, toNat_ofNat (by omega) hhalf⟩

theorem Piece.isUnit (h : Piece piece u) : IsUnit u := by
  cases h with
  | plain | escape => exact .inl ⟨_, rfl⟩
  | unit hu => exact hu.isUnit

theorem Pieces.isUnit (h : Pieces body us) : ∀ u ∈ us, IsUnit u := by
  induction h with
  | nil => exact nofun
  | cons hp _ ih => exact List.forall_mem_cons.mpr ⟨hp.isUnit, ih⟩

theorem Decodes.cons (h : Decodes us cs) (hu : IsUnit u) (hlone : IsHigh u → ∀ low ∈ us.head?, ¬ IsLow low) :
    Decodes (u :: us) (character u :: cs) := by
  rcases hu with ⟨c, rfl⟩ | hhalf
  · rw [character_toNat]
    exact .point h
  · rw [character_half hhalf]
    exact .lone hhalf hlone h

theorem decodes_characters (h : ∀ u ∈ us, IsUnit u) : Decodes us (characters us) := by
  fun_induction characters us with
  | case1 high low us hpair ih =>
      rw [Bool.and_eq_true, isHigh_iff, isLow_iff] at hpair
      obtain ⟨hhigh, hlow⟩ := hpair
      refine .pair hhigh hlow (toNat_ofNat ?_ ?_) (ih fun u hu => h u (by simp [hu]))
      · obtain ⟨_, hhigh⟩ := hhigh
        obtain ⟨_, hlow⟩ := hlow
        omega
      · unfold IsHigh IsLow
        omega
  | case2 high low us hpair ih =>
      rw [Bool.and_eq_true, isHigh_iff, isLow_iff] at hpair
      obtain ⟨hu, hus⟩ := List.forall_mem_cons.mp h
      refine (ih hus).cons hu ?_
      rintro hhigh _ ⟨⟩ hlow
      exact hpair ⟨hhigh, hlow⟩
  | case3 u => exact Decodes.nil.cons (h u List.mem_cons_self) nofun
  | case4 => exact .nil

/-- Texts are read as the grammar has them, up to the mark that closes them. -/
theorem text_eq_ok_iff {s : String} : text opened cs = .ok (s, rest) ↔
    ∃ body, cs = body ++ '"' :: rest ∧ IsText body s := by
  constructor
  · intro h
    obtain ⟨⟨us, rest⟩, hunits, ⟨⟩⟩ := map_eq_ok_iff.mp h
    obtain ⟨body, hbody, hpieces⟩ := units_sound hunits
    refine ⟨body, hbody, us, hpieces, ?_⟩
    rw [String.toList_ofList]
    exact decodes_characters hpieces.isUnit
  · rintro ⟨body, rfl, us, hpieces, hdecodes⟩
    rw [text, units_complete opened hpieces]
    simp [Except.map, characters_of_decodes hdecodes]

end QueryPipeline.Json
