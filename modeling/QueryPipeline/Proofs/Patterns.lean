import Mathlib.Data.List.Forall2
import QueryPipeline.Proofs.Words

/-!
Patterns, read and searched for by their rules, and the pattern for a text inside a field's. Whatever the
characters of the text, it finds this text and nothing else.
-/

namespace QueryPipeline

/-! ## Patterns -/

/-- What takes one character of a text: a character, or the dot. -/
inductive Atom where
  | char (c : Char)
  | any

/-- A piece of a pattern: an atom, or an atom with a star. -/
inductive Piece where
  | once (a : Atom)
  | repeated (a : Atom)

/-- A pattern of characters, dots and stars. -/
abbrev Pattern := List Piece

namespace Pattern

/-- An atom, or the star after it. -/
inductive Token where
  | atom (a : Atom)
  | star

/-- The characters that make anchors, classes, groups, choices and the other repetitions. Patterns with
these are not read here. -/
def reserved : List Char :=
  "^$+?\x7b\x7d[]|()".toList

/-- The tokens of a pattern. A backslash before a character that is no letter or digit stands for this
character; any other character that means nothing else stands for itself. -/
def tokens? : List Char → Option (List Token)
  | [] => some []
  | '\\' :: c :: rest =>
    if c.isAlphanum then none else (tokens? rest).map (.atom (.char c) :: ·)
  | '.' :: rest => (tokens? rest).map (.atom .any :: ·)
  | '*' :: rest => (tokens? rest).map (.star :: ·)
  | c :: rest =>
    if c = '\\' ∨ c ∈ reserved then none else (tokens? rest).map (.atom (.char c) :: ·)

/-- The pattern of tokens. A star is about the atom before it. -/
def ofTokens? : List Token → Option Pattern
  | [] => some []
  | .atom a :: .star :: rest => (ofTokens? rest).map (.repeated a :: ·)
  | .atom a :: rest => (ofTokens? rest).map (.once a :: ·)
  | .star :: _ => none

/-- Reads a pattern. -/
def read? (cs : List Char) : Option Pattern :=
  (tokens? cs).bind ofTokens?

end Pattern

variable {same : Setoid Char} {a : Atom} {c : Char} {cs t words : List Char} {p : Pattern}

/-- The atom takes the character. A character takes all those that count as the same, and the dot takes
all but the end of a line. -/
def Atom.Takes (same : Setoid Char) : Atom → Char → Prop
  | .char d, c => same.r d c
  | .any, c => c ≠ '\n'

namespace Pattern

/-- The pattern matches the whole text. -/
inductive Matches (same : Setoid Char) : Pattern → List Char → Prop where
  | nil : Matches same [] []
  | once {a : Atom} {c : Char} {p : Pattern} {cs : List Char} (ha : a.Takes same c)
    (h : Matches same p cs) : Matches same (.once a :: p) (c :: cs)
  | stop {a : Atom} {p : Pattern} {cs : List Char} (h : Matches same p cs) :
    Matches same (.repeated a :: p) cs
  | more {a : Atom} {c : Char} {p : Pattern} {cs : List Char} (ha : a.Takes same c)
    (h : Matches same (.repeated a :: p) cs) : Matches same (.repeated a :: p) (c :: cs)

/-- The pattern matches somewhere in the text. -/
def Found (same : Setoid Char) (p : Pattern) (t : List Char) : Prop :=
  ∃ before inside after, t = before ++ (inside ++ after) ∧ p.Matches same inside

end Pattern

/-- The words stand somewhere in the text, character for character. -/
def Occurs (same : Setoid Char) (words t : List Char) : Prop :=
  ∃ before inside after, t = before ++ (inside ++ after) ∧ List.Forall₂ same.r words inside

/-! ## Reading what is written literally -/

namespace Pattern

/-- The pattern of characters. -/
def ofChars (words : List Char) : Pattern :=
  words.map fun c => .once (.char c)

theorem reserved_subset : reserved ⊆ Condition.special := by
  have hall : (reserved.all fun c => Condition.special.contains c) = true := by decide
  intro c hc
  simpa using List.all_eq_true.mp hall c hc

theorem not_isAlphanum_of_special : ∀ c ∈ Condition.special, c.isAlphanum = false := by
  have hall : (Condition.special.all fun c => !c.isAlphanum) = true := by decide
  intro c hc
  simpa using List.all_eq_true.mp hall c hc

/-- A character is read as itself, with or without a backslash before it. -/
theorem tokens?_literally_cons (c : Char) (rest : List Char) :
    tokens? (Condition.literally [c] ++ rest) = (tokens? rest).map (.atom (.char c) :: ·) := by
  by_cases hc : c ∈ Condition.special
  · have hlit : Condition.literally [c] = ['\\', c] := by simp [Condition.literally, hc]
    rw [hlit]
    change tokens? ('\\' :: c :: rest) = _
    rw [tokens?, not_isAlphanum_of_special c hc]
    rfl
  · have hlit : Condition.literally [c] = [c] := by simp [Condition.literally, hc]
    have hne (d : Char) (hd : d ∈ Condition.special) : c ≠ d := fun h => hc (h ▸ hd)
    have hother : ¬ (c = '\\' ∨ c ∈ reserved) := by
      rintro (h | h)
      · exact hne '\\' (by decide) h
      · exact hc (reserved_subset h)
    rw [hlit]
    change tokens? (c :: rest) = _
    rw [tokens?.eq_def]
    split
    · rename_i heq
      cases heq
    · rename_i heq
      cases heq
      exact absurd rfl (hne '\\' (by decide))
    · rename_i heq
      cases heq
      exact absurd rfl (hne '.' (by decide))
    · rename_i heq
      cases heq
      exact absurd rfl (hne '*' (by decide))
    · rename_i heq
      cases heq
      exact if_neg hother

theorem tokens?_literally (words rest : List Char) :
    tokens? (Condition.literally words ++ rest) =
      (tokens? rest).map (words.map (fun c => .atom (.char c)) ++ ·) := by
  induction words with
  | nil => simp [Condition.literally]
  | cons c words ih =>
      have hsplit : Condition.literally (c :: words) =
          Condition.literally [c] ++ Condition.literally words := by
        simp [Condition.literally]
      rw [hsplit, List.append_assoc, tokens?_literally_cons, ih, Option.map_map]
      rfl

theorem ofTokens?_once {tokens : List Token} (h : tokens.head? ≠ some .star) :
    ofTokens? (.atom a :: tokens) = (ofTokens? tokens).map (.once a :: ·) := by
  cases tokens with
  | nil => rfl
  | cons token tokens =>
      cases token with
      | atom b => rfl
      | star => exact absurd rfl h

theorem ofTokens?_chars (words : List Char) {tokens : List Token} (h : tokens.head? ≠ some .star) :
    ofTokens? (words.map (fun c => .atom (.char c)) ++ tokens) =
      (ofTokens? tokens).map (ofChars words ++ ·) := by
  induction words with
  | nil => simp [ofChars]
  | cons c words ih =>
      have hhead : (words.map (fun c => Token.atom (.char c)) ++ tokens).head? ≠ some .star := by
        cases words with
        | nil => exact h
        | cons c words => exact nofun
      rw [List.map_cons, List.cons_append, ofTokens?_once hhead, ih, Option.map_map]
      rfl

/-- The pattern of a text between two stars. -/
theorem read?_literally (words : List Char) :
    read? ('.' :: '*' :: (Condition.literally words ++ ['.', '*'])) =
      some (.repeated .any :: (ofChars words ++ [.repeated .any])) := by
  have hend : tokens? ['.', '*'] = some [.atom .any, .star] := rfl
  have htokens : tokens? ('.' :: '*' :: (Condition.literally words ++ ['.', '*'])) =
      some (.atom .any :: .star :: (words.map (fun c => .atom (.char c)) ++ [.atom .any, .star])) := by
    rw [tokens?, tokens?, tokens?_literally, hend]
    rfl
  have hstar : [Token.atom .any, .star].head? ≠ some .star := nofun
  rw [read?, htokens, Option.bind_some, ofTokens?, ofTokens?_chars words hstar]
  rfl

/-! ## Searching -/

theorem matches_chars_iff :
    (ofChars words ++ p).Matches same t ↔
      ∃ inside after, t = inside ++ after ∧ List.Forall₂ same.r words inside ∧ p.Matches same after := by
  induction words generalizing t with
  | nil =>
      constructor
      · exact fun h => ⟨[], t, rfl, .nil, h⟩
      · rintro ⟨_, after, rfl, ⟨⟩, h⟩
        exact h
  | cons c words ih =>
      constructor
      · intro h
        cases h with
        | once ha h =>
            obtain ⟨inside, after, rfl, hinside, hp⟩ := ih.mp h
            exact ⟨_ :: inside, after, rfl, .cons ha hinside, hp⟩
      · rintro ⟨_, after, rfl, hwords, hp⟩
        cases hwords with
        | cons ha hinside => exact .once ha (ih.mpr ⟨_, after, rfl, hinside, hp⟩)

/-- A star takes a part of the text that comes before what the rest of the pattern matches. -/
theorem Matches.drop_repeated (h : Matches same (.repeated a :: p) t) :
    ∃ before after, t = before ++ after ∧ p.Matches same after := by
  induction t with
  | nil =>
      cases h with
      | stop h => exact ⟨[], [], rfl, h⟩
  | cons c t ih =>
      cases h with
      | stop h => exact ⟨[], c :: t, rfl, h⟩
      | more _ h =>
          obtain ⟨before, after, rfl, hp⟩ := ih h
          exact ⟨c :: before, after, rfl, hp⟩

/-- A search for a text with stars around it finds the text. -/
theorem found_iff_occurs :
    Found same (.repeated .any :: (ofChars words ++ [.repeated .any])) t ↔ Occurs same words t := by
  constructor
  · rintro ⟨before, inside, after, rfl, h⟩
    obtain ⟨skipped, rest, rfl, hrest⟩ := h.drop_repeated
    obtain ⟨found, more, rfl, hfound, -⟩ := matches_chars_iff.mp hrest
    exact ⟨before ++ skipped, found, more ++ after, by simp, hfound⟩
  · rintro ⟨before, inside, after, rfl, h⟩
    refine ⟨before, inside, after, rfl, .stop (matches_chars_iff.mpr ⟨inside, [], ?_, h, .stop .nil⟩)⟩
    rw [List.append_nil]

end Pattern

/-! ## Conditions for a text inside a field's -/

namespace Condition

/-- A condition for the words of a value inside a field's text, whatever its field was constrained to
before, asks for a match of a pattern. As a pattern it is read without remainder, and a search for it in a
text succeeds exactly if the words stand in the text, with any characters that count as the same. A value
that has no words makes no pattern, and the filter with such a condition fails. -/
theorem like_finds_words (same : Setoid Char) (field : String) (v : Value) :
    ∃ c, ofOperator field "like" v = .condition c ∧
      (∀ words, v.plain? = some words → c.hasPattern = true ∧
        ∃ (pattern : String) (p : Pattern),
          (∀ current, (Constraint.after c current).toValue =
            .object [("$regex", .text pattern), ("$options", .text "i")]) ∧
          Pattern.read? pattern.toList = some p ∧
          ∀ t : String, p.Found same t.toList ↔ Occurs same words.toList t.toList) ∧
      (v.plain? = none →
        ∀ conditions, c ∈ conditions → Filter.make conditions = .error (.misuse .tooManyDigits)) := by
  have hread : ofOperator field "like" v =
      .condition { field, operator := "like", action := .contain, value := v } := by
    have haction : Action.ofName? "like" = some .contain := by decide
    rw [ofOperator, haction]
    rfl
  refine ⟨_, hread, fun words hwords => ?_, fun hnone conditions hc => Filter.make_error ⟨_, hc, ?_⟩⟩
  · have hpattern : pattern? v = some (".*" ++ String.ofList (literally words.toList) ++ ".*") := by
      rw [pattern?, hwords, Option.map_some]
    have hchars : (".*" ++ String.ofList (literally words.toList) ++ ".*").toList =
        '.' :: '*' :: (literally words.toList ++ ['.', '*']) := by
      simp [String.toList_append, String.toList_ofList]
    refine ⟨by rw [hasPattern, hpattern]; rfl, ".*" ++ String.ofList (literally words.toList) ++ ".*",
      .repeated .any :: (Pattern.ofChars words.toList ++ [.repeated .any]), fun current => ?_, ?_,
      fun t => Pattern.found_iff_occurs⟩
    · change Value.object [("$regex", containing v), ("$options", .text "i")] = _
      rw [containing, hpattern]
      rfl
    · rw [hchars]
      exact Pattern.read?_literally words.toList
  · rw [hasPattern, pattern?, hnone]
    rfl

end Condition

end QueryPipeline
