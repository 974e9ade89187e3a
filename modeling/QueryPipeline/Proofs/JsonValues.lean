import Mathlib.Data.List.Dedup
import QueryPipeline.Proofs.Entries
import QueryPipeline.Proofs.JsonNumbers
import QueryPipeline.Proofs.JsonTexts

/-!
JSON texts and the values that they denote, as a grammar: white space between any two tokens, the words for
what is no number, and objects of which the last member of a name counts. The reader accepts just what the
grammar has, and finds the one value of it.
-/

namespace QueryPipeline.Json

open Text

/-! ## The grammar -/

/-- White space, if anything at all. -/
def IsSpaces (ws : List Char) : Prop :=
  ∀ c ∈ ws, c = ' ' ∨ c = '\t' ∨ c = '\n' ∨ c = '\r'

/-- The values that are written as words. -/
inductive Word : List Char → Value → Prop where
  | null : Word "null".toList .null
  | yes : Word "true".toList (.bool true)
  | no : Word "false".toList (.bool false)
  | nan : Word "NaN".toList (.float .nan)
  | infinity : Word "Infinity".toList (.float (.infinite false))
  | minusInfinity : Word "-Infinity".toList (.float (.infinite true))

/-- The entries that the members of an object come to: every name stands where it stood first, with the
value that it was given last. -/
structure Collects (members : List (String × Value)) (entries : Document) : Prop where
  keys : Entries.keys entries = (members.map (·.1)).eraseDups
  last : ∀ name, Entries.get? entries name = ((members.filter (·.1 = name)).getLast?).map (·.2)

mutual
/-- The text denotes this value. -/
inductive IsValue : List Char → Value → Prop where
  | word {t : List Char} {v : Value} (h : Word t v) : IsValue t v
  | number {t : List Char} {v : Value} (h : IsNumber t v) : IsValue t v
  | text {body : List Char} {s : String} (h : IsText body s) : IsValue ('"' :: (body ++ ['"'])) (.text s)
  | emptyList {ws : List Char} (hws : IsSpaces ws) : IsValue ('[' :: (ws ++ [']'])) (.list [])
  | list {ws t : List Char} {vs : List Value} (hws : IsSpaces ws) (h : IsItems t vs) :
    IsValue ('[' :: (ws ++ (t ++ [']']))) (.list vs)
  | emptyObject {ws : List Char} (hws : IsSpaces ws) : IsValue ('\x7b' :: (ws ++ ['\x7d'])) (.object [])
  | object {ws t : List Char} {ms : List (String × Value)} {entries : Document} (hws : IsSpaces ws)
    (h : IsMembers t ms) (hentries : Collects ms entries) :
    IsValue ('\x7b' :: (ws ++ (t ++ ['\x7d']))) (.object entries)

/-- The text denotes these items of a list, one at least. -/
inductive IsItems : List Char → List Value → Prop where
  | one {t ws : List Char} {v : Value} (h : IsValue t v) (hws : IsSpaces ws) : IsItems (t ++ ws) [v]
  | cons {t ws ws' ts : List Char} {v : Value} {vs : List Value} (h : IsValue t v) (hws : IsSpaces ws)
    (hws' : IsSpaces ws') (hs : IsItems ts vs) : IsItems (t ++ (ws ++ ',' :: (ws' ++ ts))) (v :: vs)

/-- The text denotes this member of an object. -/
inductive IsMember : List Char → String × Value → Prop where
  | mk {body ws ws' t : List Char} {name : String} {v : Value} (hname : IsText body name)
    (hws : IsSpaces ws) (hws' : IsSpaces ws') (h : IsValue t v) :
    IsMember ('"' :: (body ++ '"' :: (ws ++ ':' :: (ws' ++ t)))) (name, v)

/-- The text denotes these members of an object, one at least. -/
inductive IsMembers : List Char → List (String × Value) → Prop where
  | one {t ws : List Char} {m : String × Value} (h : IsMember t m) (hws : IsSpaces ws) :
    IsMembers (t ++ ws) [m]
  | cons {t ws ws' ts : List Char} {m : String × Value} {ms : List (String × Value)} (h : IsMember t m)
    (hws : IsSpaces ws) (hws' : IsSpaces ws') (hs : IsMembers ts ms) :
    IsMembers (t ++ (ws ++ ',' :: (ws' ++ ts))) (m :: ms)
end

/-- The text is a JSON text of this value: white space may stand around it. -/
def IsJson (cs : List Char) (v : Value) : Prop :=
  ∃ before t after, cs = before ++ (t ++ after) ∧ IsSpaces before ∧ IsValue t v ∧ IsSpaces after

variable {c : Char} {cs rest t ws : List Char} {v : Value} {vs : List Value}
  {ms : List (String × Value)} {n : Nat}

/-! ## White space -/

theorem IsSpaces.nil : IsSpaces [] :=
  nofun

theorem isSpace_iff : isSpace c = true ↔ c = ' ' ∨ c = '\t' ∨ c = '\n' ∨ c = '\r' := by
  simp [isSpace, or_assoc]

theorem skip_sound (cs : List Char) : ∃ ws, cs = ws ++ skip cs ∧ IsSpaces ws :=
  ⟨cs.takeWhile isSpace, List.takeWhile_append_dropWhile.symm,
    fun _ hc => isSpace_iff.mp (List.mem_takeWhile_imp hc)⟩

theorem skip_append (hws : IsSpaces ws) (hrest : ∀ c ∈ rest.head?, isSpace c = false) :
    skip (ws ++ rest) = rest :=
  (takeWhile_append_stop (fun c hc => isSpace_iff.mpr (hws c hc)) hrest).2

theorem EndsNumber.spaces (hws : IsSpaces ws) (h : EndsNumber rest) : EndsNumber (ws ++ rest) := by
  cases ws with
  | nil => exact h
  | cons c ws =>
      rintro _ ⟨⟩
      rcases hws c List.mem_cons_self with rfl | rfl | rfl | rfl <;> decide

theorem skip_front {more : List Char} (hws : IsSpaces ws) (ht : t = c :: more) (hc : isSpace c = false) :
    skip (ws ++ (t ++ rest)) = t ++ rest := by
  refine skip_append hws ?_
  rw [ht]
  rintro _ ⟨⟩
  exact hc

theorem skip_stop (hws : IsSpaces ws) (hc : isSpace c = false) : skip (ws ++ c :: rest) = c :: rest :=
  skip_append hws fun _ h => Option.some.inj h ▸ hc

theorem EndsNumber.close (hws : IsSpaces ws) (hc : c = ',' ∨ c = ']' ∨ c = '\x7d') (rest : List Char) :
    EndsNumber (ws ++ c :: rest) := by
  refine .spaces hws ?_
  rintro _ ⟨⟩
  rcases hc with rfl | rfl | rfl <;> decide

/-! ## Words -/

theorem word?_append (h : Word t v) (rest : List Char) : word? (t ++ rest) = some (v, rest) := by
  cases h <;> rfl

theorem word_sound (h : word? cs = some (v, rest)) : ∃ t, cs = t ++ rest ∧ Word t v := by
  have hwords : ∀ entry ∈ words, Word entry.1 entry.2 := by
    simp only [words, List.forall_mem_cons]
    exact ⟨.null, .yes, .no, .nan, .infinity, .minusInfinity, nofun⟩
  obtain ⟨⟨t, v'⟩, hmem, hread⟩ := List.exists_of_findSome?_eq_some h
  obtain ⟨rest', hrest, ⟨⟩⟩ := Option.map_eq_some_iff.mp hread
  rw [List.isPrefixOf?_eq_some_iff_append_eq] at hrest
  exact ⟨t, hrest.symm, hwords _ hmem⟩

theorem Word.front (h : Word t v) :
    ∃ c more, (t = c :: more ∨ t = '-' :: c :: more) ∧ ¬ ('0' ≤ c ∧ c ≤ '9') ∧ c ≠ '-' := by
  cases h with
  | minusInfinity => exact ⟨_, _, .inr rfl, by decide⟩
  | _ => exact ⟨_, _, .inl rfl, by decide⟩

/-- No number begins like a word. -/
theorem word?_number (h : IsNumber t v) (rest : List Char) : word? (t ++ rest) = none := by
  obtain ⟨negative, d, more, rfl, hd⟩ := h.front
  rw [Option.eq_none_iff_forall_ne_some]
  rintro ⟨v, rest⟩ hread
  obtain ⟨word, heq, hword⟩ := word_sound hread
  obtain ⟨c, tail, hfront, hc, hminus⟩ := hword.front
  cases negative <;> rcases hfront with rfl | rfl <;> injection heq with hhead htail
  · exact hc (hhead ▸ hd)
  · exact (digit_ne_sign hd).1 hhead
  · exact hminus hhead.symm
  · injection htail with hhead
    exact hc (hhead ▸ hd)

/-! ## Objects -/

theorem collects_iff {entries : Document} : Collects ms entries ↔ Entries.ofList ms = entries := by
  constructor
  · intro h
    refine Entries.ext (Entries.nodup_ofList ms) ((Entries.keys_ofList ms).trans h.keys.symm) fun name => ?_
    rw [Entries.get?_ofList, h.last]
  · rintro rfl
    exact ⟨Entries.keys_ofList ms, Entries.get?_ofList ms⟩

/-! ## Everything that is read is written in the text -/

-- the induction is on the steps that a reader may take, as in its definition
mutual
theorem value_sound : ∀ (n : Nat) {cs rest : List Char} {v : Value}, value digitLimit n cs = .ok (v, rest) →
    ∃ t, cs = t ++ rest ∧ IsValue t v
  | 0, cs, rest, v, h => by cases h
  | n + 1, cs, rest, v, h => by
      unfold value at h
      split at h
      · cases ‹n + 1 = 0›
      · obtain ⟨⟨s, rest⟩, htext, ⟨⟩⟩ := map_eq_ok_iff.mp h
        obtain ⟨body, rfl, hbody⟩ := text_eq_ok_iff.mp htext
        exact ⟨_, by simp, .text hbody⟩
      · rename_i n' opened hn
        cases hn
        obtain ⟨ws, hopened, hws⟩ := skip_sound opened
        split at h
        · rename_i hskip
          cases h
          rw [hopened, hskip]
          exact ⟨_, by simp, .emptyList hws⟩
        · obtain ⟨⟨vs, rest⟩, hitems, ⟨⟩⟩ := map_eq_ok_iff.mp h
          obtain ⟨t, ht, hvs⟩ := items_sound n hitems
          rw [hopened, ht]
          exact ⟨_, by simp, .list hws hvs⟩
      · rename_i n' opened hn
        cases hn
        obtain ⟨ws, hopened, hws⟩ := skip_sound opened
        split at h
        · rename_i hskip
          cases h
          rw [hopened, hskip]
          exact ⟨_, by simp, .emptyObject hws⟩
        · obtain ⟨⟨ms, rest⟩, hmembers, ⟨⟩⟩ := map_eq_ok_iff.mp h
          obtain ⟨t, ht, hms⟩ := members_sound n hmembers
          rw [hopened, ht]
          exact ⟨_, by simp, .object hws hms (collects_iff.mpr rfl)⟩
      · split at h
        · rename_i read hread
          cases h
          obtain ⟨t, rfl, hword⟩ := word_sound hread
          exact ⟨t, rfl, .word hword⟩
        · obtain ⟨t, rfl, hnumber⟩ := number_sound h
          exact ⟨t, rfl, .number hnumber⟩

theorem items_sound : ∀ (n : Nat) {cs rest : List Char} {vs : List Value},
    items digitLimit n cs = .ok (vs, rest) → ∃ t, cs = t ++ ']' :: rest ∧ IsItems t vs
  | 0, cs, rest, vs, h => by cases h
  | n + 1, cs, rest, vs, h => by
      obtain ⟨⟨v, tail⟩, hvalue, hmore⟩ := bind_eq_ok_iff.mp h
      obtain ⟨t, rfl, hv⟩ := value_sound n hvalue
      obtain ⟨ws, htail, hws⟩ := skip_sound tail
      dsimp only at hmore
      split at hmore
      · rename_i hskip
        cases hmore
        rw [htail, hskip]
        exact ⟨_, by simp, .one hv hws⟩
      · rename_i tail' hskip
        obtain ⟨⟨vs, rest⟩, hitems, ⟨⟩⟩ := map_eq_ok_iff.mp hmore
        obtain ⟨ts, hts, hvs⟩ := items_sound n hitems
        obtain ⟨ws', htail', hws'⟩ := skip_sound tail'
        rw [htail, hskip, htail', hts]
        exact ⟨_, by simp, .cons hv hws hws' hvs⟩
      · cases hmore

theorem members_sound : ∀ (n : Nat) {cs rest : List Char} {ms : List (String × Value)},
    members digitLimit n cs = .ok (ms, rest) → ∃ t, cs = t ++ '\x7d' :: rest ∧ IsMembers t ms
  | 0, cs, rest, ms, h => by cases h
  | n + 1, cs, rest, ms, h => by
      unfold members at h
      split at h
      · cases ‹n + 1 = 0›
      · rename_i n' opened hn
        cases hn
        obtain ⟨⟨name, tail⟩, htext, hmore⟩ := bind_eq_ok_iff.mp h
        obtain ⟨body, rfl, hname⟩ := text_eq_ok_iff.mp htext
        obtain ⟨ws, htail, hws⟩ := skip_sound tail
        dsimp only at hmore
        split at hmore
        · rename_i tail' hcolon
          obtain ⟨⟨v, after⟩, hvalue, hend⟩ := bind_eq_ok_iff.mp hmore
          obtain ⟨t, ht, hv⟩ := value_sound n hvalue
          obtain ⟨ws', htail', hws'⟩ := skip_sound tail'
          obtain ⟨ws'', hafter, hws''⟩ := skip_sound after
          have hmember : IsMember _ (name, v) := .mk hname hws hws' hv
          rw [htail, hcolon, htail', ht, hafter]
          dsimp only at hend
          split at hend
          · rename_i hskip
            cases hend
            rw [hskip]
            exact ⟨_, by simp, .one hmember hws''⟩
          · rename_i after' hskip
            obtain ⟨⟨ms, rest⟩, hmembers, ⟨⟩⟩ := map_eq_ok_iff.mp hend
            obtain ⟨ts, hts, hms⟩ := members_sound n hmembers
            obtain ⟨ws₃, hafter', hws₃⟩ := skip_sound after'
            rw [hskip, hafter', hts]
            exact ⟨_, by simp, .cons hmember hws'' hws₃ hms⟩
          · cases hend
        · cases hmore
      · cases h
end

/-! ## Everything that is written is read -/

/-- A value begins with a character of its own: it is no white space and closes nothing. -/
theorem IsValue.front (h : IsValue t v) :
    ∃ c more, t = c :: more ∧ isSpace c = false ∧ c ≠ ']' ∧ c ≠ '\uFEFF' := by
  cases h with
  | word hword => cases hword <;> exact ⟨_, _, rfl, by decide⟩
  | number hnumber =>
      obtain ⟨negative, d, more, rfl, hd⟩ := hnumber.front
      cases negative with
      | true => exact ⟨_, _, rfl, by decide⟩
      | false =>
          refine ⟨d, more, rfl, ?_, ?_, ?_⟩
          · rw [Bool.eq_false_iff, ne_eq, isSpace_iff]
            rintro (rfl | rfl | rfl | rfl) <;> exact absurd hd (by decide)
          all_goals
            rintro rfl
            exact absurd hd (by decide)
  | _ => exact ⟨_, _, rfl, by decide⟩

theorem IsItems.front (h : IsItems t vs) :
    ∃ c more, t = c :: more ∧ isSpace c = false ∧ c ≠ ']' := by
  cases h with
  | one hv _ | cons hv _ _ _ =>
      obtain ⟨c, more, rfl, hspace, hclose, -⟩ := hv.front
      exact ⟨c, _, rfl, hspace, hclose⟩

theorem IsMembers.front (h : IsMembers t ms) : ∃ more, t = '"' :: more := by
  cases h with
  | one hm _ | cons hm _ _ _ =>
      cases hm
      exact ⟨_, rfl⟩

/-- What does not begin a text, a list or an object is a word or a number. -/
theorem value_plain (h : ∀ c ∈ cs.head?, c ≠ '"' ∧ c ≠ '[' ∧ c ≠ '\x7b') :
    value digitLimit (n + 1) cs =
      match word? cs with
      | some read => .ok read
      | none => number digitLimit cs := by
  unfold value
  split
  · cases ‹n + 1 = 0›
  · exact absurd rfl (h '"' rfl).1
  · exact absurd rfl (h '[' rfl).2.1
  · exact absurd rfl (h '\x7b' rfl).2.2
  · rfl

theorem Word.head_plain (h : Word t v) (rest : List Char) :
    ∀ c ∈ (t ++ rest).head?, c ≠ '"' ∧ c ≠ '[' ∧ c ≠ '\x7b' := by
  cases h <;> (rintro _ ⟨⟩; decide)

theorem IsNumber.head_plain (h : IsNumber t v) (rest : List Char) :
    ∀ c ∈ (t ++ rest).head?, c ≠ '"' ∧ c ≠ '[' ∧ c ≠ '\x7b' := by
  obtain ⟨negative, d, more, rfl, hd⟩ := h.front
  cases negative <;> rintro _ ⟨⟩
  · refine ⟨?_, ?_, ?_⟩ <;> rintro rfl <;> exact absurd hd (by decide)
  · decide

/-- How reading goes on after a member of an object. -/
def membersAfter (n : Nat) (m : String × Value) (rest : List Char) : Reading (List (String × Value)) :=
  match skip rest with
  | '\x7d' :: rest => .ok ([m], rest)
  | ',' :: rest => (members digitLimit n (skip rest)).map fun (ms, rest) => (m :: ms, rest)
  | rest => complain .noComma rest

theorem members_succ {m : String × Value} (h : IsMember t m)
    (hread : ∀ {t' v}, IsValue t' v → t'.length ≤ t.length → value digitLimit n (t' ++ rest) = .ok (v, rest)) :
    members digitLimit (n + 1) (t ++ rest) = membersAfter n m rest := by
  obtain ⟨hname, hws, hws', hv⟩ := h
  obtain ⟨c, more, ht, hspace, -⟩ := hv.front
  have hvalue := hread hv (by simp; omega)
  simp only [List.cons_append, List.append_assoc]
  rw [members, text_eq_ok_iff.mpr ⟨_, rfl, hname⟩]
  simp only [Except.bind, skip_stop hws (c := ':') (by decide), skip_front hws' ht hspace, hvalue]
  rfl

-- two steps for each character are enough for every level of nesting
mutual
theorem value_complete : ∀ (n : Nat) {t : List Char} {v : Value}, IsValue t v → 2 * t.length ≤ n →
    ∀ rest, EndsNumber rest → value digitLimit n (t ++ rest) = .ok (v, rest)
  | 0, t, v, h, hn, rest, hrest => by
      obtain ⟨c, more, rfl, -⟩ := h.front
      simp at hn
  | n + 1, t, v, h, hn, rest, hrest => by
      cases h with
      | word hword => rw [value_plain (hword.head_plain rest), word?_append hword]
      | number hnumber =>
          rw [value_plain (hnumber.head_plain rest), word?_number hnumber, number_append hnumber hrest]
      | text hbody =>
          rw [List.cons_append, List.append_assoc, List.singleton_append, value,
            text_eq_ok_iff.mpr ⟨_, rfl, hbody⟩]
          rfl
      | emptyList hws =>
          rw [List.cons_append, List.append_assoc, List.singleton_append, value, skip_stop hws (by decide)]
          rfl
      | list hws hvs =>
          obtain ⟨c, more, ht, hspace, hclose⟩ := hvs.front
          have hitems := items_complete n hvs (by simp at hn; omega) rest
          rw [List.cons_append, List.append_assoc, List.append_assoc, List.singleton_append, value]
          rw [ht, List.cons_append] at hitems ⊢
          rw [skip_stop hws hspace]
          simp [hclose, hitems, Except.map]
      | emptyObject hws =>
          rw [List.cons_append, List.append_assoc, List.singleton_append, value, skip_stop hws (by decide)]
          rfl
      | object hws hms hentries =>
          obtain ⟨more, ht⟩ := hms.front
          have hmembers := members_complete n hms (by simp at hn; omega) rest
          rw [List.cons_append, List.append_assoc, List.append_assoc, List.singleton_append, value]
          rw [ht, List.cons_append] at hmembers ⊢
          rw [skip_stop hws (by decide)]
          simp [hmembers, Except.map, collects_iff.mp hentries]

theorem items_complete : ∀ (n : Nat) {t : List Char} {vs : List Value}, IsItems t vs → 2 * t.length + 1 ≤ n →
    ∀ rest, items digitLimit n (t ++ ']' :: rest) = .ok (vs, rest)
  | 0, t, vs, h, hn, rest => absurd hn (by omega)
  | n + 1, t, vs, h, hn, rest => by
      cases h with
      | one hv hws =>
          have hvalue := value_complete n hv (by simp at hn; omega) _ (.close hws (.inr (.inl rfl)) rest)
          rw [List.append_assoc, items, hvalue]
          simp only [Except.bind, skip_stop hws (c := ']') (by decide)]
      | @cons t ws ws' ts v vs hv hws hws' hvs =>
          obtain ⟨c, more, ht, hspace, -⟩ := hvs.front
          have hvalue := value_complete n hv (by simp at hn; omega) _
            (.close hws (.inl rfl) (ws' ++ (ts ++ ']' :: rest)))
          have hitems := items_complete n hvs (by simp at hn; omega) rest
          rw [List.append_assoc, List.append_assoc, List.cons_append, List.append_assoc, items, hvalue]
          simp only [Except.bind, skip_stop hws (c := ',') (by decide), skip_front hws' ht hspace, hitems]
          rfl

theorem members_complete : ∀ (n : Nat) {t : List Char} {ms : List (String × Value)}, IsMembers t ms →
    2 * t.length + 1 ≤ n → ∀ rest, members digitLimit n (t ++ '\x7d' :: rest) = .ok (ms, rest)
  | 0, t, ms, h, hn, rest => absurd hn (by omega)
  | n + 1, t, ms, h, hn, rest => by
      cases h with
      | one hm hws =>
          rw [List.length_append] at hn
          have hmember := members_succ hm fun hv hle =>
            value_complete n hv (by omega) _ (.close hws (.inr (.inr rfl)) rest)
          rw [List.append_assoc, hmember, membersAfter, skip_stop hws (by decide)]
          rfl
      | @cons t ws ws' ts m ms hm hws hws' hms =>
          obtain ⟨more, ht⟩ := hms.front
          rw [List.length_append, List.length_append, List.length_cons, List.length_append] at hn
          have hmember := members_succ hm fun hv hle =>
            value_complete n hv (by omega) _ (.close hws (.inl rfl) (ws' ++ (ts ++ '\x7d' :: rest)))
          have hmembers := members_complete n hms (by omega) rest
          rw [List.append_assoc, List.append_assoc, List.cons_append, List.append_assoc, hmember,
            membersAfter, skip_stop hws (by decide)]
          simp only [skip_front hws' ht (by decide), hmembers]
          rfl
end

/-- Texts are read as the grammar has them, and nothing else is read. -/
theorem read_eq_ok_iff : read digitLimit cs = .ok v ↔ IsJson cs v := by
  constructor
  · intro h
    unfold read at h
    split at h
    · cases h
    · obtain ⟨⟨v, rest⟩, hvalue, hend⟩ := bind_eq_ok_iff.mp h
      obtain ⟨before, hbefore, hws⟩ := skip_sound cs
      obtain ⟨t, ht, hv⟩ := value_sound _ hvalue
      obtain ⟨after, hafter, hws'⟩ := skip_sound rest
      dsimp only at hend
      split at hend
      · rename_i hnil
        cases hend
        rw [hnil, List.append_nil] at hafter
        exact ⟨before, t, after, by rw [← hafter, ← ht, ← hbefore], hws, hv, hafter ▸ hws'⟩
      · cases hend
  · rintro ⟨before, t, after, rfl, hws, hv, hws'⟩
    obtain ⟨c, more, ht, hspace, -, hmark⟩ := hv.front
    have hafter : skip (after ++ []) = [] := skip_append hws' nofun
    have hends : EndsNumber (after ++ []) := .spaces hws' nofun
    rw [List.append_nil] at hafter hends
    unfold read
    split
    · -- a byte order mark is no white space, and no value begins with it
      rename_i heq
      cases before with
      | nil =>
          rw [ht] at heq
          injection heq with hc
          exact absurd hc hmark
      | cons d before =>
          injection heq with hd
          have hspaces := hws d List.mem_cons_self
          rw [hd] at hspaces
          exact absurd hspaces (by decide)
    · rw [skip_front hws ht hspace, value_complete _ hv (by simp; omega) after hends]
      simp only [bind, Except.bind, hafter]

/-- A character outside the first plane, in escapes and as it is; and a power of ten makes no whole number. -/
example : read digitLimit " [\"\\ud83d\\uDE00\", \"😀\" ,-5e-1]".toList =
    .ok (.list [.text "😀", .text "😀", .float (.finite true (2 ^ 52) (-53))]) := by
  decide +kernel

end QueryPipeline.Json
