import QueryPipeline.Proofs.LeadingDigits
import QueryPipeline.Template

/-!
Texts that are placeholders: double braces around a name, with or without white space at its sides, and
nothing before or after them. A text has at most one such name, and it is the one that is found.
-/

namespace QueryPipeline

/-- The code points of white space. -/
def Text.blankPoints : List Nat :=
  List.range' 0x09 5 ++ List.range' 0x1C 5 ++ [0x85, 0xA0, 0x1680] ++ List.range' 0x2000 11 ++
    [0x2028, 0x2029, 0x202F, 0x205F, 0x3000]

theorem Text.mem_blankPoints {c : Char} (h : isBlank c = true) : c.toNat ∈ blankPoints := by
  simp only [isBlank, Bool.or_eq_true, Bool.and_eq_true, decide_eq_true_eq, beq_iff_eq] at h
  simp only [blankPoints, List.mem_append, List.mem_range'_1, List.mem_cons, List.not_mem_nil, or_false]
  omega

/-- No white space is a word character. -/
theorem Text.isWord_of_isBlank {c : Char} (h : isBlank c = true) : isWord c = false := by
  have htable : blankPoints.all (fun n => wordRanges.all fun r => n.blt r.1 || r.2.blt n) = true := by
    decide +kernel
  simp only [List.all_eq_true, Bool.or_eq_true, Nat.blt_eq] at htable
  refine Bool.eq_false_iff.mpr fun hword => ?_
  obtain ⟨r, hr, hlow, hhigh⟩ := inRanges_iff.mp hword
  have hapart := htable c.toNat (mem_blankPoints h) r hr
  omega

namespace Template

open Text

/-- The text is a placeholder of this name. -/
def IsPlaceholder (cs name : List Char) : Prop :=
  ∃ before after, cs = '\x7b' :: '\x7b' :: (before ++ (name ++ (after ++ ['\x7d', '\x7d']))) ∧
    (∀ c ∈ before, isBlank c = true) ∧ name ≠ [] ∧ (∀ c ∈ name, isWord c = true) ∧
    ∀ c ∈ after, isBlank c = true

variable {cs name : List Char}

theorem isPlaceholder_of_nameIn? (h : nameIn? cs = some name) : IsPlaceholder cs name := by
  unfold nameIn? at h
  split at h
  · rename_i rest
    dsimp only at h
    split at h
    · rename_i hname
      obtain ⟨hne, hend⟩ := hname
      cases h
      refine ⟨rest.takeWhile isBlank, ((rest.dropWhile isBlank).dropWhile isWord).takeWhile isBlank, ?_,
        fun c hc => List.mem_takeWhile_imp hc, hne, fun c hc => List.mem_takeWhile_imp hc,
        fun c hc => List.mem_takeWhile_imp hc⟩
      rw [← hend, List.takeWhile_append_dropWhile, List.takeWhile_append_dropWhile,
        List.takeWhile_append_dropWhile]
    · cases h
  · cases h

theorem nameIn?_of_isPlaceholder (h : IsPlaceholder cs name) : nameIn? cs = some name := by
  obtain ⟨before, after, rfl, hbefore, hne, hname, hafter⟩ := h
  have hblankEnd : ∀ c ∈ ['\x7d', '\x7d'].head?, isBlank c = false := by
    rintro _ ⟨⟩
    decide
  have hwordEnd : ∀ c ∈ ['\x7d', '\x7d'].head?, isWord c = false := by
    rintro _ ⟨⟩
    decide +kernel
  -- Each run stops at the next one, since no two of the classes have a character in common.
  have hstart : ∀ c ∈ (name ++ (after ++ ['\x7d', '\x7d'])).head?, isBlank c = false := by
    obtain ⟨c, more, rfl⟩ := List.exists_cons_of_ne_nil hne
    rintro _ ⟨⟩
    have hc := hname c List.mem_cons_self
    cases hblank : isBlank c with
    | false => rfl
    | true => cases hc.symm.trans (isWord_of_isBlank hblank)
  have hstop : ∀ c ∈ (after ++ ['\x7d', '\x7d']).head?, isWord c = false := by
    cases after with
    | nil => exact hwordEnd
    | cons c after =>
        rintro _ ⟨⟩
        exact isWord_of_isBlank (hafter c List.mem_cons_self)
  obtain ⟨-, hdropBefore⟩ := takeWhile_append_stop hbefore hstart
  obtain ⟨htake, hdrop⟩ := takeWhile_append_stop hname hstop
  obtain ⟨-, hdropAfter⟩ := takeWhile_append_stop hafter hblankEnd
  simp only [nameIn?, hdropBefore, htake, hdrop, hdropAfter]
  rw [if_pos ⟨hne, trivial⟩]

theorem nameIn?_eq_some_iff : nameIn? cs = some name ↔ IsPlaceholder cs name :=
  ⟨isPlaceholder_of_nameIn?, nameIn?_of_isPlaceholder⟩

theorem name?_eq_some_iff {s name : String} :
    name? (.text s) = some name ↔ IsPlaceholder s.toList name.toList := by
  rw [← nameIn?_eq_some_iff, name?, Option.map_eq_some_iff]
  constructor
  · rintro ⟨cs, hcs, rfl⟩
    rwa [String.toList_ofList]
  · exact fun h => ⟨name.toList, h, String.ofList_toList⟩

/-- The name that is found in a text is the one that makes it a placeholder. There is at most one, and
where there is none, none is found. -/
theorem name?_text (s : String) :
    (∀ name, name? (.text s) = some name ↔ IsPlaceholder s.toList name.toList) ∧
    (∀ name other : String, IsPlaceholder s.toList name.toList → IsPlaceholder s.toList other.toList →
      name = other) ∧
    (name? (.text s) = none ↔ ∀ name : String, ¬ IsPlaceholder s.toList name.toList) := by
  refine ⟨fun name => name?_eq_some_iff, fun name other hname hother => ?_, ?_⟩
  · rw [← name?_eq_some_iff] at hname hother
    exact Option.some.inj (hname.symm.trans hother)
  · simp only [← name?_eq_some_iff]
    exact Option.eq_none_iff_forall_ne_some

/-- A line feed inside the braces is white space, but after them it is too much. -/
example : name? (.text "\x7b\x7b\n id_1 \x7d\x7d") = some "id_1" ∧
    name? (.text "\x7b\x7bid_1\x7d\x7d\n") = none := by decide +kernel

end Template

end QueryPipeline
