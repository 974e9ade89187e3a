import QueryPipeline.Crud.View
import QueryPipeline.Proofs.JsonDomain

/-!
Query objects as texts. A list request does with the text of a query object what it does with the query
object itself, and refuses every text that is not one.
-/

namespace QueryPipeline

namespace QueryText

/-- The query object that a request brings along: none without a text or with an empty one, else the JSON
object that the text denotes. -/
inductive Denotes : Option String → Document → Prop where
  | absent : Denotes none []
  | empty : Denotes (some "") []
  | json {s : String} {q : Document} (h : Json.IsJson s.toList (.object q)) : Denotes (some s) q

variable {text : Option String} {q : Document}

theorem read_eq_ok_iff : read text = .ok q ↔ Denotes text q := by
  constructor
  · intro h
    unfold read at h
    cases text with
    | none =>
        cases h
        exact .absent
    | some s =>
        dsimp only [Option.getD_some] at h
        split at h
        · rename_i hempty
          cases h
          obtain rfl : s = "" := by simpa using hempty
          exact .empty
        · split at h
          · cases h
          · rename_i hread
            cases h
            exact .json (Json.read_eq_ok_iff.mp hread)
          · cases h
  · rintro (_ | _ | @⟨s, q, h⟩)
    · rfl
    · rfl
    · have hs : ¬ s.toList.isEmpty := by
        obtain ⟨before, t, after, ht, -, hv, -⟩ := h
        obtain ⟨c, more, rfl, -⟩ := hv.front
        simp [ht]
      rw [read, Option.getD_some, if_neg hs, Json.read_eq_ok_iff.mpr h]

/-- A text is the text of a query object, or it is refused as unreadable. -/
theorem read_cases (text : Option String) :
    (∃ q, read text = .ok q) ∨ ∃ flaw, read text = .error flaw ∧ flaw.kind = .unreadable := by
  unfold read
  dsimp only
  split
  · exact .inl ⟨[], rfl⟩
  · split
    · exact .inr ⟨_, rfl, rfl⟩
    · exact .inl ⟨_, rfl⟩
    · exact .inr ⟨_, rfl, rfl⟩

end QueryText

namespace Crud.Desk

variable (around : Surroundings) (collection : Value)

theorem list_eq_listed {text : Option String} {q : Document} (h : QueryText.read text = .ok q) :
    list around collection text = listed around collection (.object q) := by
  unfold list
  rw [h]
  rfl

theorem list_eq_refuse {text : Option String} {flaw : Flaw} (h : QueryText.read text = .error flaw) :
    list around collection text = refuse flaw := by
  unfold list
  rw [h]
  rfl

/-- Every object of JSON can be sent as a text, and each of its texts is as good as the object itself. What
is no text of an object is refused as unreadable before anything else happens. -/
theorem list_text :
    (∀ q : Document, (Value.object q).InJson ↔ ∃ s : String, Json.IsJson s.toList (.object q)) ∧
    (∀ text q, QueryText.Denotes text q → QueryText.read text = .ok q ∧
      list around collection text = listed around collection (.object q)) ∧
    ∀ text, (∀ q, ¬ QueryText.Denotes text q) → ∃ flaw, flaw.kind = .unreadable ∧
      QueryText.read text = .error flaw ∧ list around collection text = refuse flaw := by
  refine ⟨fun q => Json.inJson_iff, fun text q h => ?_, fun text h => ?_⟩
  · have hread := QueryText.read_eq_ok_iff.mpr h
    exact ⟨hread, list_eq_listed around collection hread⟩
  · obtain ⟨q, hread⟩ | ⟨flaw, hread, hkind⟩ := QueryText.read_cases text
    · exact absurd (QueryText.read_eq_ok_iff.mp hread) (h q)
    · exact ⟨flaw, hkind, hread, list_eq_refuse around collection hread⟩

/-- An escape in a name and a name that comes twice; and a list, which is no query object. -/
theorem list_text_escaped :
    let around : Surroundings := { store := fun _ _ => .ok .null }
    let text := some "\x7b \"limit\": 1, \"sk\\u0069p\" :2\n,\"limit\":3\x7d"
    let q : Document := [("limit", .int 3), ("skip", .int 2)]
    (QueryText.read text = .ok q ∧
      list around (.text "users") text = listed around (.text "users") (.object q)) ∧
    ∃ flaw, flaw.kind = .unreadable ∧ QueryText.read (some "[\"skip\"]") = .error flaw ∧
      list around (.text "users") (some "[\"skip\"]") = refuse flaw := by
  intro around text q
  constructor
  · exact (list_text around (.text "users")).2.1 text q (.json (Json.read_eq_ok_iff.mp (by decide +kernel)))
  · refine (list_text around (.text "users")).2.2 _ fun q h => ?_
    have hlist : Json.read digitLimit "[\"skip\"]".toList = .ok (.list [.text "skip"]) := by decide +kernel
    have hread := QueryText.read_eq_ok_iff.mpr h
    rw [QueryText.read, Option.getD_some, if_neg (by decide), hlist] at hread
    cases hread

end Crud.Desk

end QueryPipeline
