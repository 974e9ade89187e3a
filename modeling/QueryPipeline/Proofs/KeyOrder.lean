import Mathlib.Data.List.Nodup
import Mathlib.Data.List.Perm.Basic
import QueryPipeline.Proofs.Omissions
import QueryPipeline.Proofs.Pagination

/-!
The order of a query object's keys. Gathering the keys into sections, one section after another, leaves a
query object whose sections are those that are looked up; so neither these nor the names of the keys that
mean nothing depend on the order, and a query takes the same from a query object in any order.
-/

namespace QueryPipeline

open Entries (get?)

namespace Entries

universe u v

variable {α : Type u} {β : Type v} {first second : Entries α β}

theorem nodup_of_perm (hn : (keys first).Nodup) (h : first.Perm second) : (keys second).Nodup :=
  (h.map _).nodup_iff.mp hn

variable [DecidableEq α]

/-- Values are found whatever the order of the entries. -/
theorem get?_perm (hn : (keys first).Nodup) (h : first.Perm second) (key : α) :
    get? second key = get? first key := by
  refine Option.ext fun v => ?_
  rw [← mem_iff_get? hn, ← mem_iff_get? (nodup_of_perm hn h), h.mem_iff]

theorem perm_of_get? (hf : (keys first).Nodup) (hs : (keys second).Nodup)
    (h : ∀ key, get? second key = get? first key) : first.Perm second := by
  refine (List.perm_ext_iff_of_nodup hf.of_map hs.of_map).mpr fun entry => ?_
  rw [mem_iff_get? hf, mem_iff_get? hs, h]

end Entries

namespace QueryObject

variable {object other : Document}

/-! ## Gathering the sections -/

theorem get?_gatherFilter (object : Document) (key : String) : get? (gatherFilter object) key =
    if key = "filter" then filter? object else if key = "conditions" then none else get? object key := by
  unfold gatherFilter filter?
  split
  · rename_i conditions hconditions
    simp [Entries.get?_put, Entries.get?_without, hconditions]
  · rename_i hnone
    by_cases hfilter : key = "filter"
    · simp [hfilter, hnone]
    · by_cases hconditions : key = "conditions" <;> simp [hconditions, hnone, hfilter]

theorem isSome_sort? (h : Sorting.keys.any (Entries.has object) = true) : (sort? object).isSome = true := by
  obtain ⟨key, hkey, hhas⟩ := List.any_eq_true.mp h
  have hsome : sortPart object ≠ [] := fun hnil => by
    rw [Entries.has, (sortPart_eq_nil_iff object).mp hnil key hkey] at hhas
    cases hhas
  rw [sort?, ← sortPart]
  split
  · exact absurd ‹_› hsome
  · rfl

theorem get?_gatherSort (object : Document) (key : String) : get? (gatherSort object) key =
    if key = "sort" then sort? object else if key ∈ Sorting.keys then none else get? object key := by
  unfold gatherSort
  split
  · rename_i hany
    obtain ⟨part, hpart⟩ := Option.isSome_iff_exists.mp (isSome_sort? hany)
    rw [Entries.get?_put, Entries.get?_without, hpart]
    rfl
  · rename_i hnone
    have hmissing : ∀ key ∈ Sorting.keys, get? object key = none := by
      simpa [Entries.has] using hnone
    by_cases hsort : key = "sort"
    · rw [if_pos hsort, sort?, ← sortPart, (sortPart_eq_nil_iff object).mpr hmissing, hsort]
    · rw [if_neg hsort]
      split
      · exact hmissing key ‹_›
      · rfl

theorem get?_gatherPage (object : Document) (key : String) : get? (gatherPage object) key =
    if key = "limit" then limit? object else if key ∈ Page.keys then none else get? object key := by
  unfold gatherPage limit?
  split
  · split
    · rename_i input hinput
      rw [Entries.get?_put, Entries.get?_without, hinput]
      rfl
    · rename_i hnone
      rw [Entries.get?_without, hnone]
      by_cases hlimit : key = "limit" <;> simp [hlimit]
  · rename_i hnone
    have hmissing : ∀ key ∈ Page.keys, get? object key = none := by
      simpa [Entries.has] using hnone
    by_cases hlimit : key = "limit"
    · rw [if_pos hlimit, hlimit]
    · rw [if_neg hlimit]
      split
      · exact hmissing key ‹_›
      · rfl

theorem limit?_congr (h : ∀ key ∈ "limit" :: Page.keys, get? other key = get? object key) :
    limit? other = limit? object := by
  have hhas := any_has_congr fun key hkey => h key (List.mem_cons_of_mem _ hkey)
  rw [limit?, hhas, page?_congr h, h "limit" List.mem_cons_self, limit?]

/-- The keys that are left when all sections are gathered: the sections, as they are looked up, and what
means nothing. -/
theorem get?_gathered (object : Document) (key : String) : get? (gathered object) key =
    if key = "filter" then filter? object
    else if key = "sort" then sort? object
    else if key = "limit" then limit? object
    else if key ∈ keys then none
    else get? object key := by
  have hsort : sort? (gatherFilter object) = sort? object := sort?_congr fun key hkey => by
    have hother : key ≠ "filter" ∧ key ≠ "conditions" := by revert key; decide
    rw [get?_gatherFilter, if_neg hother.1, if_neg hother.2]
  have hlimit : limit? (gatherSort (gatherFilter object)) = limit? object := limit?_congr fun key hkey => by
    have hother : key ≠ "sort" ∧ key ∉ Sorting.keys ∧ key ≠ "filter" ∧ key ≠ "conditions" := by
      revert key; decide
    rw [get?_gatherSort, if_neg hother.1, if_neg hother.2.1, get?_gatherFilter, if_neg hother.2.2.1,
      if_neg hother.2.2.2]
  rw [gathered, get?_gatherPage, get?_gatherSort, get?_gatherFilter, hsort, hlimit]
  simp only [keys, Sorting.keys, Page.keys, List.mem_append, List.mem_cons, List.not_mem_nil, or_false]
  grind

/-- The limit section is the same input again when it is taken out. -/
theorem pageIn?_limit? (object : Document) :
    pageIn? (Page.keys.any (Entries.has object)) (limit? object) = page? object := by
  unfold limit?
  cases hkeys : Page.keys.any (Entries.has object) with
  | true =>
      rw [if_pos rfl]
      cases page? object <;> rfl
  | false =>
      rw [if_neg Bool.false_ne_true, page?, hkeys, if_neg Bool.false_ne_true]
      rfl

theorem nodup_gathered (hn : (Entries.keys object).Nodup) : (Entries.keys (gathered object)).Nodup := by
  have hfilter : (Entries.keys (gatherFilter object)).Nodup := by
    unfold gatherFilter
    split
    · exact Entries.nodup_put (Entries.nodup_without hn _) _ _
    · exact hn
  have hsort : (Entries.keys (gatherSort (gatherFilter object))).Nodup := by
    unfold gatherSort
    split
    · exact Entries.nodup_put (Entries.nodup_without hfilter _) _ _
    · exact hfilter
  unfold gathered gatherPage
  split
  · split
    · exact Entries.nodup_put (Entries.nodup_without hsort _) _ _
    · exact Entries.nodup_without hsort _
  · exact hsort

/-! ## Query objects in another order -/

/-- The keys that mean nothing are named in one order, whatever theirs was. -/
theorem unknown_perm (hperm : object.Perm other) : unknown other = unknown object := by
  have hsorted (names : List String) :
      (names.mergeSort fun a b => decide (a ≤ b)).Pairwise fun a b => decide (a ≤ b) = true :=
    List.pairwise_mergeSort
      (fun a b c hab hbc => by simpa using String.le_trans (by simpa using hab) (by simpa using hbc))
      (fun a b => by simpa using String.le_total a b) names
  have hnames : ((Entries.keys other).filter fun key => !keys.contains key).Perm
      ((Entries.keys object).filter fun key => !keys.contains key) := (hperm.map _).symm.filter _
  refine List.Perm.eq_of_pairwise (fun a b _ _ hab hba => ?_) (hsorted _) (hsorted _)
    ((List.mergeSort_perm _ _).trans (hnames.trans (List.mergeSort_perm _ _).symm))
  exact String.le_antisymm (by simpa using hab) (by simpa using hba)

/-- The gathered sections are the same, in whatever order they come. -/
theorem gathered_perm (hn : (Entries.keys object).Nodup) (hperm : object.Perm other) :
    (gathered object).Perm (gathered other) := by
  have hget := Entries.get?_perm hn hperm
  refine Entries.perm_of_get? (nodup_gathered hn)
    (nodup_gathered (Entries.nodup_of_perm hn hperm)) fun key => ?_
  rw [get?_gathered, get?_gathered, filter?_congr fun key _ => hget key, sort?_congr fun key _ => hget key,
    limit?_congr fun key _ => hget key, hget]

end QueryObject

namespace Query

variable {object other : Document}

theorem checkKeys_perm (hperm : object.Perm other) (q : Query) : q.checkKeys other = q.checkKeys object := by
  rw [checkKeys, QueryObject.unknown_perm hperm, checkKeys]

theorem take_perm (hn : (Entries.keys object).Nodup) (hperm : object.Perm other) (q : Query) :
    q.take other = q.take object := by
  have hget := Entries.get?_perm hn hperm
  have hfilter := QueryObject.filter?_congr fun key _ => hget key
  have hsort := QueryObject.sort?_congr fun key _ => hget key
  have hpage := QueryObject.page?_congr fun key _ => hget key
  have hfill : q.fill other = q.fill object := by
    simp only [fill, hfilter, hsort, hpage]
  simp only [take, hfill]

end Query

/-- A query is given the sections that are gathered. -/
theorem Query.fill_gathered (q : Query) (object : Document) :
    q.fill object = q.fillWith (get? (QueryObject.gathered object) "filter")
      (get? (QueryObject.gathered object) "sort")
      (QueryObject.pageIn? (Page.keys.any (Entries.has object))
        (get? (QueryObject.gathered object) "limit")) := by
  have hlimit : get? (QueryObject.gathered object) "limit" = QueryObject.limit? object :=
    QueryObject.get?_gathered object "limit"
  rw [hlimit, QueryObject.pageIn?_limit?, QueryObject.get?_gathered, QueryObject.get?_gathered]
  rfl

/-- The order of a query object's keys is irrelevant. Its sections are gathered to the same, these are what
a query is given, and it comes to the same with them in any order: the pipeline or the fault, the lines that
it logs and what is left of the session included. -/
theorem Compiler.compile_perm (c : Compiler) (principal : Option Principal) {object other : Document}
    (hn : (Entries.keys object).Nodup) (hperm : object.Perm other) :
    c.compile principal other = c.compile principal object ∧
      (∀ (s : Session) (id : Nat), s.query id other = s.query id object) ∧
      (QueryObject.gathered object).Perm (QueryObject.gathered other) ∧
      ∀ q : Query, q.fill object = q.fillWith (get? (QueryObject.gathered object) "filter")
        (get? (QueryObject.gathered object) "sort")
        (QueryObject.pageIn? (Page.keys.any (Entries.has object))
          (get? (QueryObject.gathered object) "limit")) := by
  have hquery (s : Session) (id : Nat) : s.query id other = s.query id object := by
    simp only [Session.query, Query.checkKeys_perm hperm, Query.take_perm hn hperm]
  exact ⟨by simp only [compile, hquery], hquery, QueryObject.gathered_perm hn hperm,
    fun q => q.fill_gathered object⟩

/-- All sections are given under their own names too, and overruled; the limit by nothing but a null. -/
theorem Compiler.compile_perm_overruled :
    let c : Compiler :=
      { collection := .text "users"
        settings := .ofMap [("max_items", .value (.int 50))]
        ledger := none }
    let condition (field : String) : Value :=
      .object [("field", .text field), ("operator", .text ">"), ("value", .int 1)]
    let object : Document :=
      [("zeta", .null), ("limit", .int 7), ("conditions", .list [condition "age"]), ("sort", .int 1),
        ("limitCount", .null), ("filter", .list [condition "size"]), ("orderByField", .text "name")]
    ∃ p, c.compile none object = .ok p ∧ c.compile none object.reverse = .ok p ∧
      p.limit = some (.int 50) ∧ p.sort = [(.text "name", .descending)] ∧
      p.filter = [("age", .object [("$gt", .int 1)])] := by
  intro c condition object
  obtain ⟨p, hp, hlimit, hsort, hfilter⟩ : ∃ p, c.compile none object = .ok p ∧ p.limit = some (.int 50) ∧
      p.sort = [(.text "name", .descending)] ∧ p.filter = [("age", .object [("$gt", .int 1)])] :=
    ⟨_, by with_unfolding_all rfl, rfl, rfl, rfl⟩
  have hn : (Entries.keys object).Nodup := by simp [object, Entries.keys]
  have hsame := (c.compile_perm none hn object.reverse_perm.symm).1
  exact ⟨p, hp, hsame.trans hp, hlimit, hsort, hfilter⟩

end QueryPipeline
