import Mathlib.Algebra.BigOperators.Group.List.Basic
import Mathlib.Data.List.Perm.Basic
import QueryPipeline.Proofs.Records

/-!
Running sums. Documents are told apart by their places in the store; after the sort, each of them
holds the sum over the places of its partition up to its own.
-/

namespace QueryPipeline.Records

variable {δ : Type} (r : Records δ)

/-- Whether a place comes before another, or is the same: by the ascending order of fields, and where
this leaves them equal, by the order of the store. -/
def upTo (order : List String) (p q : δ × Nat) : Bool :=
  r.precedes order p.1 q.1 && (!r.precedes order q.1 p.1 || decide (p.2 ≤ q.2))

/-- Whether a place comes before another one. -/
def Before (order : List String) (p q : δ × Nat) : Prop :=
  r.upTo order p q = true ∧ r.upTo order q p = false

/-- The sum of a field over the places up to this one, of those with the same value in the field of
the partition. -/
def total (partition : String) (order : List String) (source : String) (places : List (δ × Nat))
    (p : δ × Nat) : ℚ :=
  ((places.filter fun q => decide (r.read partition q.1 = r.read partition p.1) && r.upTo order q p).map
    fun q => Datum.amount (r.read source q.1)).sum

variable {r} {order : List String}

/-! ## Sorting -/

theorem Lawful.upTo_self (h : r.Lawful) (p : δ × Nat) : r.upTo order p p = true := by
  have htotal := h.precedes_total order p.1 p.1
  rw [Bool.or_self] at htotal
  simp [upTo, htotal]

theorem before_of_lt {p q : δ × Nat} (hle : r.precedes order p.1 q.1 = true) (hlt : p.2 < q.2) :
    r.Before order p q := by
  simp [Before, upTo, hle, hlt]
  omega

theorem Lawful.before_of_not (h : r.Lawful) {p q : δ × Nat}
    (hnot : r.precedes order q.1 p.1 = false) : r.Before order p q := by
  have hor := h.precedes_total order q.1 p.1
  rw [hnot, Bool.false_or] at hor
  simp [Before, upTo, hnot, hor]

/-- The sort, seen at the places: it is the same for the documents, and leaves the places in order. -/
theorem Lawful.sort_places (h : r.Lawful) (order : List String) {places : List (δ × Nat)}
    (hp : places.Pairwise fun p q => p.2 < q.2) :
    ∃ sorted : List (δ × Nat), sorted.Perm places ∧ sorted.Pairwise (r.Before order) ∧
      sorted.map Prod.fst = (places.map Prod.fst).mergeSort (r.precedes order) := by
  have htrans := h.precedes_trans order
  have htotal := h.precedes_total order
  induction places with
  | nil => exact ⟨[], .nil, .nil, by simp⟩
  | cons p rest ih =>
      obtain ⟨hhead, hrest⟩ := List.pairwise_cons.mp hp
      obtain ⟨sorted, hperm, hbefore, hmap⟩ := ih hrest
      obtain ⟨front, back, hnew, hold, hfront⟩ :=
        List.mergeSort_cons htrans htotal p.1 (rest.map Prod.fst)
      have hback : ∀ d ∈ back, r.precedes order p.1 d = true := by
        have hsorted := List.pairwise_mergeSort htrans htotal (p.1 :: rest.map Prod.fst)
        rw [hnew, List.pairwise_append] at hsorted
        exact (List.pairwise_cons.mp hsorted.2.1).1
      rw [hold] at hmap
      obtain ⟨before, after, rfl, rfl, rfl⟩ := List.map_eq_append_iff.mp hmap
      refine ⟨before ++ p :: after, ?_, ?_, by simp [hnew]⟩
      · exact List.perm_middle.trans (hperm.cons p)
      · -- What has moved before the place precedes it strictly; what stays after it comes later in
        -- the store, so that its number decides where they are equal.
        rw [List.pairwise_append] at hbefore ⊢
        obtain ⟨hb, ha, hba⟩ := hbefore
        have hlate : ∀ q ∈ after, r.Before order p q := by
          intro q hq
          have hlt := hhead q (hperm.subset (List.mem_append_right _ hq))
          exact before_of_lt (hback q.1 (List.mem_map_of_mem hq)) hlt
        have hearly : ∀ q ∈ before, r.Before order q p := by
          intro q hq
          exact h.before_of_not (Bool.not_eq_true' _ ▸ hfront q.1 (List.mem_map_of_mem hq))
        refine ⟨hb, List.pairwise_cons.mpr ⟨hlate, ha⟩, fun q hq q' hq' => ?_⟩
        rcases List.mem_cons.mp hq' with rfl | hq'
        · exact hearly q hq
        · exact hba q hq q' hq'

/-! ## Summing up -/

/-- Over places in order, each document gets the sum up to its own place. -/
theorem totals_places (h : r.Lawful) (target source : String) (sum : ℚ) {places : List (δ × Nat)}
    (hp : places.Pairwise (r.Before order)) :
    r.totals target source sum (places.map Prod.fst) = places.map fun p =>
      r.write target (.number (sum + ((places.filter fun q => r.upTo order q p).map
        fun q => Datum.amount (r.read source q.1)).sum)) p.1 := by
  induction places generalizing sum with
  | nil => rfl
  | cons p rest ih =>
      obtain ⟨hhead, hrest⟩ := List.pairwise_cons.mp hp
      have hself : (p :: rest).filter (fun q => r.upTo order q p) = [p] := by
        have hlater : rest.filter (fun q => r.upTo order q p) = [] := by
          rw [List.filter_eq_nil_iff]
          intro q hq
          simp [(hhead q hq).2]
        rw [List.filter_cons, if_pos (h.upTo_self p), hlater]
      simp only [List.map_cons, totals, hself, List.map_nil, List.sum_cons, List.sum_nil, add_zero]
      refine congrArg _ ?_
      rw [ih _ hrest]
      refine List.map_congr_left fun q hq => ?_
      rw [List.filter_cons, if_pos (hhead q hq).1, List.map_cons, List.sum_cons, add_assoc]

/-- Documents put together from their partitions. -/
theorem flatMap_filter_perm {α κ : Type} [DecidableEq κ] {keys : List κ} (hk : keys.Nodup)
    (key : α → κ) {xs : List α} (hx : ∀ x ∈ xs, key x ∈ keys) :
    (keys.flatMap fun k => xs.filter fun x => decide (key x = k)).Perm xs := by
  induction keys generalizing xs with
  | nil =>
      cases xs with
      | nil => exact .nil
      | cons x rest => exact absurd (hx x List.mem_cons_self) List.not_mem_nil
  | cons k rest ih =>
      obtain ⟨hnot, hrest⟩ := List.nodup_cons.mp hk
      have hothers : ∀ x ∈ xs.filter (fun x => !decide (key x = k)), key x ∈ rest := by
        intro x hmem
        obtain ⟨hmem, hne⟩ := List.mem_filter.mp hmem
        rcases List.mem_cons.mp (hx x hmem) with he | hr
        · simp [he] at hne
        · exact hr
      have hsame : (rest.flatMap fun k' => xs.filter fun x => decide (key x = k')) =
          rest.flatMap fun k' =>
            (xs.filter fun x => !decide (key x = k)).filter fun x => decide (key x = k') := by
        refine List.flatMap_congr fun k' hk' => ?_
        rw [List.filter_filter]
        refine List.filter_congr fun x _ => ?_
        have hne : k' ≠ k := by
          rintro rfl
          exact hnot hk'
        by_cases he : key x = k'
        · simp [he, hne]
        · simp [he]
      rw [List.flatMap_cons, hsame]
      exact ((ih hrest hothers).append_left _).trans (List.filter_append_perm _ xs)

/-- The sums of one partition are the totals at its places. -/
theorem Lawful.totals_part (h : r.Lawful) (partition : String) (order : List String)
    (target source : String) (x : Option Datum) {places : List (δ × Nat)}
    (hp : places.Pairwise fun p q => p.2 < q.2) :
    (r.totals target source 0
        ((r.part partition x (places.map Prod.fst)).mergeSort (r.precedes order))).Perm
      ((places.filter fun p => decide (r.read partition p.1 = x)).map fun p =>
        r.write target (.number (r.total partition order source places p)) p.1) := by
  let group := places.filter fun p => decide (r.read partition p.1 = x)
  have hgroup : group.Pairwise fun p q => p.2 < q.2 := hp.filter _
  have hpart : r.part partition x (places.map Prod.fst) = group.map Prod.fst := by
    rw [part, List.filter_map]; rfl
  obtain ⟨sorted, hperm, hbefore, hmap⟩ := h.sort_places order hgroup
  rw [hpart, ← hmap, totals_places h target source 0 hbefore]
  refine (List.Perm.of_eq (List.map_congr_left fun p hmem => ?_)).trans (hperm.map _)
  have hx : r.read partition p.1 = x := by
    simpa using (List.mem_filter.mp (hperm.subset hmem)).2
  have hfilter : (sorted.filter fun q => r.upTo order q p).Perm (places.filter fun q =>
      decide (r.read partition q.1 = r.read partition p.1) && r.upTo order q p) := by
    refine (hperm.filter _).trans ?_
    rw [List.filter_filter, hx]
    simp only [Bool.and_comm]
    exact .refl _
  rw [zero_add, (hfilter.map _).sum_eq]
  rfl

/-- After the sums, each document holds the total at its place, whatever the order they are in. -/
theorem Lawful.accumulate_places (h : r.Lawful) (partition : String) (order : List String)
    (target source : String) {places : List (δ × Nat)}
    (hp : places.Pairwise fun p q => p.2 < q.2) :
    (r.accumulate partition order target source (places.map Prod.fst)).Perm
      (places.map fun p => r.write target (.number (r.total partition order source places p)) p.1) := by
  let keys := (places.map fun p => r.read partition p.1).dedup
  have hparts : r.accumulate partition order target source (places.map Prod.fst) =
      keys.flatMap fun x => r.totals target source 0
        ((r.part partition x (places.map Prod.fst)).mergeSort (r.precedes order)) := by
    rw [accumulate, List.map_map]; rfl
  have hkeys : ∀ p ∈ places, r.read partition p.1 ∈ keys := by
    intro p hmem
    exact List.mem_dedup.mpr (List.mem_map_of_mem hmem)
  have hsums := List.Perm.flatMap_left keys fun x _ =>
    h.totals_part partition order target source x hp
  rw [hparts]
  refine hsums.trans ?_
  rw [← List.map_flatMap]
  exact (flatMap_filter_perm (List.nodup_dedup _) _ hkeys).map _

end QueryPipeline.Records
