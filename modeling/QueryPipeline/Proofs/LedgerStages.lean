import QueryPipeline.Proofs.Windows

/-! The stages of a ledger: what becomes of the documents within its scope, place by place. -/

namespace QueryPipeline

/-- The fields that the stages of a ledger set or take away. -/
def Ledger.computed (l : Ledger) : List String :=
  [l.amountCents, l.balanceCents, l.balance]

namespace Records

variable {δ : Type} (r : Records δ) (l : Ledger)

/-- The places of the documents within a scope. -/
def within (scope : Document) (docs : List δ) : List (δ × Nat) :=
  docs.zipIdx.filter fun p => r.engine.accepts scope p.1

/-- The document with its amount in cents, as the sums are made. -/
def priced (d : δ) : δ :=
  r.write l.amountCents (r.cents l.amount d) d

/-- The document with its balance. -/
def settle (cents : ℚ) (d : δ) : δ :=
  r.erase l.balanceCents (r.erase l.amountCents (r.write l.balance (.number (cents / 100))
    (r.write l.balanceCents (.number cents) (r.priced l d))))

/-- The sum that the stages of the ledger come to at a place. -/
def ledgerSum (places : List (δ × Nat)) (p : δ × Nat) : ℚ :=
  r.total l.account [l.date, l.tiebreak] l.amountCents
    (places.map fun p => (r.priced l p.1, p.2)) (r.priced l p.1, p.2)

variable {r l}

/-- The stages of the ledger keep every document, each with its balance. -/
theorem Lawful.ledger_places (h : r.Lawful) {places : List (δ × Nat)}
    (hp : places.Pairwise fun p q => p.2 < q.2) :
    (r.engine.run l.stages (places.map Prod.fst)).Perm
      (places.map fun p => r.settle l (r.ledgerSum l places p) p.1) := by
  let finish (d : δ) : δ :=
    r.erase l.balanceCents (r.erase l.amountCents (r.write l.balance (r.units l.balanceCents d) d))
  have hrun : r.engine.run l.stages (places.map Prod.fst) =
      (r.accumulate l.account [l.date, l.tiebreak] l.balanceCents l.amountCents
        ((places.map fun p => (r.priced l p.1, p.2)).map Prod.fst)).map finish := by
    show ((r.accumulate _ _ _ _ ((places.map Prod.fst).map (r.priced l))).map _).map _ = _
    simp only [List.map_map]
    rfl
  have hpriced : (places.map fun p => (r.priced l p.1, p.2)).Pairwise fun p q => p.2 < q.2 :=
    List.pairwise_map.mpr hp
  have hsums := h.accumulate_places l.account [l.date, l.tiebreak] l.balanceCents
    l.amountCents hpriced
  rw [hrun]
  refine (hsums.map finish).trans (.of_eq ?_)
  rw [List.map_map, List.map_map]
  refine List.map_congr_left fun p _ => ?_
  simp [finish, settle, ledgerSum, units, h.read_write]

theorem map_fst_within (scope : Document) (docs : List δ) :
    (r.within scope docs).map Prod.fst = docs.filter (r.engine.accepts scope) := by
  have h : (docs.zipIdx.map Prod.fst).filter (r.engine.accepts scope) =
      (r.within scope docs).map Prod.fst := List.filter_map
  rw [← h, List.zipIdx_map_fst]

theorem pairwise_within (scope : Document) (docs : List δ) :
    (r.within scope docs).Pairwise fun p q => p.2 < q.2 := by
  refine List.Pairwise.filter _ (List.pairwise_map.mp ?_)
  rw [List.zipIdx_map_snd]
  exact List.pairwise_lt_range'

theorem run_ledgerStages (scope : Document) (docs : List δ) :
    r.engine.run (Query.ledgerStages l scope) docs =
      r.engine.run l.stages (docs.filter (r.engine.accepts scope)) := by
  cases scope with
  | nil =>
      have hall : docs.filter (r.engine.accepts []) = docs :=
        List.filter_eq_self.mpr fun _ _ => rfl
      rw [hall]; rfl
  | cons entry rest => rfl

/-! ## The stages after those of the ledger -/

theorem Lawful.run_sort_perm (h : r.Lawful) (spec : SortSpec) (docs : List δ) :
    (r.engine.run spec.stages docs).Perm docs := by
  unfold SortSpec.stages
  split
  · exact .refl docs
  · exact h.arrange_perm spec docs

theorem Lawful.run_paging_sublist (h : r.Lawful) {stages : List Stage}
    (hs : ∀ stage ∈ stages, stage.isPaging = true) (docs : List δ) :
    (r.engine.run stages docs).Sublist docs := by
  induction stages generalizing docs with
  | nil => exact .refl docs
  | cons stage rest ih =>
      obtain ⟨hpaging, hrest⟩ := List.forall_mem_cons.mp hs
      have hstep : (r.engine.step stage docs).Sublist docs := by
        cases stage with
        | skip n => exact List.drop_sublist n.toNat docs
        | limit n => exact (h.cut_prefix n docs).sublist
        | _ => cases hpaging
      rw [run_cons]
      exact (ih hrest _).trans hstep

end Records

end QueryPipeline
