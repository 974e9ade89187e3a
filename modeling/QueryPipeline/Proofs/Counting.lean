import QueryPipeline.Proofs.FlatStore
import QueryPipeline.Proofs.LedgerStages

/-!
The count of a query beside the documents that its pipeline gives. The count looks at documents as
they are stored, the pipeline's filter at what the stages of the ledger have made of them.
-/

namespace QueryPipeline

open Entries (keys get?)

/-- Whether an entry of a filter can look at a field. One whose key is an operator can look at any. -/
def Touches (key field : String) : Prop :=
  ['$'] <+: key.toList ∨ Overlap key field

instance (key field : String) : Decidable (Touches key field) :=
  inferInstanceAs (Decidable (['$'] <+: key.toList ∨ Overlap key field))

/-- An entry of a filter looks at nothing but its field, and at what it leads to. -/
structure Records.Local {δ : Type} (r : Records δ) : Prop where
  holds_write {key f : String} (v : Value) (x : Datum) (d : δ) :
    ¬ Touches key f → r.holds key v (r.write f x d) = r.holds key v d
  holds_erase {key f : String} (v : Value) (d : δ) :
    ¬ Touches key f → r.holds key v (r.erase f d) = r.holds key v d

namespace Records

variable {δ : Type} {r : Records δ} {l : Ledger} {q : Query} {object : Document} {filter : Filter}
  {sort : SortSpec} {page : Page}

theorem Lawful.length_unpaged (h : r.Lawful) (docs : List δ) :
    (r.engine.run (q.assemble filter sort page).unpaged docs).length =
      r.engine.count filter.statement (r.engine.run (q.stagesBefore filter) docs) := by
  rw [Query.unpaged_assemble, Engine.run_append, Engine.run_keep,
    (h.run_sort_perm sort _).length_eq]
  rfl

theorem count_assemble (hreads : q.Reads object filter sort page) (docs : List δ) :
    r.engine.count (q.assemble filter sort page).countFilter docs =
      r.engine.count filter.statement (docs.filter (r.engine.accepts (q.scopeFor filter))) := by
  have hmerge := r.engine.accepts_merge hreads.scope_agree (q.nodup_scopeFor filter)
    filter.nodup_statement
  rw [Engine.count, Engine.count, List.filter_filter]
  refine congrArg List.length (List.filter_congr fun d _ => ?_)
  rw [Bool.and_comm]
  exact hmerge d

theorem Local.accepts_settle (h : r.Local) {f : Document}
    (hf : ∀ key ∈ keys f, ∀ field ∈ l.computed, ¬ Touches key field) (cents : ℚ) (d : δ) :
    r.engine.accepts f (r.settle l cents d) = r.engine.accepts f d := by
  rw [Bool.eq_iff_iff, Engine.accepts, Engine.accepts, List.all_eq_true, List.all_eq_true]
  refine forall₂_congr fun entry hmem => ?_
  have hkey := hf entry.1 (Entries.mem_keys_of_mem hmem)
  simp only [Ledger.computed, List.forall_mem_cons] at hkey
  obtain ⟨ha, hb, hbalance, -⟩ := hkey
  have hholds : r.holds entry.1 entry.2 (r.settle l cents d) = r.holds entry.1 entry.2 d := by
    rw [settle, h.holds_erase _ _ hb, h.holds_erase _ _ ha, h.holds_write _ _ _ hbalance,
      h.holds_write _ _ _ hb, priced, h.holds_write _ _ _ ha]
  exact iff_of_eq (congrArg (· = true) hholds)

/-- Where no condition looks at a field that the ledger's stages touch, the count is right. -/
theorem Lawful.count_eq (h : r.Lawful) (hlocal : r.Local) (hreads : q.Reads object filter sort page)
    (hfree : ∀ l, q.activeLedger = some l → ∀ key ∈ keys filter.statement, ∀ f ∈ l.computed,
      ¬ Touches key f) (docs : List δ) :
    r.engine.count (q.assemble filter sort page).countFilter docs =
      (r.engine.run (q.assemble filter sort page).unpaged docs).length := by
  rw [h.length_unpaged, count_assemble hreads]
  unfold Query.stagesBefore
  cases hl : q.activeLedger with
  | none =>
      have hscope : q.scopeFor filter = [] := by simp [Query.scopeFor, hl]
      have hall : docs.filter (r.engine.accepts []) = docs := List.filter_eq_self.mpr fun _ _ => rfl
      rw [hscope, hall]
      rfl
  | some l =>
      have hledger := h.ledger_places (l := l) (pairwise_within (r := r) (q.scopeFor filter) docs)
      have hplain : ∀ (p : δ × Nat) cents, r.engine.accepts filter.statement (r.settle l cents p.1) =
          r.engine.accepts filter.statement p.1 :=
        fun p cents => hlocal.accepts_settle (hfree l hl) cents p.1
      simp only
      rw [run_ledgerStages, ← map_fst_within, Engine.count, Engine.count,
        (hledger.filter _).length_eq, List.filter_map, List.filter_map, List.length_map,
        List.length_map]
      simp only [Function.comp_def, hplain]

end Records

/-! ## Where the count goes wrong -/

namespace Flat

/-- The store in which entries under one key ask whether a field is there, or not, and all others
hold of any document. -/
def watching (key field : String) (isThere : Bool) : Records Flat :=
  store fun k _ d => decide (k ≠ key) || (Entries.has d field == isThere)

theorem watching_local {key field : String} (h : Touches key field) (isThere : Bool) :
    (watching key field isThere).Local := by
  have hapart : ∀ {f}, ¬ Touches key f → f ≠ field := by
    rintro f hnot rfl
    exact hnot h
  constructor
  · intro k f v x d hnot
    by_cases hk : k = key
    · subst hk
      have hsame := Entries.get?_put_of_ne d x (hapart hnot).symm
      simp [watching, store, Entries.has, hsame]
    · simp [watching, store, hk]
  · intro k f v d hnot
    by_cases hk : k = key
    · subst hk
      have hne : field ∉ [f] := by simpa using (hapart hnot).symm
      simp [watching, store, Entries.has, Entries.get?_without, hne]
    · simp [watching, store, hk]

theorem plain_local : plain.Local := by
  constructor
  · intro key f v x d hnot
    have hne : key ≠ f := fun h => hnot (.inr (.inl h))
    exact congrArg (Datum.meets · v) (Entries.get?_put_of_ne d x hne)
  · intro key f v d hnot
    have hne : key ∉ [f] := fun h => hnot (.inr (.inl (List.mem_singleton.mp h)))
    exact congrArg (Datum.meets · v) ((Entries.get?_without d [f] key).trans (if_neg hne))

variable {holds : String → Value → Flat → Bool} {l : Ledger}

theorem run_ledger_single (r : Records Flat) (h : r.Lawful) (l : Ledger) (d : Flat) :
    ∃ cents, r.engine.run l.stages [d] = [r.settle l cents d] := by
  have hplaces : [(d, 0)].Pairwise fun p q : Flat × Nat => p.2 < q.2 := List.pairwise_singleton _ _
  have hledger := h.ledger_places (l := l) hplaces
  exact ⟨_, List.perm_singleton.mp hledger⟩

/-- The stages of a ledger take a field away, or set it. -/
theorem has_settle (l : Ledger) (cents : ℚ) (d : Flat) {f : String} (hf : f ∈ l.computed) :
    Entries.has ((store holds).settle l cents d) f = !decide (f ∈ [l.amountCents, l.balanceCents]) := by
  have hsettle : get? ((store holds).settle l cents d) f =
      if f = l.balanceCents then none
      else if f = l.amountCents then none
      else get? ((store holds).write l.balance (.number (cents / 100))
        ((store holds).write l.balanceCents (.number cents) ((store holds).priced l d))) f := by
    simp [Records.settle, store, Entries.get?_without]
  rw [Entries.has, hsettle]
  by_cases hb : f = l.balanceCents
  · simp [hb]
  · by_cases ha : f = l.amountCents
    · simp [ha]
    · have hbalance : f = l.balance := by simpa [Ledger.computed, ha, hb] using hf
      subst hbalance
      simp [ha, hb, store, Entries.get?_put_self]

/-- Where a condition looks at a field that the ledger's stages touch, there is a store in which a
document is counted that the pipeline does not give. -/
theorem exists_miscount {q : Query} {object : Document} {filter : Filter} {sort : SortSpec} {page : Page}
    (hreads : q.Reads object filter sort page) (hl : q.activeLedger = some l) {key field : String}
    (hkey : key ∈ keys filter.statement) (hfield : field ∈ l.computed) (htouch : Touches key field) :
    ∃ r : Records Flat, r.Lawful ∧ r.Local ∧ ∃ d,
      r.engine.count (q.assemble filter sort page).countFilter [d] = 1 ∧
      (r.engine.run (q.assemble filter sort page).unpaged [d]).length = 0 := by
  let dropped : Bool := decide (field ∈ [l.amountCents, l.balanceCents])
  let d : Flat := if dropped then [(field, .number 0)] else []
  have hd : Entries.has d field = dropped := by
    cases hdropped : dropped <;> simp [d, hdropped, Entries.has, get?]
  let r := watching key field dropped
  have hlawful : r.Lawful := store_lawful _
  have hstored : ∀ f : Document, r.engine.accepts f d = true := by
    intro f
    refine List.all_eq_true.mpr fun entry _ => ?_
    show (decide (entry.1 ≠ key) || (Entries.has d field == dropped)) = true
    simp [hd]
  have hscope : [d].filter (r.engine.accepts (q.scopeFor filter)) = [d] := by
    simp [hstored]
  refine ⟨r, hlawful, watching_local htouch dropped, d, ?_, ?_⟩
  · rw [Records.count_assemble hreads, hscope, Engine.count]
    simp [hstored]
  · obtain ⟨cents, hrun⟩ := run_ledger_single r hlawful l d
    obtain ⟨v, hv⟩ := Entries.exists_of_mem_keys hkey
    have hgiven : r.engine.accepts filter.statement (r.settle l cents d) = false := by
      rw [Bool.eq_false_iff]
      intro haccepts
      have hholds : (decide (key ≠ key) || (Entries.has (r.settle l cents d) field == dropped)) = true :=
        r.engine.holds_of_accepts haccepts hv
      have hflip : Entries.has (r.settle l cents d) field = !dropped := has_settle l cents d hfield
      rw [hflip, Bool.not_beq_self] at hholds
      simp at hholds
    rw [hlawful.length_unpaged, Query.stagesBefore, hl]
    show r.engine.count filter.statement (r.engine.run (Query.ledgerStages l _) [d]) = 0
    rw [Records.run_ledgerStages, hscope, hrun, Engine.count]
    simp [hgiven]

end Flat

/-- The count of a query is right in every store exactly when none of its conditions looks at a field
that the stages of its ledger set or take away. -/
theorem Compiler.count_matches_iff {c : Compiler} (hs : c.settings.NamesOwner)
    {principal : Option Principal} {object : Document} {p : Pipeline}
    (hp : c.compile principal object = .ok p) :
    (∀ (δ : Type) (r : Records δ), r.Lawful → r.Local → ∀ docs : List δ,
      r.engine.count p.countFilter docs = (r.engine.run p.unpaged docs).length) ↔
    ∀ l, c.ledger = some l → c.settings.isEnabled .balance = true → ∀ key ∈ keys p.filter,
      ∀ f ∈ l.computed, ¬ Touches key f := by
  let q : Query := { compiler := c, principal }
  rw [c.compile_eq] at hp
  obtain ⟨filter, sort, page, hreads, rfl⟩ := Query.compile_ok (q := q) rfl hs hp
  constructor
  · intro hcount l hledger henabled key hkey f hf htouch
    have hl : q.activeLedger = some l := by simp [q, Query.activeLedger, henabled, hledger]
    obtain ⟨r, hlawful, hlocal, d, hone, hzero⟩ := Flat.exists_miscount hreads hl hkey hf htouch
    have hsame := hcount Flat r hlawful hlocal [d]
    rw [hone, hzero] at hsame
    exact Nat.one_ne_zero hsame
  · intro hfree δ r hlawful hlocal docs
    refine hlawful.count_eq hlocal hreads (fun l hl => ?_) docs
    simp only [Query.activeLedger, Option.ite_none_right_eq_some] at hl
    exact hfree l hl.2 hl.1

/-- The balance is computed before the filter asks for it, and after the count has looked for it. -/
theorem Compiler.count_misses_balance :
    let object : Document := [("conditions", .list [.object [("field", .text "balance"),
      ("operator", .text "exists"), ("value", .bool true)]])]
    ∃ p, usualLedger.compile none object = .ok p ∧ Flat.plain.Lawful ∧ Flat.plain.Local ∧
      Flat.plain.engine.count p.countFilter [[("amount", .number 5)]] = 0 ∧
      (Flat.plain.engine.run p.unpaged [[("amount", .number 5)]]).length = 1 := by
  intro object
  let filter : Document := [("balance", .object [("$exists", .bool true)])]
  let spec : SortSpec := [(.text "_id", .descending)]
  let p : Pipeline :=
    { stages := Ledger.stages {} ++ [.keep filter, .sort spec], filter, sort := spec, skip := none
      limit := none, countFilter := filter }
  have hkeys : ∀ key ∈ Entries.keys object, key ∈ QueryObject.keys := by decide
  have hp : usualLedger.compile none object = .ok p := by
    rw [compile_eq, Query.compile_of_known _ hkeys]
    rfl
  have hlawful : Flat.plain.Lawful := Flat.store_lawful _
  refine ⟨p, hp, hlawful, Flat.plain_local, rfl, ?_⟩
  have hunpaged : p.unpaged = Ledger.stages {} ++ [.keep filter, .sort spec] := rfl
  obtain ⟨cents, hrun⟩ := Flat.run_ledger_single Flat.plain hlawful {} [("amount", .number 5)]
  rw [hunpaged, Engine.run_append, hrun]
  exact (hlawful.arrange_perm spec [_]).length_eq

/-- Under a condition on the amount the count is right in every store. -/
theorem Compiler.count_matches_amount :
    let object : Document := [("conditions", .list [.object [("field", .text "amount"),
      ("operator", .text ">="), ("value", .int 7)]])]
    ∃ p, usualLedger.compile none object = .ok p ∧
      ∀ (δ : Type) (r : Records δ), r.Lawful → r.Local → ∀ docs : List δ,
        r.engine.count p.countFilter docs = (r.engine.run p.unpaged docs).length := by
  intro object
  have hkeys : ∀ key ∈ Entries.keys object, key ∈ QueryObject.keys := by decide
  obtain ⟨p, hp, hfilter⟩ : ∃ p, usualLedger.compile none object = .ok p ∧
      keys p.filter = ["amount"] := by
    rw [compile_eq, Query.compile_of_known _ hkeys]
    exact ⟨_, rfl, rfl⟩
  refine ⟨p, hp, (count_matches_iff (.inr ⟨"userId", rfl⟩) hp).mpr fun l hl _ => ?_⟩
  cases hl
  rw [hfilter]
  decide

end QueryPipeline
