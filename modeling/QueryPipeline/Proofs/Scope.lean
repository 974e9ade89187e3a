import QueryPipeline.Proofs.Compilation

/-!
The scope of a ledger beside the filter of its query: neither has a field twice, and where both ask
something of a field, they ask for the same value.
-/

namespace QueryPipeline

open Entries (keys get?)

namespace Constraints

theorem nodup_ofConditions (cs : List Condition) : (keys (ofConditions cs)).Nodup := by
  have h : ∀ acc : Constraints, (keys acc).Nodup → (keys (cs.foldl add acc)).Nodup := by
    induction cs with
    | nil => exact fun _ h => h
    | cons c rest ih => exact fun acc h => ih _ (Entries.nodup_put h _ _)
  exact h [] List.nodup_nil

theorem scalar?_eq_some {constraints : Constraints} {field : String} {v : Value}
    (h : constraints.scalar? field = some v) : get? constraints field = some (.equals v) := by
  obtain ⟨k, hk, hv⟩ := Option.bind_eq_some_iff.mp h
  cases k with
  | equals w => cases hv; exact hk
  | tests ts => cases hv

end Constraints

namespace Filter

theorem nodup_statement (f : Filter) : (keys f.statement).Nodup := by
  rw [statement, Constraints.toFilter, Entries.keys_map]
  exact Constraints.nodup_ofConditions f.conditions

theorem statement_of_scalar? {f : Filter} {field : String} {v : Value}
    (h : f.constraints.scalar? field = some v) : get? f.statement field = some v := by
  rw [statement, Constraints.get?_toFilter, Constraints.scalar?_eq_some h]; rfl

theorem get?_scopeWithin {f : Filter} {ledger : Ledger} {own : Document} {key : String} {v : Value}
    (h : get? (f.scopeWithin ledger own) key = some v) :
    key = ledger.account ∧ f.constraints.scalar? ledger.account = some v ∨
      get? own key = some v := by
  unfold scopeWithin at h
  split at h
  · rename_i account ha
    rw [Entries.get?_put] at h
    split at h
    · cases h; exact .inl ⟨‹_›, ha⟩
    · exact .inr h
  · exact .inr h

theorem nodup_scopeWithin (f : Filter) (ledger : Ledger) {own : Document} (h : (keys own).Nodup) :
    (keys (f.scopeWithin ledger own)).Nodup := by
  unfold scopeWithin
  split
  · exact Entries.nodup_put h _ _
  · exact h

end Filter

theorem nodup_ownScope (ownerField : Value) (principal : Option Principal) :
    (keys (ownScope ownerField principal)).Nodup := by
  unfold ownScope
  split
  · split <;> simp [keys]
  · exact List.nodup_nil

theorem get?_ownScope {ownerField : Value} {principal : Option Principal} {key : String} {v : Value}
    (h : get? (ownScope ownerField principal) key = some v) :
    ownerField = .text key ∧ ∃ p, principal = some p ∧ v = p.id := by
  unfold ownScope at h
  split at h
  · rename_i owner p
    split at h
    · cases h
    · simp only [get?] at h
      split at h
      · cases h; exact ⟨congrArg _ ‹_›, p, rfl, rfl⟩
      · cases h
  · cases h

/-- A scope and a filter have the same account; of the owner they say the same if the principal is the
one on whose behalf the filter was read. -/
theorem Filter.agree_scopeWithin {rules : Rules} {part : Value} {f : Filter} {log : List LogEntry}
    (h : read rules part = .ok (f, log)) {ledger : Ledger} {principal : Option Principal}
    (hid : ∀ owner p, rules.own.field = .text owner → owner ∈ keys f.statement →
      owner ≠ ledger.account → principal = some p → p.id = rules.own.id) :
    Entries.Agree (f.scopeWithin ledger (ownScope rules.own.field principal)) f.statement := by
  intro key v w hv hw
  rcases get?_scopeWithin hv with ⟨rfl, hscalar⟩ | hown
  · exact Option.some.inj ((statement_of_scalar? hscalar).symm.trans hw)
  · obtain ⟨ho, p, hp, rfl⟩ := get?_ownScope hown
    obtain ⟨hconstraint, rfl⟩ := owner_statement ho h hw
    by_cases haccount : key = ledger.account
    -- The owner's field is the account: the scope has there what the filter asks for.
    · subst haccount
      have hscalar : f.constraints.scalar? ledger.account = some rules.own.id := by
        simp [Constraints.scalar?, hconstraint, Constraint.scalar?]
      have hput : get? (f.scopeWithin ledger (ownScope rules.own.field principal)) ledger.account =
          some rules.own.id := by
        rw [scopeWithin, hscalar, Entries.get?_put, if_pos rfl]
      exact Option.some.inj (hv.symm.trans hput)
    · exact hid key p ho (Entries.mem_keys_of_mem (Entries.mem_of_get? hw)) haccount hp

namespace Query

variable {q : Query} {object : Document} {filter : Filter} {sort : SortSpec} {page : Page}

theorem Reads.filter_read (h : q.Reads object filter sort page) :
    ∃ part log, Filter.read q.filtering part = .ok (filter, log) := by
  obtain ⟨log, hread⟩ := h.filter_ok
  exact ⟨_, log, hread⟩

theorem nodup_scopeFor (q : Query) (filter : Filter) : (keys (q.scopeFor filter)).Nodup := by
  unfold scopeFor
  split
  · exact filter.nodup_scopeWithin _ (nodup_ownScope _ _)
  · exact List.nodup_nil

theorem Reads.scope_agree (h : q.Reads object filter sort page) :
    Entries.Agree (q.scopeFor filter) filter.statement := by
  unfold scopeFor
  split
  · obtain ⟨part, log, hread⟩ := h.filter_read
    refine Filter.agree_scopeWithin hread fun owner p _ _ _ hp => ?_
    simp [filtering, ownership, hp]
  · intro key v w hv
    cases hv

/-- Where the filter compares the owner's field with a value, the value is the caller's id. -/
theorem Reads.own_agree (h : q.Reads object filter sort page) {key : String} {v w : Value}
    (hown : get? (ownScope q.compiler.settings.ownerField q.principal) key = some w)
    (hscalar : filter.constraints.scalar? key = some v) : v = w := by
  obtain ⟨hfield, p, hp, rfl⟩ := get?_ownScope hown
  obtain ⟨part, log, hread⟩ := h.filter_read
  have hid := (Filter.owner_statement hfield hread (Filter.statement_of_scalar? hscalar)).2
  simpa [filtering, ownership, hp] using hid

theorem Reads.owner_scope (h : q.Reads object filter sort page) {ledger : Ledger}
    (hl : q.activeLedger = some ledger) {owner : String}
    (ho : q.compiler.settings.ownerField = .text owner) (hne : owner ≠ "") {p : Principal}
    (hp : q.principal = some p) : get? (q.scopeFor filter) owner = some p.id := by
  have hown : ownScope q.compiler.settings.ownerField q.principal = [(owner, p.id)] := by
    simp [ownScope, ho, hp, hne]
  have hscope : q.scopeFor filter = filter.scopeWithin ledger [(owner, p.id)] := by
    simp [scopeFor, hl, hown]
  rw [hscope, Filter.scopeWithin]
  split
  · rename_i account hscalar
    rw [Entries.get?_put]
    split
    · -- The owner's field is the account: the filter can only have asked for the owner's id there.
      rename_i hsame
      subst hsame
      exact congrArg some (h.own_agree (by simp [hown, get?]) hscalar)
    · simp [get?]
  · simp [get?]

end Query

end QueryPipeline
