import QueryPipeline.Proofs.Desk
import QueryPipeline.Proofs.Execution

/-!
Who asks for a ledger sees nothing of the documents of others: neither the documents that the
pipeline gives nor their number depend on them.
-/

namespace QueryPipeline

open Entries (get?)

namespace Query

variable {q : Query} {object : Document} {p : Pipeline} {ledger : Ledger} {owner : String}
  {principal : Principal}

/-- The pipeline of a ledger starts with a filter that asks for the owner's documents, and the filter
for counting asks for them as well. -/
theorem compile_owned (hq : q.progress = none) (hc : q.compile object = .ok p)
    (hl : q.activeLedger = some ledger) (ho : q.compiler.settings.ownerField = .text owner)
    (hne : owner ≠ "") (hp : q.principal = some principal) :
    ∃ scope rest, p.stages = .keep scope :: rest ∧ get? scope owner = some principal.id ∧
      get? p.countFilter owner = some principal.id := by
  obtain ⟨filter, sort, page, hreads, rfl⟩ := compile_ok hq (.inr ⟨owner, ho⟩) hc
  have hscope : get? (q.scopeFor filter) owner = some principal.id :=
    hreads.owner_scope hl ho hne hp
  refine ⟨q.scopeFor filter, ledger.stages ++ [.keep filter.statement] ++ sort.stages ++ page.stages,
    ?_, hscope, ?_⟩
  · have hfull : (q.scopeFor filter).isEmpty = false := by
      cases h : q.scopeFor filter with
      | nil => rw [h] at hscope; cases hscope
      | cons entry rest => rfl
    simp [assemble, stagesBefore, hl, ledgerStages, hfull]
  · exact (hreads.scope_agree.get?_merge_iff filter.nodup_statement).mpr (.inl hscope)

end Query

namespace Engine

variable {δ : Type} (e : Engine δ) {key : String} {v : Value} {first second : List δ}

/-- After a filter with this entry, only the documents count of which the entry holds. -/
theorem run_keep_congr {filter : Document} (hv : get? filter key = some v)
    (h : first.filter (e.holds key v) = second.filter (e.holds key v)) (rest : List Stage) :
    e.run (.keep filter :: rest) first = e.run (.keep filter :: rest) second := by
  rw [run_keep, run_keep, e.filter_accepts hv first, e.filter_accepts hv second, h]

theorem count_congr {filter : Document} (hv : get? filter key = some v)
    (h : first.filter (e.holds key v) = second.filter (e.holds key v)) :
    e.count filter first = e.count filter second := by
  rw [count, count, e.filter_accepts hv first, e.filter_accepts hv second, h]

end Engine

namespace Crud.Desk

/-- At any desk, a principal's query on a ledger gives the same documents and the same count in two
stores, as long as the principal's own documents are the same in both. -/
theorem ledger_isolation {config : Config} {d d' : Desk} (hd : Reached config d)
    {collection queryObject : Value} {principal : Principal} {id : Nat}
    (hquery : d.act (query collection queryObject (some principal)) = (.ok id, d'))
    {p : Pipeline} (hfinish : (d'.session.finish id).result = .ok p)
    {compiler : Compiler} (hmake : config.compilerFor collection = .ok compiler)
    {ledger : Ledger} (hledger : compiler.ledger = some ledger)
    (henabled : compiler.settings.isEnabled .balance = true)
    {owner : String} (howner : compiler.settings.ownerField = .text owner) (hne : owner ≠ "")
    {δ : Type} (e : Engine δ) {first second : List δ}
    (hown : first.filter (e.holds owner principal.id) = second.filter (e.holds owner principal.id)) :
    e.run p.stages first = e.run p.stages second ∧
      e.count p.countFilter first = e.count p.countFilter second := by
  obtain ⟨object, made, -, hmade, hcompile⟩ := hd.query_compile hquery
  obtain rfl : made = compiler := Except.ok.inj (hmade.symm.trans hmake)
  rw [hfinish, Compiler.compile_eq] at hcompile
  have hactive : ({ compiler := made, principal := some principal } : Query).activeLedger =
      some ledger := by
    simp [Query.activeLedger, henabled, hledger]
  obtain ⟨scope, rest, hstages, hscope, hcount⟩ :=
    Query.compile_owned rfl hcompile.symm hactive howner hne rfl
  rw [hstages]
  exact ⟨e.run_keep_congr hscope hown rest, e.count_congr hcount hown⟩

theorem compilerFor_transactions :
    Config.compilerFor {} (.text "transactions") = .ok .usualLedger := by
  have hname : collectionName (.text "transactions") = .ok "transactions" := by
    simp [collectionName, isCollectionName]
  have hknown : Settings.unknown [("running_balance", .ledger {})] = [] :=
    Settings.unknown_eq_nil (by decide)
  have hmake : Compiler.make (.text "transactions") [("running_balance", .ledger {})] =
      .ok .usualLedger := by
    unfold Compiler.make Settings.requireKnown
    rw [hknown]
    rfl
  unfold Config.compilerFor
  rw [hname]
  exact hmake

/-- Two stores that differ in a document of another user, who is asked for under a field that the
store takes for an operator. -/
theorem ledger_isolation_two_users :
    let own : Document := [("userId", .text "u1"), ("amount", .int 5)]
    let alien : Document := [("userId", .text "u2"), ("amount", .int 7)]
    let object : Document := [("conditions", .list [.object
      [("field", .text "$or"), ("operator", .text "in"), ("value", .text "u2")]])]
    let e : Engine Document :=
      { holds := fun key v document => get? document key = some v, transform := fun _ docs => docs }
    ∃ d p, Desk.act { config := {} }
        (query (.text "transactions") (.object object) (some { id := .text "u1" })) = (.ok 1, d) ∧
      (d.session.finish 1).result = .ok p ∧
      e.run p.stages [own] = e.run p.stages [alien, own] ∧
      e.count p.countFilter [own] = e.count p.countFilter [alien, own] := by
  intro own alien object e
  let kept : Desk :=
    { config := {}, session := { cells := [{ query := { compiler := .usualLedger } }] }
      compilers := [("transactions", 0)] }
  have hkept : Desk.act { config := {} } (compilerFor (.text "transactions")) = (.ok 0, kept) := by
    have h := act_keepCompiler { config := {} } "transactions"
    rw [compilerFor_transactions] at h
    exact h
  let copied := (kept.session.copy 0).1.setPrincipal 1 (some { id := .text "u1" })
  have hcell : copied.cells[1]? =
      some { query := { compiler := .usualLedger, principal := some { id := .text "u1" } } } := rfl
  have hkeys : ∀ key ∈ Entries.keys object, key ∈ QueryObject.keys := by decide
  have htaken := Session.query_of_known hcell hkeys
  let taken := copied.query 1 object
  have hquery : Desk.act { config := {} }
      (query (.text "transactions") (.object object) (some { id := .text "u1" })) =
        (.ok 1, { kept with session := taken.state, log := taken.log }) := by
    have hresult : taken.result = .ok () := by
      rw [show taken = _ from htaken]
      rfl
    refine (act_queryWith hkept object _).trans ?_
    show (taken.result.map fun _ => 1, _) = _
    rw [hresult]
    rfl
  obtain ⟨p, hp⟩ : ∃ p, (taken.state.finish 1).result = .ok p := by
    rw [show taken = _ from htaken]
    exact ⟨_, rfl⟩
  exact ⟨_, p, hquery, hp, ledger_isolation (.opened {} 0) hquery hp compilerFor_transactions
    rfl rfl rfl (by decide) e rfl⟩

end Crud.Desk

end QueryPipeline
