import QueryPipeline.Proofs.Copies
import QueryPipeline.Proofs.Operators
import QueryPipeline.Proofs.Scope

/-!
The scope of a ledger and the filter behind it, at the end of a run. The filter names the owner who asked
when the query object was taken, the scope the one who asks when the query is ended; everywhere else they
cannot differ.
-/

namespace QueryPipeline

open Crud.Desk (Use)
open Entries (keys get?)

namespace Filter

variable {rules : Rules} {part : Value} {f : Filter} {log : List LogEntry}

theorem key_ne_empty (h : read rules part = .ok (f, log)) {key : String}
    (hkey : key ∈ keys f.statement) : key ≠ "" := by
  obtain ⟨c, hc, rfl⟩ := mem_keys_statement.mp hkey
  obtain ⟨entry, hread⟩ := read_conditions h c hc
  exact (Condition.read_inv hread).1

/-- A scope and a filter that were made for different owners agree as long as the filter does not ask for
its owner, or the owner's field is the account. -/
theorem agree_scopeWithin_iff (h : read rules part = .ok (f, log)) {ledger : Ledger}
    {principal : Option Principal} :
    Entries.Agree (f.scopeWithin ledger (ownScope rules.own.field principal)) f.statement ↔
      ∀ owner p, rules.own.field = .text owner → owner ∈ keys f.statement →
        owner ≠ ledger.account → principal = some p → p.id = rules.own.id := by
  refine ⟨fun hagree owner p ho hkey hapart hp => ?_, agree_scopeWithin h⟩
  obtain ⟨v, hv⟩ := Entries.exists_of_mem_keys hkey
  have hscope := f.get?_scopeWithin_owner (key_ne_empty h hkey) hapart principal
  rw [← ho, hp] at hscope
  rw [hp] at hagree
  exact (hagree owner _ _ hscope hv).trans (owner_statement ho h hv).2

end Filter

namespace Query

variable {q : Query} {p : Pipeline} {filter : Filter}

/-! ## Who asked -/

/-- The principal of a query when it takes its query object: in the course of a run, or at its end. -/
def asker (q : Query) : List Use → Option Principal
  | [] => q.principal
  | use :: rest =>
    if (q.after use).isReceived .balance then q.principal else (q.after use).asker rest

/-- The owner whom the filter of a query names, once there have been these uses of the query. -/
def askerOwnership (q : Query) (uses : List Use) : Condition.Ownership :=
  ({ q with principal := q.asker uses } : Query).ownership

theorem asker_of_read {use : Use} (h : (q.after use).progress ≠ none) (rest : List Use) :
    q.asker (use :: rest) = q.principal := by
  have hreceived : (q.after use).isReceived .balance = true := Option.isSome_iff_ne_none.mpr h
  rw [asker, if_pos hreceived]

theorem asker_of_unread {use : Use} (h : (q.after use).progress = none) (rest : List Use) :
    q.asker (use :: rest) = (q.after use).asker rest := by
  have hreceived : ¬ (q.after use).isReceived .balance = true := by simp [isReceived, h]
  rw [asker, if_neg hreceived]

theorem asker_finish (uses : List Use) (q : Query) : q.asker (uses ++ [.finish]) = q.asker uses := by
  induction uses generalizing q with
  | nil =>
      have hsame : (q.after .finish).principal = q.principal := principal_after q .finish
      simp only [List.nil_append, asker, hsame, ite_self]
  | cons use rest ih => simp only [List.cons_append, asker, ih]

theorem filter_of_fill {object : Document} (h : (q.fill object).1.filter.get? = some filter) :
    ∃ part log, Filter.read q.filtering part = .ok (filter, log) := by
  have hfilled := q.fill_filled object
  generalize q.fill object = filled at h hfilled
  cases hfilled with
  | atFilter hnone _ => cases hnone.symm.trans h
  | atSort hfilter _ | atPage hfilter _ _ | complete hfilter _ _ =>
      cases h
      exact ⟨_, _, Slot.read_of_held hfilter⟩

/-- The filter that a run has read, it has read on behalf of the principal at that time. -/
theorem read_by_asker (uses : List Use) (hq : q.progress = none)
    (hf : (uses.foldl after q).progress.bind (·.filter.get?) = some filter) :
    ∃ rules part log, rules.own = q.askerOwnership uses ∧
      Filter.read rules part = .ok (filter, log) := by
  induction uses generalizing q with
  | nil => simp [hq] at hf
  | cons use rest ih =>
      by_cases huse : (q.after use).progress = none
      · obtain ⟨rules, part, log, hown, hread⟩ := ih huse hf
        refine ⟨rules, part, log, hown.trans ?_, hread⟩
        unfold askerOwnership ownership
        rw [asker_of_unread huse, compiler_after]
      · rw [List.foldl_cons, progress_foldl_after huse] at hf
        obtain ⟨progress, hprogress, hheld⟩ := Option.bind_eq_some_iff.mp hf
        obtain ⟨object, -, -, rfl⟩ := progress_of_use hq hprogress
        obtain ⟨part, log, hread⟩ := filter_of_fill hheld
        refine ⟨q.filtering, part, log, ?_, hread⟩
        rw [askerOwnership, asker_of_read huse]
        rfl

theorem pipeline_of_ended (h : q.ended = .ok p) :
    (q.after .finish).pipeline (q.after .finish) = .ok p := by
  unfold ended at h
  rw [after_finish]
  split at h
  · rename_i hr
    rw [if_pos hr]
    exact h
  · rename_i hr
    rw [if_neg hr, offered_nil]
    rw [compile_nil] at h
    obtain ⟨⟨⟩, -, h⟩ := bind_eq_ok_iff.mp h
    exact h

end Query

/-- The query at the end of a run: its principal is the one of then, but it has read its filter on behalf
of the one who asked. -/
theorem Session.finish_alone {c : Compiler} {uses : List Use} {p : Pipeline}
    (hp : ((alone c uses).finish 0).result = .ok p) :
    ∃ t : Query, t.pipeline t = .ok p ∧ t.compiler = c ∧
      t.principal = uses.foldl Use.principal none ∧
      ∀ filter, t.progress.bind (·.filter.get?) = some filter →
        ∃ rules part log, rules.own = ({ compiler := c } : Query).askerOwnership uses ∧
          Filter.read rules part = .ok (filter, log) := by
  let q : Query := { compiler := c }
  let t : Query := (uses ++ [Use.finish]).foldl Query.after q
  refine ⟨t, ?_, Query.compiler_foldl_after _ q, ?_, fun filter hf => ?_⟩
  · have hended := (owns_alone c uses).finish.1.symm.trans hp
    simpa [t, q] using Query.pipeline_of_ended hended
  · rw [Query.principal_foldl_after, List.foldl_append]
    rfl
  · obtain ⟨rules, part, log, hown, hread⟩ := Query.read_by_asker _ rfl hf
    refine ⟨rules, part, log, hown.trans ?_, hread⟩
    rw [Query.askerOwnership, Query.asker_finish]
    rfl

/-! ## Scope and filter -/

/-- The scope of a ledger names the owner who ends the query, its filter the one who asked. Wherever else
both have a value they have the same one, so they agree, and the filter for counting loses nothing of
either, exactly if the filter does not ask for the owner, the owner's field is the account, or whoever
ends the query has the id that the filter was read with. -/
theorem Compiler.scope_agrees_iff (c : Compiler) {ledger : Ledger} (hl : c.ledger = some ledger)
    (he : c.settings.isEnabled .balance = true) (hs : c.settings.NamesOwner) (uses : List Use)
    {p : Pipeline} (hp : ((Session.alone c uses).finish 0).result = .ok p) :
    let now : Option Principal := uses.foldl Use.principal none
    let own := ({ compiler := c } : Query).askerOwnership uses
    ∃ scope page,
      p.stages = Query.ledgerStages ledger scope ++ [.keep p.filter] ++ p.sort.stages ++
        Page.stages page ∧
      p.countFilter = Entries.merge scope p.filter ∧
      (∀ owner, c.settings.ownerField = .text owner → owner ≠ "" → owner ≠ ledger.account →
        get? scope owner = now.map (·.id) ∧
          ∀ id, get? p.filter owner = some id → id = own.id) ∧
      (Entries.Agree scope p.filter ↔
        ∀ entry, entry ∈ p.countFilter ↔ entry ∈ scope ∨ entry ∈ p.filter) ∧
      (Entries.Agree scope p.filter ↔
        ∀ owner principal, c.settings.ownerField = .text owner → owner ∈ keys p.filter →
          owner ≠ ledger.account → now = some principal → principal.id = own.id) := by
  intro now own
  obtain ⟨t, hpipeline, hcompiler, hprincipal, hreads⟩ := Session.finish_alone hp
  have hactive : t.activeLedger = some ledger := by
    rw [Query.activeLedger, hcompiler, if_pos he, hl]
  obtain ⟨filter, sort, scope, before, hf, -, hledger, -, rfl⟩ := Query.pipeline_ok hpipeline
  obtain ⟨hscope, rfl⟩ := hledger ledger hactive
  obtain ⟨rules, part, log, hown, hread⟩ : ∃ rules part log, rules.own = own ∧
      Filter.read rules part = .ok (filter, log) := hreads filter hf
  have hfield : rules.own.field = c.settings.ownerField := by
    rw [hown]
    rfl
  rw [Query.scope_eq (hcompiler ▸ hs) hf, hprincipal, hcompiler, ← hfield] at hscope
  cases hscope
  refine ⟨_, t.page, rfl, rfl, ?_, ?_, ?_⟩
  · intro owner ho hne hapart
    rw [← hfield] at ho
    refine ⟨?_, fun id hid => hown ▸ (Filter.owner_statement ho hread hid).2⟩
    rw [ho]
    exact filter.get?_scopeWithin_owner hne hapart now
  · exact Entries.agree_iff_mem_merge (filter.nodup_scopeWithin ledger (nodup_ownScope _ _))
      filter.nodup_statement
  · rw [← hfield, ← hown]
    exact Filter.agree_scopeWithin_iff hread

/-- Bob asks with a query that was Ann's before, and has another plan when it is ended. -/
theorem Compiler.scope_agrees_new_plan :
    let bob (plan : Value) : Principal := { id := .text "bob", plan }
    let owned : Value :=
      .object [("field", .text "userId"), ("operator", .text ">"), ("value", .int 3)]
    let uses : List Use := [.setPrincipal (some { id := .text "ann" }), .setPrincipal (some (bob .null)),
      .take [("conditions", .list [owned])], .setPrincipal (some (bob (.text "pro")))]
    ∃ p scope, ((Session.alone usualLedger uses).finish 0).result = .ok p ∧
      get? scope "userId" = some (.text "bob") ∧ p.countFilter = Entries.merge scope p.filter ∧
      ∀ entry, entry ∈ p.countFilter ↔ entry ∈ scope ∨ entry ∈ p.filter := by
  intro bob owned uses
  obtain ⟨p, hp⟩ : ∃ p, ((Session.alone usualLedger uses).finish 0).result = .ok p :=
    ⟨_, by with_unfolding_all rfl⟩
  obtain ⟨scope, page, -, hcount, howner, hlossless, hagree⟩ :=
    scope_agrees_iff usualLedger rfl rfl (.inr ⟨"userId", rfl⟩) uses hp
  refine ⟨p, scope, hp, (howner "userId" rfl (by decide) (by decide)).1, hcount, hlossless.mp ?_⟩
  refine hagree.mpr ?_
  rintro owner principal - - - ⟨⟩
  with_unfolding_all rfl

/-- Ann asks for her documents, then the query is Bob's: his ledger is computed, hers is looked for in
it, and hers is counted. -/
theorem Compiler.scope_conflicts_after_bob :
    let owned : Value :=
      .object [("field", .text "userId"), ("operator", .text "=="), ("value", .text "x")]
    let uses : List Use := [.setPrincipal (some { id := .text "ann" }),
      .take [("conditions", .list [owned])], .setPrincipal (some { id := .text "bob" })]
    ∃ p scope, ((Session.alone usualLedger uses).finish 0).result = .ok p ∧
      p.stages.head? = some (.keep scope) ∧ scope = [("userId", .text "bob")] ∧
      Stage.keep p.filter ∈ p.stages ∧ p.filter = [("userId", .text "ann")] ∧
      p.countFilter = [("userId", .text "ann")] ∧ ¬ Entries.Agree scope p.filter := by
  intro owned uses
  let bobs : Document := [("userId", .text "bob")]
  let anns : Document := [("userId", .text "ann")]
  let spec : SortSpec := [(.text "_id", .descending)]
  let p : Pipeline :=
    { stages := .keep bobs :: (Ledger.stages {} ++ [.keep anns, .sort spec]), filter := anns
      sort := spec, skip := none, limit := none, countFilter := anns }
  refine ⟨p, bobs, by with_unfolding_all rfl, rfl, rfl, by simp [p], rfl, rfl, fun hagree => ?_⟩
  have hsame := hagree "userId" (.text "bob") (.text "ann") rfl rfl
  simp at hsame

end QueryPipeline
