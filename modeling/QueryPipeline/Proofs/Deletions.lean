import QueryPipeline.Proofs.Desk

/-!
Deletions of several documents at once. The documents are looked up first, and what goes wrong until then
leaves them alone. A collection among the requested ids is not noticed before they are gone.
-/

namespace QueryPipeline.Crud

open Entries (get?)

/-- The filter for the documents with one of these ids. -/
def Config.idsFilter (c : Config) (ids : List Value) : Document :=
  [(c.idField, .object [("$in", .list ids)])]

namespace Desk

variable {collection : Value} {name : String} {ids documents found : List Value}

/-! ## Ids -/

/-- The id of a document, null if it has none. -/
def idIn (field : String) (document : Value) : Value :=
  (document.entries?.bind (get? · field)).getD .null

theorem foundIds_ok {field : String} (h : foundIds field documents = .ok found) :
    found = documents.map (idIn field) := by
  induction documents generalizing found with
  | nil =>
      cases h
      rfl
  | cons document rest ih =>
      cases document with
      | object entries =>
          rw [foundIds] at h
          split at h
          · obtain ⟨others, hrest, rfl⟩ := map_eq_ok_iff.mp h
            rw [ih hrest]
            rfl
          · cases h
      | _ => cases h

/-- The line about an id that was not found. -/
def missingLine (id : Value) : Value :=
  .object [("id", id), ("error", .text "Not found")]

/-- Every id that is not found gets a line, unless there is a collection among them. -/
theorem missingIds_eq (found ids : List Value) :
    missingIds found ids =
      if ∀ id ∈ ids, id.isKey = true then
        .ok ((ids.filter fun id => !found.any id.alike).map missingLine)
      else .error (.misuse .notKey) := by
  induction ids with
  | nil => rfl
  | cons id rest ih =>
      rw [missingIds, ih, List.filter_cons]
      cases hid : id.isKey with
      | false => simp [hid]
      | true =>
          simp only [List.forall_mem_cons, hid, if_true, true_and]
          by_cases hrest : ∀ id ∈ rest, id.isKey = true
          · rw [if_pos hrest, if_pos hrest]
            cases found.any id.alike <;> rfl
          · rw [if_neg hrest, if_neg hrest]
            rfl

/-! ## What a deletion comes to -/

/-- The call that looks up the documents, and the one that deletes them. -/
def lookupCall (config : Config) (name : String) (ids : List Value) : Call :=
  .aggregate name [.keep (config.idsFilter ids), .pick config.idField]

/-- The call that deletes the documents. -/
def deletionCall (config : Config) (name : String) (ids : List Value) : Call :=
  .deleteMany name (config.idsFilter ids)

/-- The answer to a deletion, and the calls that are made for it. -/
def deletion (config : Config) (store : Store) (name : String) (ids : List Value) :
    Except Fault Value × List Call :=
  let lookup := lookupCall config name ids
  let deletion := deletionCall config name ids
  match store [] lookup with
  | .error fault => (.error fault, [lookup])
  | .ok answer =>
    match (documentsIn answer).bind (foundIds config.idField) with
    | .error fault => (.error fault, [lookup])
    | .ok found =>
      match store [lookup] deletion with
      | .error fault => (.error fault, [lookup, deletion])
      | .ok count =>
        ((missingIds found ids).map fun errors =>
          .object [("successCount", count), ("errors", .list errors)], [lookup, deletion])

/-- The store finds these documents, and they have ids by which they can be told apart. -/
structure Located (config : Config) (store : Store) (name : String) (ids documents : List Value) :
    Prop where
  found : ∃ answer, store [] (lookupCall config name ids) = .ok answer ∧
    documentsIn answer = .ok documents
  identified : foundIds config.idField documents = .ok (documents.map (idIn config.idField))

/-- What the client is told: how many documents the store deleted, and which of the ids are not among
those of the documents that were found. -/
def receipt (field : String) (ids documents : List Value) (count : Value) : Value :=
  let missing := ids.filter fun id => !(documents.map (idIn field)).any id.alike
  .object [("successCount", count), ("errors", .list (missing.map missingLine))]

/-- What is made of the store's answer to the deletion. -/
def report (field : String) (ids documents : List Value) (answer : Except Fault Value) :
    Except Fault Value :=
  answer.bind fun count =>
    if ∀ id ∈ ids, id.isKey = true then .ok (receipt field ids documents count)
    else .error (.misuse .notKey)

variable {config : Config} {store : Store}

theorem deletion_of_located (h : Located config store name ids documents) :
    deletion config store name ids =
      (report config.idField ids documents
        (store [lookupCall config name ids] (deletionCall config name ids)),
      [lookupCall config name ids, deletionCall config name ids]) := by
  obtain ⟨answer, hlookup, hdocuments⟩ := h.found
  have hfound : (documentsIn answer).bind (foundIds config.idField) =
      .ok (documents.map (idIn config.idField)) := by
    rw [hdocuments]
    exact h.identified
  simp only [deletion, hlookup, hfound]
  cases store _ _ with
  | error fault => rfl
  | ok count =>
      dsimp only [report, Except.bind]
      rw [missingIds_eq]
      split <;> rfl

/-- Without documents to tell apart, the store is not asked to delete. -/
theorem deletion_of_not_located (h : ∀ documents, ¬ Located config store name ids documents) :
    ∃ fault, deletion config store name ids = (.error fault, [lookupCall config name ids]) := by
  unfold deletion
  dsimp only
  cases hlookup : store [] (lookupCall config name ids) with
  | error fault => exact ⟨fault, rfl⟩
  | ok answer =>
      dsimp only
      cases hfound : (documentsIn answer).bind (foundIds config.idField) with
      | error fault => exact ⟨fault, rfl⟩
      | ok found =>
          obtain ⟨documents, hdocuments, hids⟩ := bind_eq_ok_iff.mp hfound
          exact absurd ⟨⟨answer, hlookup, hdocuments⟩, foundIds_ok hids ▸ hids⟩ (h documents)

/-! ## When it fails, and when it is answered -/

/-- What goes wrong, other than in the store, goes wrong before anything is deleted. -/
def FailsFirst (result : Except Fault Value) (calls : List Call) : Prop :=
  ∀ fault, result = .error fault → (∀ failure, fault ≠ .store failure) →
    ∀ name filter, Call.deleteMany name filter ∉ calls

/-- The store has failed as stores do, or it has deleted, and there is no collection among the ids. -/
def Reportable (ids : List Value) : Except Fault Value → Prop
  | .error fault => ∃ failure, fault = .store failure
  | .ok _ => ∀ id ∈ ids, id.isKey = true

theorem report_fails_iff {field : String} {answer : Except Fault Value} :
    (∀ fault, report field ids documents answer = .error fault → ∃ failure, fault = .store failure) ↔
      Reportable ids answer := by
  cases answer with
  | error fault => simp [report, Reportable, Except.bind]
  | ok count =>
      by_cases hkeys : ∀ id ∈ ids, id.isKey = true
      · have hreport : report field ids documents (.ok count) = .ok _ := if_pos hkeys
        rw [hreport]
        exact ⟨fun _ => hkeys, fun _ _ => nofun⟩
      · have hreport : report field ids documents (.ok count) = .error (.misuse .notKey) := if_neg hkeys
        refine ⟨fun hfails => ?_, fun h => absurd h hkeys⟩
        obtain ⟨_, h⟩ := hfails _ hreport
        cases h

/-- Once something is deleted, whatever goes wrong has to go wrong in the store. -/
theorem failsFirst_of_mem {result : Except Fault Value} {calls : List Call} {filter : Document}
    (h : Call.deleteMany name filter ∈ calls) :
    FailsFirst result calls ↔ ∀ fault, result = .error fault → ∃ failure, fault = .store failure := by
  refine ⟨fun hfirst fault hfault => ?_, fun hstore fault hfault hother => ?_⟩
  · by_contra hother
    push Not at hother
    exact hfirst fault hfault hother name filter h
  · obtain ⟨failure, hfailure⟩ := hstore fault hfault
    exact absurd hfailure (hother failure)

theorem failsFirst_deletion_iff :
    FailsFirst (deletion config store name ids).1 (deletion config store name ids).2 ↔
      ∀ documents, Located config store name ids documents →
        Reportable ids (store [lookupCall config name ids] (deletionCall config name ids)) := by
  by_cases hlocated : ∃ documents, Located config store name ids documents
  · obtain ⟨documents, h⟩ := hlocated
    have hdeletes : deletionCall config name ids ∈
        [lookupCall config name ids, deletionCall config name ids] :=
      List.mem_cons_of_mem _ List.mem_cons_self
    rw [deletion_of_located h, failsFirst_of_mem hdeletes, report_fails_iff]
    exact ⟨fun hreportable _ _ => hreportable, fun hreportable => hreportable documents h⟩
  · push Not at hlocated
    obtain ⟨fault, hdeletion⟩ := deletion_of_not_located hlocated
    rw [hdeletion]
    refine ⟨fun _ documents h => absurd h (hlocated documents), fun _ _ _ _ _ _ hmem => ?_⟩
    cases List.mem_singleton.mp hmem

theorem deletion_eq_ok_iff {v : Value} : (deletion config store name ids).1 = .ok v ↔
    (∀ id ∈ ids, id.isKey = true) ∧ ∃ documents count,
      Located config store name ids documents ∧
      store [lookupCall config name ids] (deletionCall config name ids) = .ok count ∧
      v = receipt config.idField ids documents count := by
  constructor
  · intro hv
    by_cases hlocated : ∃ documents, Located config store name ids documents
    · obtain ⟨documents, h⟩ := hlocated
      rw [deletion_of_located h] at hv
      obtain ⟨count, hcount, hreceipt⟩ := bind_eq_ok_iff.mp hv
      split at hreceipt
      · rename_i hkeys
        exact ⟨hkeys, documents, count, h, hcount, (Except.ok.inj hreceipt).symm⟩
      · cases hreceipt
    · push Not at hlocated
      obtain ⟨fault, hdeletion⟩ := deletion_of_not_located hlocated
      rw [hdeletion] at hv
      cases hv
  · rintro ⟨hkeys, documents, count, h, hcount, rfl⟩
    rw [deletion_of_located h]
    exact bind_eq_ok_iff.mpr ⟨count, hcount, if_pos hkeys⟩

/-! ## Requests -/

theorem act_deleteMany (d : Desk) (around : Surroundings) (hname : collectionName collection = .ok name)
    (hids : ids ≠ []) : d.act (handle around (.deleteMany collection (.list ids))) =
      ((deletion d.config around.store name ids).1, { d with
        events := (deletion d.config around.store name ids).2.map .call, current := none }) := by
  obtain ⟨first, others, rfl⟩ := List.exists_cons_of_ne_nil hids
  unfold handle
  rw [act_bind, act_modify]
  simp only [perform, deleteMany, settle, act_bind, act_result, hname, act_get, act_ask, deletion,
    lookupCall, deletionCall, Config.idsFilter, calls, List.filterMap_nil]
  rcases around.store [] _ with fault | answer
  · rfl
  dsimp only
  rcases documentsIn answer with fault | documents
  · rfl
  dsimp only [Except.bind]
  rcases foundIds d.config.idField documents with fault | found
  · rfl
  simp only [List.nil_append, List.filterMap_cons, List.filterMap_nil]
  rcases around.store _ _ with fault | count
  · rfl
  dsimp only
  rcases missingIds found (first :: others) with fault | errors <;> rfl

theorem act_deleteMany_unnamed (d : Desk) (around : Surroundings) {fault : Fault}
    (hname : collectionName collection = .error fault) :
    d.act (handle around (.deleteMany collection (.list ids))) =
      (.error fault, { d with events := [], current := none }) := by
  unfold handle
  rw [act_bind, act_modify]
  simp only [perform, deleteMany, settle, act_bind, act_result, hname]

theorem calls_deleteMany (d : Desk) (around : Surroundings) (hname : collectionName collection = .ok name)
    (hids : ids ≠ []) : (d.act (handle around (.deleteMany collection (.list ids)))).2.calls =
      (deletion d.config around.store name ids).2 := by
  rw [act_deleteMany d around hname hids, calls, List.filterMap_map]
  exact List.filterMap_some

/-- Deletions fail only before anything is deleted, or in the store, exactly if no collection is among
the ids whenever the store has deleted. They are answered if the store has deleted and no collection is
among the ids, and then it has deleted by the filter by which it was asked for the documents. -/
theorem deleteMany_fails_first_iff (d : Desk) (around : Surroundings) (collection : Value)
    (hids : ids ≠ []) :
    let done := d.act (handle around (.deleteMany collection (.list ids)))
    (FailsFirst done.1 done.2.calls ↔ ∀ name documents, collectionName collection = .ok name →
      Located d.config around.store name ids documents →
      Reportable ids (around.store [lookupCall d.config name ids] (deletionCall d.config name ids))) ∧
    ∀ v, done.1 = .ok v ↔ (∀ id ∈ ids, id.isKey = true) ∧ ∃ name documents count,
      collectionName collection = .ok name ∧
      done.2.calls = [lookupCall d.config name ids, deletionCall d.config name ids] ∧
      Located d.config around.store name ids documents ∧
      around.store [lookupCall d.config name ids] (deletionCall d.config name ids) = .ok count ∧
      v = receipt d.config.idField ids documents count := by
  intro done
  cases hname : collectionName collection with
  | error fault =>
      have hdone : done = _ := act_deleteMany_unnamed d around hname
      rw [hdone]
      refine ⟨⟨fun _ _ _ => nofun, fun _ _ _ _ _ _ h => nomatch h⟩, fun v => ⟨nofun, ?_⟩⟩
      rintro ⟨-, _, _, _, h, -⟩
      cases h
  | ok name =>
      have hresult : done.1 = (deletion d.config around.store name ids).1 := by
        rw [show done = _ from act_deleteMany d around hname hids]
      have hcalls : done.2.calls = _ := calls_deleteMany d around hname hids
      rw [hresult, hcalls]
      constructor
      · rw [failsFirst_deletion_iff]
        refine ⟨fun hreportable name' documents h => ?_, fun hreportable documents => ?_⟩
        · cases h
          exact hreportable documents
        · exact hreportable name documents rfl
      · intro v
        rw [deletion_eq_ok_iff]
        refine and_congr_right fun _ => ⟨?_, ?_⟩
        · rintro ⟨documents, count, h, hcount, hv⟩
          have hmade := congrArg Prod.snd (deletion_of_located h)
          exact ⟨name, documents, count, rfl, hmade, h, hcount, hv⟩
        · rintro ⟨_, documents, count, hname', -, hlocated⟩
          cases hname'
          exact ⟨documents, count, hlocated⟩

/-- A store in which one document is found, which is then deleted. -/
def single (document : Document) : Store := fun _ call =>
  match call with
  | .aggregate .. => .ok (.list [.object document])
  | .deleteMany .. => .ok (.int 1)
  | _ => .ok .null

/-- An id that is asked for twice and not found is reported twice. -/
theorem deleteMany_fails_first_twice :
    let d : Desk := { config := {} }
    let around : Surroundings := { store := single [("id", .text "a")] }
    let ids : List Value := [.text "b", .text "a", .text "b"]
    let done := d.act (handle around (.deleteMany (.text "users") (.list ids)))
    ids ≠ [] ∧ FailsFirst done.1 done.2.calls ∧
      done.1 = .ok (.object [("successCount", .int 1),
        ("errors", .list [missingLine (.text "b"), missingLine (.text "b")])]) := by
  intro d around ids done
  have hids : ids ≠ [] := List.cons_ne_nil _ _
  have h := deleteMany_fails_first_iff d around (.text "users") hids
  have hkeys : ∀ id ∈ ids, id.isKey = true := by decide
  have hname : collectionName (.text "users") = .ok "users" := if_pos (by decide +kernel)
  have hlocated : Located d.config around.store "users" ids [.object [("id", .text "a")]] :=
    ⟨⟨_, rfl, rfl⟩, rfl⟩
  refine ⟨hids, h.1.mpr fun _ _ _ _ => hkeys, (h.2 _).mpr ⟨hkeys, _, _, _, hname, ?_, hlocated, rfl, ?_⟩⟩
  · rw [calls_deleteMany d around hname hids, deletion_of_located hlocated]
  · decide +kernel

/-- An object among the ids is noticed when the documents are gone. -/
theorem deleted_before_failing :
    let around : Surroundings := { store := single [("id", .text "a")] }
    let ids : List Value := [.text "a", .object [("b", .int 1)]]
    let done := act { config := {} } (handle around (.deleteMany (.text "users") (.list ids)))
    done.1 = .error (.misuse .notKey) ∧
      done.2.calls = [.aggregate "users" [.keep [("id", .object [("$in", .list ids)])], .pick "id"],
        .deleteMany "users" [("id", .object [("$in", .list ids)])]] ∧
      ¬ FailsFirst done.1 done.2.calls := by
  intro around ids done
  have hids : ids ≠ [] := List.cons_ne_nil _ _
  have hname : collectionName (.text "users") = .ok "users" := if_pos (by decide +kernel)
  have hlocated : Located {} around.store "users" ids [.object [("id", .text "a")]] :=
    ⟨⟨_, rfl, rfl⟩, rfl⟩
  have hresult : done.1 = .error (.misuse .notKey) := by
    rw [show done = _ from act_deleteMany _ around hname hids, deletion_of_located hlocated]
    rfl
  have hcalls : done.2.calls = [lookupCall {} "users" ids, deletionCall {} "users" ids] := by
    rw [calls_deleteMany _ around hname hids, deletion_of_located hlocated]
  refine ⟨hresult, hcalls, fun hfirst => ?_⟩
  apply hfirst _ hresult (fun _ => nofun) "users" [("id", .object [("$in", .list ids)])]
  rw [hcalls]
  exact List.mem_cons_of_mem _ List.mem_cons_self

end Desk

end QueryPipeline.Crud
