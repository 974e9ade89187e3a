import QueryPipeline.Proofs.Entries
import QueryPipeline.Proofs.Steps

/-!
Updates of documents. What is set is what the client sent but for the fields that updates leave alone,
with the time. A store takes a key with a dot for a path, and a path into such a field is not noticed.
-/

namespace QueryPipeline.Crud

open Entries (get? keys)

/-! ## Fields that updates leave alone -/

/-- A key that is a path into a field. -/
def LeadsInto (key field : String) : Prop :=
  (field ++ ".").toList <+: key.toList

/-- A key without a dot is no path into a field. -/
theorem not_leadsInto {key : String} (h : '.' ∉ key.toList) (field : String) : ¬ LeadsInto key field := by
  intro hprefix
  apply h
  apply hprefix.subset
  rw [String.toList_append]
  exact List.mem_append_right _ List.mem_cons_self

namespace Config

variable {c : Config}

/-- The field of the id and those that the configuration names are left alone. -/
def Protects (c : Config) (field : String) : Prop :=
  field = c.idField ∨ field ∈ c.readOnly

instance (c : Config) (field : String) : Decidable (c.Protects field) :=
  inferInstanceAs (Decidable (field = c.idField ∨ field ∈ c.readOnly))

theorem mem_protectedFields {field : String} : field ∈ c.protectedFields ↔ c.Protects field := by
  unfold protectedFields Protects
  split
  · rename_i hid
    refine ⟨.inr, ?_⟩
    rintro (rfl | hmem)
    · simpa using hid
    · exact hmem
  · simp [or_comm]

/-- No key leads to or into a field that updates leave alone, but for the time of the update. -/
def Spares (c : Config) (sent : Document) : Prop :=
  ∀ key ∈ keys sent, (c.Protects key → c.timestamps = true ∧ key = "updatedAt") ∧
    ∀ field, c.Protects field → ¬ LeadsInto key field

end Config

namespace Desk

variable {d : Desk} {entries : Document} {collection id : Value}

/-! ## What is set -/

/-- The fields that an update sets. -/
def payload (d : Desk) (entries : Document) : Document :=
  let fields := Entries.without entries d.config.protectedFields
  if d.config.timestamps then Entries.put fields "updatedAt" (.time (d.clock.tick.time true)) else fields

theorem get?_payload (d : Desk) (entries : Document) (key : String) :
    get? (d.payload entries) key =
      if d.config.timestamps = true ∧ key = "updatedAt" then some (.time (d.clock.tick.time true))
      else if d.config.Protects key then none
      else get? entries key := by
  have hdated : d.payload entries =
      d.dated ["updatedAt"] (Entries.without entries d.config.protectedFields) := rfl
  rw [hdated, get?_dated, Entries.get?_without]
  simp only [List.mem_singleton, Config.mem_protectedFields]

theorem mem_keys_payload {key : String} : key ∈ keys (d.payload entries) ↔
    (d.config.timestamps = true ∧ key = "updatedAt") ∨ ¬ d.config.Protects key ∧ key ∈ keys entries := by
  rw [← Entries.has_iff_mem_keys, ← Entries.has_iff_mem_keys, Entries.has, Entries.has, get?_payload]
  split_ifs <;> simp_all

/-- What is set spares the fields exactly if of what the client sent nothing leads into one of them, but
for what is not set at all. -/
theorem spares_payload_iff : d.config.Spares (d.payload entries) ↔
    ∀ key ∈ keys entries, ¬ d.config.Protects key →
      ∀ field, d.config.Protects field → ¬ LeadsInto key field := by
  constructor
  · intro hspares key hmem hkey
    exact (hspares key (mem_keys_payload.mpr (.inr ⟨hkey, hmem⟩))).2
  · intro hentries key hmem
    rcases mem_keys_payload.mp hmem with ⟨htimes, rfl⟩ | ⟨hkey, hmem⟩
    · exact ⟨fun _ => ⟨htimes, rfl⟩, fun field _ => not_leadsInto (by decide) field⟩
    · exact ⟨fun h => absurd h hkey, hentries key hmem hkey⟩

/-! ## Requests -/

theorem act_updatedFields (d : Desk) (entries : Document) :
    d.act (updatedFields (.object entries)) = (.ok (d.payload entries),
      { d with clock := if d.config.timestamps then d.clock.tick else d.clock }) := by
  unfold updatedFields
  rw [act_bind, act_get]
  exact act_stamped d ["updatedAt"] _

theorem act_found (d : Desk) (name : String) (id answer : Value) :
    (d.act (found name id answer)).2 = d := by
  unfold found
  split <;> rfl

/-- The call for an update: a lookup if there is nothing to set. -/
def updateCall (config : Config) (name : String) (id : Value) (fields : Document) : Call :=
  if fields.isEmpty then .findOne name (config.idFilter id)
  else .updateOne name (config.idFilter id) fields

/-- The calls for an update. -/
def updateCalls (d : Desk) (around : Surroundings) (collection id : Value) (entries : Document) :
    List Call :=
  match collectionName collection with
  | .error _ => []
  | .ok name =>
    match around.beforeSave name (d.payload entries) with
    | .error _ => []
    | .ok _ => [updateCall d.config name id (d.payload entries)]

theorem calls_update (d : Desk) (around : Surroundings) (collection id : Value) (entries : Document) :
    (d.act (update around collection id (.object entries))).2.calls =
      d.calls ++ d.updateCalls around collection id entries := by
  unfold updateCalls
  simp only [update, settle, act_bind, act_result]
  cases hname : collectionName collection with
  | error fault => simp
  | ok name =>
      simp only [act_updatedFields, announce, settle, act_bind, act_modify, act_result]
      cases hsave : around.beforeSave name (d.payload entries) with
      | error fault =>
          simp [calls]
      | ok _ =>
          simp only [act_get, act_ask]
          rcases around.store _ _ with fault | answer
          · simp [calls, updateCall]
          · simp [act_found, calls, updateCall]

theorem calls_handle_update (d : Desk) (around : Surroundings) (collection id : Value)
    (entries : Document) : (d.act (handle around (.update collection id (.object entries)))).2.calls =
      d.updateCalls around collection id entries := by
  unfold handle
  rw [act_bind, act_modify]
  exact calls_update { d with events := [], current := none } around collection id entries

theorem updateCalls_of_ok {around : Surroundings} {name : String}
    (hname : collectionName collection = .ok name)
    (hsave : around.beforeSave name (d.payload entries) = .ok ()) :
    d.updateCalls around collection id entries = [updateCall d.config name id (d.payload entries)] := by
  rw [updateCalls, hname]
  dsimp only
  rw [hsave]

theorem mem_updateCalls {around : Surroundings} {call : Call}
    (h : call ∈ d.updateCalls around collection id entries) :
    ∃ name, call = updateCall d.config name id (d.payload entries) := by
  unfold updateCalls at h
  split at h
  · cases h
  · rename_i name _
    split at h
    · cases h
    · exact ⟨name, List.mem_singleton.mp h⟩

/-- What reaches the store of an update is the time, if the configuration wants it, and what the client
sent but for the fields that updates leave alone. It spares these fields exactly if no other key of the
client's leads into one of them. -/
theorem update_spares_iff (d : Desk) (around : Surroundings) (collection id : Value)
    (entries : Document) :
    let made := (d.act (handle around (.update collection id (.object entries)))).2.calls
    ∃ sent : Document,
      (∀ name filter fields, Call.updateOne name filter fields ∈ made → fields = sent) ∧
      (∀ name, collectionName collection = .ok name → around.beforeSave name sent = .ok () →
        sent ≠ [] → made = [.updateOne name (d.config.idFilter id) sent]) ∧
      (∀ key, get? sent key =
        if d.config.timestamps = true ∧ key = "updatedAt" then some (.time (d.clock.tick.time true))
        else if d.config.Protects key then none
        else get? entries key) ∧
      (d.config.Spares sent ↔ ∀ key ∈ keys entries, ¬ d.config.Protects key →
        ∀ field, d.config.Protects field → ¬ LeadsInto key field) := by
  intro made
  have hmade : made = _ := calls_handle_update d around collection id entries
  rw [hmade]
  refine ⟨d.payload entries, fun name filter fields hmem => ?_, fun name hname hsave hsent => ?_,
    get?_payload d entries, spares_payload_iff⟩
  · obtain ⟨_, hcall⟩ := mem_updateCalls hmem
    unfold updateCall at hcall
    split at hcall
    · cases hcall
    · cases hcall
      rfl
  · rw [updateCalls_of_ok hname hsave, updateCall, if_neg (by simpa using hsent)]

/-- A path into the time of the creation reaches the store. -/
theorem updated_into_createdAt :
    let around : Surroundings := { store := fun _ _ => .ok .null }
    let entries : Document := [("createdAt.year", .int 1999), ("name", .text "x")]
    let sent : Document := entries ++ [("updatedAt", .time (({} : Clock).tick.time true))]
    let made := (act { config := {} }
      (handle around (.update (.text "users") (.text "u1") (.object entries)))).2.calls
    made = [.updateOne "users" [("id", .text "u1")] sent] ∧
      ({} : Config).Protects "createdAt" ∧ LeadsInto "createdAt.year" "createdAt" ∧
      ¬ ({} : Config).Spares sent := by
  intro around entries sent made
  have hname : collectionName (.text "users") = .ok "users" := if_pos (by decide +kernel)
  have hmade : made = [.updateOne "users" [("id", .text "u1")] sent] := by
    rw [show made = _ from calls_handle_update _ around _ _ entries, updateCalls_of_ok hname rfl]
    rfl
  have hprotects : ({} : Config).Protects "createdAt" := by decide
  have hleads : LeadsInto "createdAt.year" "createdAt" := by
    unfold LeadsInto
    decide
  exact ⟨hmade, hprotects, hleads, fun h => (h _ List.mem_cons_self).2 _ hprotects hleads⟩

end Desk

end QueryPipeline.Crud
