import QueryPipeline.Clock
import QueryPipeline.Session
import QueryPipeline.Store

/-!
The desk: what the requests to collections share. It keeps a compiler for every collection that was
asked for, gives out ids and times, and writes down what happens.
-/

namespace QueryPipeline.Crud

/-- How collections are handled: the field of a document's id, the fields that updates leave alone,
and the settings of the query compilers, those of a collection over the general ones. What is given for
those of collections may be no map; nobody notices until a collection is looked up in it. -/
structure Config where
  idField : String := "id"
  timestamps : Bool := true
  readOnly : List String := ["_id", "createdAt"]
  settings : SettingMap := []
  settingsFor : Option (Entries String (Option SettingMap)) :=
    some [("transactions", some [("running_balance", .ledger {})])]

namespace Config

/-- The fields that updates leave alone: the id is always one of them. -/
def protectedFields (c : Config) : List String :=
  if c.readOnly.contains c.idField then c.readOnly else c.readOnly ++ [c.idField]

/-- The names in a list of fields: of a list its texts, of a text its characters, of an object its
keys. -/
def fieldNames : Value → Except Fault (List String)
  | .list items =>
    if items.all Value.isKey then .ok (items.filterMap Value.text?) else .error (.misuse .notKey)
  | .text s => .ok (s.toList.map fun c => String.ofList [c])
  | .object entries => .ok (Entries.keys entries)
  | _ => .error (.misuse .notKey)

/-- The settings for collections, or the usual ones for null. -/
def collectionSettings : Value → Option (Entries String (Option SettingMap))
  | .null => ({} : Config).settingsFor
  | .object entries =>
    some (entries.map fun (collection, v) =>
      (collection, v.entries?.map fun given => given.map fun (name, v) => (name, .value v)))
  | _ => none

/-- The names of the settings that are not for the query compilers. -/
def names : List String :=
  ["id_field", "timestamps", "ro_fields", "settings_for"]

/-- The field of ids that a value names: any value that can be a key. -/
def idFieldOf : Option Value → Except Fault String
  | none => .ok ({} : Config).idField
  | some v =>
    match v.keyText? with
    | some field => .ok field
    | none => .error (.misuse .notKey)

/-- The fields that a value has updates leave alone. -/
def readOnlyOf : Option Value → Except Fault (List String)
  | none => .ok ({} : Config).readOnly
  | some v => fieldNames v

/-- Whether a value asks for times. -/
def timestampsOf (v? : Option Value) : Bool :=
  (v?.map Value.isTruthy).getD ({} : Config).timestamps

/-- Reads a configuration from a map of settings; what it does not name has its usual value. -/
def ofMap (given : SettingMap) : Except Fault Config := do
  let value? (name : String) := (Entries.get? given name).map Setting.toValue
  let idField ← idFieldOf (value? "id_field")
  let readOnly ← readOnlyOf (value? "ro_fields")
  return { idField, timestamps := timestampsOf (value? "timestamps"), readOnly
           settings := Entries.without given names
           settingsFor := collectionSettings ((value? "settings_for").getD .null) }

/-- Reads a configuration from values. -/
def ofEntries (given : Document) : Except Fault Config :=
  ofMap (given.map fun (name, v) => (name, .value v))

/-- The settings of the query compiler for a collection. -/
def settingsOf (c : Config) (collection : Value) : Except Fault SettingMap :=
  match c.settingsFor, collection with
  | none, _ => .error (.misuse .notDocument)
  | some settingsFor, .text name =>
    match Entries.get? settingsFor name with
    | none => .ok c.settings
    | some (some own) => .ok (Entries.merge c.settings own)
    | some none => .error (.misuse .notMapping)
  | some _, v => if v.isKey then .ok c.settings else .error (.misuse .notKey)

/-- What the settings that are not for the query compilers are set to in the map of all settings,
unless they are given. -/
def usual : SettingMap :=
  [("id_field", .value (.text "id")), ("timestamps", .value (.bool true)),
    ("ro_fields", .value (.list [.text "_id", .text "createdAt"])), ("settings_for", .value .null)]

/-- The settings that are not for the query compilers, with the given ones. -/
def own (given : SettingMap) : SettingMap :=
  usual.merge (given.filter fun entry => names.contains entry.1)

/-- The map of all settings of a configuration, with the given ones. Names that are no settings are
refused. -/
def documented (given : SettingMap) : Except Fault SettingMap :=
  (Settings.documented (Entries.without given names)).map fun settings => settings.merge (own given)

/-- A map of all settings with more of them set. -/
def extended (all more : SettingMap) : Except Fault SettingMap :=
  documented (Entries.merge all more)

/-- The filter for the document with an id. -/
def idFilter (c : Config) (id : Value) : Document :=
  [(c.idField, id)]

end Config

/-- What happens while a request is handled: calls of the store, and documents that are about to be
saved. -/
inductive Event where
  | call (c : Call)
  | saving (collection : String) (document : Document)

/-- The state that requests share, with what happened in the request at hand and its query. -/
structure Desk where
  config : Config
  session : Session := {}
  compilers : Entries String Nat := []
  clock : Clock := {}
  issued : Nat := 0
  events : List Event := []
  current : Option Nat := none
  log : List LogEntry := []

/-- A step of a request: it may fail half-way, and what it has done until then remains. -/
abbrev Action := ExceptT Fault (StateM Desk)

namespace Desk

/-- The calls of the store among the events, in order. -/
def calls (d : Desk) : List Call :=
  d.events.filterMap fun
    | .call c => some c
    | .saving .. => none

/-- The time. -/
def now : Action Instant := do
  modify fun d => { d with clock := d.clock.tick }
  return (← get).clock.time true

/-- The new id of this number: its hexadecimal digits, 32 of them. -/
def idText (n : Nat) : String :=
  String.ofList (Text.hex 32 n)

/-- A new id. -/
def newId : Action String := do
  modify fun d => { d with issued := d.issued + 1 }
  return idText (← get).issued

/-- Asks the store. -/
def ask (store : Store) (call : Call) : Action Value := do
  let before := (← get).calls
  modify fun d => { d with events := d.events ++ [.call call] }
  ExceptT.mk (pure (store before call))

/-- Does a step on the session. -/
def onSession {α : Type} (step : Session → Outcome Session α) : Action α := do
  let outcome := step (← get).session
  modify fun d => { d with session := outcome.state, log := d.log ++ outcome.log }
  ExceptT.mk (pure outcome.result)

/-- Refuses what a client sent. -/
def refuse {α : Type} (flaw : Flaw) : Action α :=
  throw (.invalid flaw)

/-! ## Collections and their queries -/

/-- Whether a text can be the name of a collection. -/
def isCollectionName (name : String) : Bool :=
  name != "" && !name.startsWith "$" && !name.startsWith "system." && !name.toList.contains '\x00'

/-- The name of a collection. It is a part of a path, so there are words for one that is refused. -/
def collectionName (v : Value) : Except Fault String :=
  match v with
  | .text name =>
    if isCollectionName name then .ok name else .error (.invalid (.collectionName v))
  | _ => .error (.invalid (.collectionName v))

/-- The compiler that is kept for a collection, by the number of its query. -/
def kept? (d : Desk) : Value → Option Nat
  | .text name => Entries.get? d.compilers name
  | _ => none

/-- Configures the compiler for a collection, and keeps it. -/
def keepCompiler (collection : Value) : Action Nat := do
  let name ← ExceptT.mk (pure (collectionName collection))
  let given ← ExceptT.mk (pure ((← get).config.settingsOf (.text name)))
  let compiler ← ExceptT.mk (pure (Compiler.make (.text name) given))
  let (session, id) := (← get).session.start compiler
  modify fun d => { d with session, compilers := Entries.put d.compilers name id }
  return id

/-- The query of the session that queries on this collection are copies of. -/
def compilerFor (collection : Value) : Action Nat := do
  if collection.isKey then
    match (← get).kept? collection with
    | some id => return id
    | none => keepCompiler collection
  else throw (.misuse .notKey)

/-- A query on a collection, on behalf of a principal. -/
def query (collection queryObject : Value) (principal : Option Principal) : Action Nat := do
  let object ← match queryObject with
    | .null => pure []
    | .object entries => pure entries
    | _ => refuse .queryNotObject
  let kept ← compilerFor collection
  let (session, id) := (← get).session.copy kept
  modify fun d => { d with session := session.setPrincipal id principal }
  onSession (·.query id object)
  return id

/-! ## Documents -/

/-- The document with an id: its own, unless that counts as none. -/
def identified (document : Document) : Action Document := do
  let field := (← get).config.idField
  if ((Entries.get? document field).getD .null).isTruthy then return document
  else return Entries.put document field (.text (← newId))

/-- The document with the time in the given fields, if the configuration wants it. -/
def stamped (fields : List String) (document : Document) : Action Document := do
  if (← get).config.timestamps then
    let now ← now
    return fields.foldl (fun document field => Entries.put document field (.time now)) document
  else return document

/-- A new document as it is saved: with an id, and with the times of its creation. -/
def newDocument : Value → Action Document
  | .object entries => do
    stamped ["createdAt", "updatedAt"] (← identified (Entries.without entries ["_id"]))
  | _ => refuse .documentNotObject

/-- New documents as they are saved. -/
def newDocuments : Value → Action (List Document)
  | .list [] => refuse .documentsEmpty
  | .list items => items.mapM newDocument
  | _ => refuse .documentsNotList

/-- The fields that an update sets. -/
def updatedFields : Value → Action Document
  | .object entries => do
    let config := (← get).config
    stamped ["updatedAt"] (Entries.without entries config.protectedFields)
  | _ => refuse .documentNotObject

end Desk

end QueryPipeline.Crud
