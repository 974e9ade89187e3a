import QueryPipeline.Pipeline
import QueryPipeline.QueryObject
import QueryPipeline.Settings

/-!
Queries: a compiler configured for a collection, on behalf of a principal, takes one query object
and gives a pipeline. The ledger is scoped before anything else happens, so that the balance does not
depend on which documents the client asks for.
-/

namespace QueryPipeline

/-- The authenticated caller. -/
structure Principal where
  id : Value
  plan : Value := .null

/-- A query compiler for a collection. The name of the collection is only ever shown. -/
structure Compiler where
  collection : Value
  settings : Settings
  ledger : Option Ledger

namespace Compiler

/-- A compiler for a collection as messages show it. -/
def shownFor (collection : Value) : String :=
  "DocQuery(" ++ collection.shown ++ ")"

/-- Configures a compiler. -/
def make (collection : Value) (given : SettingMap) : Except Fault Compiler := do
  let settings := Settings.ofMap given
  let ledger ← settings.ledger?
  settings.paging.check
  Settings.requireKnown (shownFor collection) given
  return { collection, settings, ledger }

end Compiler

/-- What became of a section: it still waits for input, its input was refused, or it was read. -/
inductive Slot (α : Type) where
  | waiting
  | failed
  | held (a : α)

namespace Slot

/-- Whether input has reached the section. -/
def isReceived {α : Type} : Slot α → Bool
  | .waiting => false
  | _ => true

/-- What was read. -/
def get? {α : Type} : Slot α → Option α
  | .held a => some a
  | _ => none

/-- Gives input to a section: a disabled one refuses to look at any. -/
def take {α : Type} (enabled : Except Fault Unit) (isGiven : Bool) (read : Except Fault α) :
    Slot α × Option Fault :=
  match (if isGiven then enabled else .ok ()), read with
  | .error fault, _ => (.waiting, some fault)
  | .ok (), .error fault => (.failed, some fault)
  | .ok (), .ok a => (.held a, none)

end Slot

/-- How far a query has got with its query object. -/
structure Progress where
  filter : Slot Filter := .waiting
  sort : Slot SortSpec := .waiting
  page : Slot Page := .waiting

/-- A query: the query object is taken at most once. -/
structure Query where
  compiler : Compiler
  principal : Option Principal := none
  progress : Option Progress := none

namespace Query

/-- The query on behalf of another principal. -/
def withPrincipal (q : Query) (principal : Option Principal) : Query :=
  { q with principal }

/-- The query as messages show it. -/
def shown (q : Query) : String :=
  Compiler.shownFor q.compiler.collection

/-- Whether a section has been given its input. -/
def isReceived (q : Query) : Section → Bool
  | .balance => q.progress.isSome
  | .filter => (q.progress.map (·.filter.isReceived)).getD false
  | .sort => (q.progress.map (·.sort.isReceived)).getD false
  | .limit => (q.progress.map (·.page.isReceived)).getD false

/-! ## Taking a query object -/

/-- Whose documents the filter is about. -/
def ownership (q : Query) : Condition.Ownership :=
  { field := q.compiler.settings.ownerField
    id := (q.principal.map (·.id)).getD (.text "") }

/-- How the filter section is read. -/
def filtering (q : Query) : Filter.Rules :=
  { collection := q.compiler.collection.plain, lenient := q.compiler.settings.isLenient
    own := q.ownership }

/-- Looks for keys that mean nothing. A strict query refuses them, a lenient one warns. -/
def checkKeys (q : Query) (object : Document) : Except Fault (List LogEntry) :=
  match QueryObject.unknown object with
  | [] => .ok []
  | names =>
    if q.compiler.settings.isLenient then
      .ok [{ level := .warning, origin := .query
             text := "Ignoring unknown Query Object operations for \"" ++
               q.compiler.collection.plain ++ "\": " ++ String.intercalate ", " names }]
    else .error (.invalid (.unknownOperations names))

/-- The filter section of a query object, with the warnings about it. -/
def readFilter (q : Query) (object : Document) : Except Fault (Filter × List LogEntry) :=
  Filter.read q.filtering ((QueryObject.filter? object).getD .null)

/-- Whether a section, once it is given, may be. -/
def requireEnabled (q : Query) (part : Section) : Except Fault Unit :=
  q.compiler.settings.requireEnabled q.compiler.collection.plain part

/-- Whether there is a value and it is not null. -/
def isGiven (v? : Option Value) : Bool :=
  (v?.getD .null) != .null

/-- Gives the sections their input, one after another, until one refuses it. -/
def fillWith (q : Query) (filter? sort? : Option Value) (page? : Option Page.Input) :
    Progress × List LogEntry × Except Fault Unit :=
  let filtered := Filter.read q.filtering (filter?.getD .null)
  match Slot.take (q.requireEnabled .filter) (isGiven filter?) filtered with
  | (.held (filter, warnings), none) =>
    let sort := Slot.take (q.requireEnabled .sort) (isGiven sort?)
      (Sorting.read q.compiler.settings.sorting (sort?.getD .null))
    let progress := { filter := .held filter, sort := sort.1 }
    match sort.2 with
    | some fault => (progress, warnings, .error fault)
    | none =>
      let page := Slot.take (q.requireEnabled .limit)
        (page?.any fun input => !input.isNull)
        (Page.read q.compiler.settings.paging (page?.getD {}))
      let progress := { progress with page := page.1 }
      match page.2 with
      | some fault => (progress, warnings, .error fault)
      | none => (progress, warnings, .ok ())
  | (.failed, some fault) =>
    ({ filter := .failed }, Filter.warnings q.filtering (filter?.getD .null), .error fault)
  | (_, some fault) => ({}, [], .error fault)
  | (_, none) => ({}, [], .ok ())

/-- Gives the sections of a query object their input. -/
def fill (q : Query) (object : Document) : Progress × List LogEntry × Except Fault Unit :=
  q.fillWith (QueryObject.filter? object) (QueryObject.sort? object) (QueryObject.page? object)

/-- Takes a query object whose keys are in order. A query that has taken one refuses another. -/
def take (q : Query) (object : Document) : Query × List LogEntry × Except Fault Unit :=
  match q.progress with
  | some _ => (q, [], .error .alreadyQueried)
  | none =>
    let (progress, log, result) := q.fill object
    ({ q with progress := some progress }, log, result)

/-! ## The pipeline -/

/-- The key of the owner's field in a scope. -/
def ownerKey (field : Value) : Except Fault String :=
  match field.keyText? with
  | some key => .ok key
  | none => .error (.misuse .notKey)

/-- The part of a ledger that a query is about: the principal's, and of it the account that the
filter compares with by plain equality. -/
def scope (q : Query) (ledger : Ledger) (ownerField : Value) : Except Fault Document := do
  let own ← match q.principal with
    | some principal =>
      if ownerField.isTruthy then (ownerKey ownerField).map fun key => [(key, principal.id)]
      else .ok []
    | none => .ok []
  match q.progress.bind (·.filter.get?) with
  | none => .error (.misuse .ledgerFilterUnread)
  | some filter =>
    match filter.constraints.scalar? ledger.account with
    | some account => .ok (Entries.put own ledger.account account)
    | none => .ok own

/-- The ledger of a query whose balance is computed. -/
def activeLedger (q : Query) : Option Ledger :=
  if q.compiler.settings.isEnabled .balance then q.compiler.ledger else none

/-- The stages for a ledger within a scope. -/
def ledgerStages (ledger : Ledger) (scope : Document) : List Stage :=
  (if scope.isEmpty then [] else [.keep scope]) ++ ledger.stages

/-- The pipeline of a query that has taken a query object. The scope of its ledger is that of the
query `source`, the one whose query object it is. -/
def pipeline (q source : Query) : Except Fault Pipeline := do
  let progress := q.progress.getD {}
  let (scope, before) ← match q.activeLedger with
    | some ledger =>
      (source.scope ledger q.compiler.settings.ownerField).map fun scope =>
        (scope, ledgerStages ledger scope)
    | none => .ok ([], [])
  match progress.filter.get?, progress.sort.get? with
  | none, _ => .error (.misuse (.sectionUnread .filter))
  | _, none => .error (.misuse (.sectionUnread .sort))
  | some filter, some sort =>
    let page := progress.page.get?.getD {}
    return {
      stages := before ++ [.keep filter.statement] ++ sort.stages ++ page.stages
      filter := filter.statement
      sort
      skip := page.skip
      limit := page.limit
      countFilter := Entries.merge scope filter.statement }

end Query

end QueryPipeline
