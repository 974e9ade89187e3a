import QueryPipeline.Filter
import QueryPipeline.Page
import QueryPipeline.Sorting

/-!
Query objects: what a client asks for. The client's keys are gathered into sections; a section may
also be given under its own name, and is overruled by its keys.
-/

namespace QueryPipeline.QueryObject

/-- The filter section. -/
def filter? (object : Document) : Option Value :=
  (Entries.get? object "conditions").or (Entries.get? object "filter")

/-- The sort section: an object of the keys that are there. -/
def sort? (object : Document) : Option Value :=
  match Sorting.keys.filterMap fun key => (Entries.get? object key).map fun v => (key, v) with
  | [] => Entries.get? object "sort"
  | entries => some (.object entries)

/-- The limit section; keys that are all null make up none. Given under its own name, it is the
limit alone. -/
def page? (object : Document) : Option Page.Input :=
  let given (key : String) : Value := (Entries.get? object key).getD .null
  if Page.keys.any (Entries.has object) then
    let input : Page.Input :=
      { count := given "limitCount", offset := given "offsetCount", start := given "startAfter" }
    if input.isNull then none else some input
  else (Entries.get? object "limit").map fun count => { count }

/-- The keys that a query object may have. -/
def keys : List String :=
  ["conditions", "filter"] ++ Sorting.keys ++ ["sort"] ++ Page.keys ++ ["limit"]

/-- The other keys of a query object, in order. -/
def unknown (object : Document) : List String :=
  ((Entries.keys object).filter fun key => !keys.contains key).mergeSort fun a b => decide (a ≤ b)

/-- The query object with the conditions under the name of the filter section. -/
def gatherFilter (object : Document) : Document :=
  match Entries.get? object "conditions" with
  | some conditions => Entries.put (Entries.without object ["conditions"]) "filter" conditions
  | none => object

/-- The query object with the keys of the sort section gathered. -/
def gatherSort (object : Document) : Document :=
  if Sorting.keys.any (Entries.has object) then
    Entries.put (Entries.without object Sorting.keys) "sort" ((sort? object).getD .null)
  else object

/-- The query object with the keys of the limit section gathered. -/
def gatherPage (object : Document) : Document :=
  if Page.keys.any (Entries.has object) then
    match page? object with
    | some input => Entries.put (Entries.without object Page.keys) "limit" input.toValue
    | none => Entries.without object ("limit" :: Page.keys)
  else object

/-- The query object with the keys of all sections gathered, one section after another. -/
def gathered (object : Document) : Document :=
  gatherPage (gatherSort (gatherFilter object))

/-- The limit section of a query object whose keys were gathered. -/
def limit? (object : Document) : Option Value :=
  if Page.keys.any (Entries.has object) then (page? object).map Page.Input.toValue
  else Entries.get? object "limit"

/-- The input in a limit section that was gathered: its three values if it was gathered from keys, else
the limit alone. -/
def pageIn? (fromKeys : Bool) (limit? : Option Value) : Option Page.Input :=
  limit?.map fun v =>
    match fromKeys, v with
    | true, .list [count, offset, start] => { count, offset, start }
    | _, count => { count }

end QueryPipeline.QueryObject
