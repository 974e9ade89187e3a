import QueryPipeline.Fault
import QueryPipeline.Text.Blank
import QueryPipeline.Text.Word

/-!
Templates: values with placeholders in them. A placeholder is a text that is a name between double
braces and nothing else; the keys of objects are never placeholders.
-/

namespace QueryPipeline.Template

open Text

/-- The name in a placeholder, white space around it left out. -/
def nameIn? (cs : List Char) : Option (List Char) :=
  match cs with
  | '\x7b' :: '\x7b' :: rest =>
    let rest := rest.dropWhile isBlank
    let name := rest.takeWhile isWord
    if name ≠ [] ∧ (rest.dropWhile isWord).dropWhile isBlank = ['\x7d', '\x7d'] then some name
    else none
  | _ => none

/-- The name of the placeholder that a value is. -/
def name? : Value → Option String
  | .text s => (nameIn? s.toList).map String.ofList
  | _ => none

mutual
/-- The names of all placeholders of a template, in the order of the document. -/
def names : Value → List String
  | .list items => namesOfItems items
  | .object entries => namesOfEntries entries
  | v => (name? v).toList

/-- The names of the placeholders in some values. -/
def namesOfItems : List Value → List String
  | [] => []
  | v :: rest => names v ++ namesOfItems rest

/-- The names of the placeholders in the values of some entries. -/
def namesOfEntries : List (String × Value) → List String
  | [] => []
  | (_, v) :: rest => names v ++ namesOfEntries rest
end

/-- What becomes of a value that is no collection: a placeholder gives way to its parameter; without
one it stays if that is allowed. -/
def substituteLeaf (lenient : Bool) (params : Document) (v : Value) : Except Fault Value :=
  match name? v with
  | none => .ok v
  | some name =>
    match Entries.get? params name with
    | some param => .ok param
    | none => if lenient then .ok v else .error (.invalid (.unresolvedPlaceholder name))

mutual
/-- Puts the parameters in the place of the placeholders. What a parameter brings along is not
looked at again. -/
def substitute (lenient : Bool) (params : Document) : Value → Except Fault Value
  | .list items => (substituteItems lenient params items).map .list
  | .object entries => (substituteEntries lenient params entries).map .object
  | v => substituteLeaf lenient params v

/-- Puts the parameters in the place of the placeholders in some values. -/
def substituteItems (lenient : Bool) (params : Document) : List Value → Except Fault (List Value)
  | [] => .ok []
  | v :: rest =>
    (substitute lenient params v).bind fun v =>
      (substituteItems lenient params rest).map fun rest => v :: rest

/-- Puts the parameters in the place of the placeholders in the values of some entries. -/
def substituteEntries (lenient : Bool) (params : Document) :
    List (String × Value) → Except Fault (List (String × Value))
  | [] => .ok []
  | (key, v) :: rest =>
    (substitute lenient params v).bind fun v =>
      (substituteEntries lenient params rest).map fun rest => (key, v) :: rest
end

end QueryPipeline.Template
