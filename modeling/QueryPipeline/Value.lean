import QueryPipeline.Entries
import QueryPipeline.Instant
import QueryPipeline.Number.Double

/-!
The values that documents, queries and settings are made of: those of JSON, with whole numbers apart
from doubles, and points in time.
-/

namespace QueryPipeline

/-- A value. The entries of an object keep their order, and no key occurs twice. -/
inductive Value where
  | null
  | bool (b : Bool)
  | int (n : Int)
  | float (x : Double)
  | text (s : String)
  | list (items : List Value)
  | object (entries : List (String × Value))
  | time (t : Instant)

/-- A document, or any other object: fields with their values, in order. -/
abbrev Document := Entries String Value

namespace Value

instance : Inhabited Value := ⟨.null⟩

/-! ## Equality -/

mutual
/-- Whether two values are the same, kind for kind. -/
def same : Value → Value → Bool
  | .null, .null => true
  | .bool a, .bool b => a == b
  | .int a, .int b => a == b
  | .float a, .float b => a == b
  | .text a, .text b => a == b
  | .list a, .list b => sameItems a b
  | .object a, .object b => sameEntries a b
  | .time a, .time b => a == b
  | _, _ => false

/-- Whether two lists hold the same values in the same order. -/
def sameItems : List Value → List Value → Bool
  | [], [] => true
  | a :: as, b :: bs => same a b && sameItems as bs
  | _, _ => false

/-- Whether two lists of entries are the same, order included. -/
def sameEntries : List (String × Value) → List (String × Value) → Bool
  | [], [] => true
  | (k, a) :: as, (l, b) :: bs => k == l && same a b && sameEntries as bs
  | _, _ => false
end

mutual
theorem same_iff : ∀ a b : Value, same a b = true ↔ a = b
  | .null, b => by cases b <;> simp [same]
  | .bool _, b => by cases b <;> simp [same]
  | .int _, b => by cases b <;> simp [same]
  | .float _, b => by cases b <;> simp [same]
  | .text _, b => by cases b <;> simp [same]
  | .list as, b => by cases b <;> simp [same, sameItems_iff as]
  | .object as, b => by cases b <;> simp [same, sameEntries_iff as]
  | .time _, b => by cases b <;> simp [same]

theorem sameItems_iff : ∀ as bs : List Value, sameItems as bs = true ↔ as = bs
  | [], bs => by cases bs <;> simp [sameItems]
  | a :: as, bs => by cases bs <;> simp [sameItems, same_iff a, sameItems_iff as]

theorem sameEntries_iff : ∀ as bs : List (String × Value), sameEntries as bs = true ↔ as = bs
  | [], bs => by cases bs <;> simp [sameEntries]
  | (k, a) :: as, bs => by
    cases bs with
    | nil => simp [sameEntries]
    | cons b bs => obtain ⟨l, b⟩ := b; simp [sameEntries, same_iff a, sameEntries_iff as]
end

instance : DecidableEq Value := fun a b =>
  if h : same a b = true then .isTrue ((same_iff a b).1 h)
  else .isFalse fun e => h ((same_iff a b).2 e)

/-! ## Kinds -/

/-- Nothing, zero, the empty text and the empty collections count as no answer to a yes-or-no
question. -/
def isTruthy : Value → Bool
  | .null => false
  | .bool b => b
  | .int n => n != 0
  | .float x => !x.isZero
  | .text s => s != ""
  | .list items => !items.isEmpty
  | .object entries => !entries.isEmpty
  | .time _ => true

/-- The value, unless it counts as no answer. -/
def orElse (v fallback : Value) : Value :=
  if v.isTruthy then v else fallback

/-- Collections cannot be looked up in a set or be the key of a map. -/
def isKey : Value → Bool
  | .list _ | .object _ => false
  | _ => true

/-- The entries of an object. -/
def entries? : Value → Option Document
  | .object entries => some entries
  | _ => none

/-- The text, of a text. -/
def text? : Value → Option String
  | .text s => some s
  | _ => none

/-! ## Comparison -/

/-- A number as a fraction; the truth values count as zero and one. -/
def ratio? : Value → Option (Int × Nat)
  | .bool b => some (if b then 1 else 0, 1)
  | .int n => some (n, 1)
  | .float x => x.ratio?
  | _ => none

/-- Whether two numbers are equal, whatever their kinds. -/
def equalNumbers (a b : Value) : Bool :=
  match a, b with
  | .float (.infinite s), .float (.infinite t) => s == t
  | a, b =>
    match a.ratio?, b.ratio? with
    | some (n, d), some (m, e) => n * e == m * d
    | _, _ => false

/-- Whether a number is above the given whole number; `none` for what is not a number. -/
def exceeds? (v : Value) (n : Int) : Option Bool :=
  match v with
  | .float .nan => some false
  | .float (.infinite negative) => some !negative
  | v => v.ratio?.map fun (m, d) => decide (n * d < m)

mutual
/-- Whether two values are equal as data: numbers by what they count, objects whatever the order
of their entries. -/
def alike : Value → Value → Bool
  | .null, .null => true
  | .text a, .text b => a == b
  | .time a, .time b => a == b
  | .list a, .list b => alikeItems a b
  | .object a, .object b => a.length == b.length && alikeEntries a b
  | a, b => equalNumbers a b

/-- Whether two lists are equal as data, item for item. -/
def alikeItems : List Value → List Value → Bool
  | [], [] => true
  | a :: as, b :: bs => alike a b && alikeItems as bs
  | _, _ => false

/-- Whether every entry has one of the same key, equal as data, among the others. -/
def alikeEntries : List (String × Value) → List (String × Value) → Bool
  | [], _ => true
  | (k, a) :: as, bs =>
    (match Entries.get? bs k with
      | some b => alike a b
      | none => false) && alikeEntries as bs
end

end Value

end QueryPipeline
