import QueryPipeline.Value.LeadingInteger

/-!
The limit section: how many documents to skip and how many to give. Negative numbers count as not
given; a cap in the settings holds for every query.
-/

namespace QueryPipeline

/-- The part of the documents that is asked for. The limit is a whole number, unless it is a cap of
another kind. -/
structure Page where
  skip : Option Int := none
  limit : Option Value := none

namespace Page

/-- The keys of a query object that make up the section. -/
def keys : List String :=
  ["limitCount", "offsetCount", "startAfter"]

/-- The section as it was given: the limit, and two ways to say how many documents to skip, of which
the second wins. -/
structure Input where
  count : Value := .null
  offset : Value := .null
  start : Value := .null

/-- Whether the whole section is null. -/
def Input.isNull (i : Input) : Bool :=
  i.count = .null && i.offset = .null && i.start = .null

/-- The section as a list of its three values. -/
def Input.toValue (i : Input) : Value :=
  .list [i.count, i.offset, i.start]

/-- How the section is read: the cap, or null for none, and how strictly. -/
structure Rules where
  cap : Value
  lenient : Bool

/-- Whether the cap of the rules can be one: a positive number, or none at all. -/
def Rules.check (rules : Rules) : Except Fault Unit :=
  if rules.cap = .null then .ok ()
  else
    match rules.cap.exceeds? 0 with
    | some true => .ok ()
    | some false => .error (.misuse .capNotPositive)
    | none => .error (.misuse .capNotNumber)

/-- The whole number that a value under the given key stands for. A strict reader wants one, or
null. -/
def integer (rules : Rules) (key : String) (v : Value) : Except Fault (Option Int) :=
  v.toInteger.bind fun
    | some n => .ok (some n)
    | none =>
      if rules.lenient || v = .null then .ok none
      else .error (.invalid (.notInteger key))

/-- A number that is not negative. -/
def natural? (n? : Option Int) : Option Int :=
  n?.filter (0 ≤ ·)

/-- The limit under a cap: the cap itself, unless a smaller positive number is asked for. -/
def capped (cap : Value) (limit : Option Int) : Option Value :=
  if cap.isTruthy then
    match limit with
    | some n => if n ≠ 0 ∧ cap.exceeds? n = some true then some (.int n) else some cap
    | none => some cap
  else limit.map .int

/-- Reads the limit section. -/
def read (rules : Rules) (i : Input) : Except Fault Page := do
  let limit ← integer rules "limitCount" i.count
  let start ← integer rules "startAfter" i.start
  let skip ← match start with
    | some n => .ok (some n)
    | none => integer rules "offsetCount" i.offset
  return { skip := natural? skip, limit := capped rules.cap (natural? limit) }

/-- Whether the page leaves anything out. -/
def isProper (p : Page) : Bool :=
  (match p.limit with
    | some limit => limit.isTruthy
    | none => false) || (match p.skip with
    | some skip => skip != 0
    | none => false)

end Page

end QueryPipeline
