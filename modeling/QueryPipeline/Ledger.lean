import QueryPipeline.Fault

/-! Ledgers: collections whose documents carry an amount and get a running balance per account. -/

namespace QueryPipeline

/-- The fields of a ledger's documents. Documents are ordered by date, then by the tie-breaker. -/
structure Ledger where
  amount : String := "amount"
  account : String := "accountId"
  date : String := "date"
  tiebreak : String := "id"
  balance : String := "balance"
deriving DecidableEq, Repr

namespace Ledger

/-- The computed field for the amount in cents. -/
def amountCents (l : Ledger) : String :=
  l.amount ++ "Cents"

/-- The computed field for the balance in cents. -/
def balanceCents (l : Ledger) : String :=
  l.balance ++ "Cents"

/-- The fields by the names that settings give them. -/
def toValue (l : Ledger) : Value :=
  .object [("amount_field", .text l.amount), ("account_field", .text l.account),
    ("date_field", .text l.date), ("tiebreak_field", .text l.tiebreak),
    ("balance_field", .text l.balance)]

/-- Sets the field of this name in the settings. -/
def set? (l : Ledger) (name field : String) : Option Ledger :=
  match name with
  | "amount_field" => some { l with amount := field }
  | "account_field" => some { l with account := field }
  | "date_field" => some { l with date := field }
  | "tiebreak_field" => some { l with tiebreak := field }
  | "balance_field" => some { l with balance := field }
  | _ => none

/-- The ledger with the given fields; the others keep their usual names. -/
def ofEntries (entries : Document) : Except Fault Ledger :=
  entries.foldlM (fun ledger (name, field) =>
    match field with
    | .text field =>
      match ledger.set? name field with
      | some ledger => .ok ledger
      | none => .error (.misuse (.unknownSettings [name]))
    | _ => .error (.misuse .ledgerNotFields)) {}

end Ledger

end QueryPipeline
