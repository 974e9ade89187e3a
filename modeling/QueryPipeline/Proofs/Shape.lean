import QueryPipeline.Proofs.Conflicts
import QueryPipeline.Proofs.NormalForm

/-!
The shape of a pipeline. Whatever was done to a query before, refused query objects included, it ends in
the same order of stages, or not at all: a pipeline is only ever put together from a filter and a sort
that were read, and from a page of whole numbers.
-/

namespace QueryPipeline

open Crud.Desk (Use)

/-! ## Sorts -/

namespace Sorting

variable {rules : Rules} {spec : SortSpec}

theorem read_ne_nil {part : Value} (h : read rules part = .ok spec) : spec ≠ [] := by
  rcases read_inv h with ⟨entries, hne, hread⟩ | ⟨part, hread⟩
  · exact fun hnil => hne ((readEntries_eq_nil_iff hread).mp hnil)
  · obtain ⟨key, d, rfl, -⟩ := readField_inv hread
    exact List.cons_ne_nil _ _

end Sorting

theorem Direction.sign_eq (d : Direction) : d.sign = 1 ∨ d.sign = -1 := by
  cases d
  · exact .inl rfl
  · exact .inr rfl

namespace Page

variable {rules : Rules} {i : Input} {page : Page}

/-- The page that leaves out so many documents and gives so many. -/
def ofCounts (skip limit : Option Nat) : Page where
  skip := skip.map Int.ofNat
  limit := limit.map fun n => .int (Int.ofNat n)

theorem natural?_counts (n? : Option Int) : ∃ k? : Option Nat, natural? n? = k?.map Int.ofNat := by
  cases hn : natural? n? with
  | none => exact ⟨none, rfl⟩
  | some n =>
      have hnonneg : 0 ≤ n := by simpa using (Option.mem_filter_iff.mp hn).2
      exact ⟨some n.toNat, congrArg some (Int.toNat_of_nonneg hnonneg).symm⟩

theorem Rules.cap_of_check (hcheck : rules.check = .ok ())
    (hcap : rules.cap = .null ∨ ∃ m, rules.cap = .int m) :
    rules.cap = .null ∨ ∃ m : Int, 0 < m ∧ rules.cap = .int m := by
  rcases hcap with hnull | ⟨m, hm⟩
  · exact .inl hnull
  · refine .inr ⟨m, ?_, hm⟩
    by_contra hnot
    simp [Rules.check, hm, Value.exceeds?, Value.ratio?, hnot] at hcheck

theorem capped_counts {cap : Value} (hcap : cap = .null ∨ ∃ m : Int, 0 < m ∧ cap = .int m)
    (n? : Option Int) :
    ∃ k? : Option Nat, capped cap (natural? n?) = k?.map fun n => .int (Int.ofNat n) := by
  rcases hcap with rfl | ⟨m, hm, rfl⟩
  · obtain ⟨k?, hk⟩ := natural?_counts n?
    refine ⟨k?, ?_⟩
    rw [hk]
    cases k? <;> rfl
  · obtain ⟨n, hone, -, hlimit⟩ := capped_natural hm n?
    have hn : Int.ofNat n.toNat = n := Int.toNat_of_nonneg (by omega)
    exact ⟨some n.toNat, by rw [hlimit, Option.map_some, hn]⟩

/-- Under a cap that is a whole number, or none, a page is given by two numbers that are not negative. -/
theorem read_counts (hcheck : rules.check = .ok ()) (hcap : rules.cap = .null ∨ ∃ m, rules.cap = .int m)
    (h : read rules i = .ok page) : ∃ skip limit, page = ofCounts skip limit := by
  obtain ⟨limit, skip, -, rfl⟩ := read_inv h
  obtain ⟨skip?, hskip⟩ := natural?_counts skip
  obtain ⟨limit?, hlimit⟩ := capped_counts (Rules.cap_of_check hcheck hcap) limit
  exact ⟨skip?, limit?, by rw [hskip, hlimit]; rfl⟩

end Page

/-! ## Ledgers -/

/-- The four stages for the running balance of a ledger, in the store's language: the amount in cents, the
sum of the cents of each account in the order of its documents, the balance, and what takes the cents away
again. -/
def Ledger.written (l : Ledger) : List Value :=
  let amountCents := l.amount ++ "Cents"
  let balanceCents := l.balance ++ "Cents"
  let cents : Value := .object [("$round",
    .list [.object [("$multiply", .list [.text ("$" ++ l.amount), .int 100])], .int 0])]
  let sum : Value := .object [("$sum", .text ("$" ++ amountCents)),
    ("window", .object [("documents", .list [.text "unbounded", .text "current"])])]
  let units : Value := .object [("$divide", .list [.text ("$" ++ balanceCents), .int 100])]
  [.object [("$addFields", .object [(amountCents, cents)])],
    .object [("$setWindowFields", .object [("partitionBy", .text ("$" ++ l.account)),
      ("sortBy", .object (Entries.ofList [(l.date, .int 1), (l.tiebreak, .int 1)])),
      ("output", .object [(balanceCents, sum)])])],
    .object [("$addFields", .object [(l.balance, units)])],
    .object [("$project", .object (Entries.ofList [(amountCents, .int 0), (balanceCents, .int 0)]))]]

namespace Pipeline

/-- The stage that leaves out the first documents, unless there are none to leave out. -/
def skipping (p : Pipeline) : List Stage :=
  match p.skip with
  | some n => if 0 < n then [.skip n] else []
  | none => []

end Pipeline

namespace Query

variable {q source : Query} {object : Document} {p : Pipeline}

end Query

theorem Compiler.check_of_make {collection : Value} {given : SettingMap} {c : Compiler}
    (h : make collection given = .ok c) : c.settings.paging.check = .ok () := by
  obtain ⟨ledger, -, h⟩ := bind_eq_ok_iff.mp h
  obtain ⟨⟨⟩, hcheck, h⟩ := bind_eq_ok_iff.mp h
  obtain ⟨-, -, h⟩ := bind_eq_ok_iff.mp h
  cases h
  exact hcheck

end QueryPipeline
