import QueryPipeline.Proofs.FlatStore
import QueryPipeline.Proofs.LedgerStages

/-!
The balance of a ledger's document is the sum over its account up to it. What a query asks for decides
which documents are given, and nothing about their balances.
-/

namespace QueryPipeline

/-- The fields that are set are none of those that are looked at afterwards. -/
structure Ledger.Proper (l : Ledger) : Prop where
  account : ∀ f ∈ l.computed, ¬ Overlap f l.account
  date : ¬ Overlap l.amountCents l.date
  tiebreak : ¬ Overlap l.amountCents l.tiebreak
  balance : ¬ Overlap l.amountCents l.balance

theorem Ledger.balanceCents_apart (l : Ledger) : ¬ Overlap l.balanceCents l.balance := by
  have hcents : "Cents".toList = ['C', 'e', 'n', 't', 's'] := rfl
  have hdot : ".".toList = ['.'] := rfl
  unfold balanceCents
  rintro (h | h | h)
  · have hlength := congrArg (List.length ∘ String.toList) h
    simp [hcents] at hlength
  · have hlength := h.length_le
    simp [hcents, hdot] at hlength
  · simp [hcents, hdot, List.prefix_append_right_inj] at h

namespace Records

variable {δ : Type} (r : Records δ) (l : Ledger)

/-- Whether a place of the same account comes before another, or is the same. -/
def counts (q p : δ × Nat) : Bool :=
  decide (r.read l.account q.1 = r.read l.account p.1) && r.upTo [l.date, l.tiebreak] q p

/-- The sum of the amounts in cents up to a place, over the places of its account. -/
def centsUpTo (places : List (δ × Nat)) (p : δ × Nat) : ℚ :=
  ((places.filter fun q => r.counts l q p).map fun q =>
    (roundHalfEven (100 * Datum.amount (r.read l.amount q.1)) : ℚ)).sum

/-- The balance at a place, within a scope. -/
def balanceAt (scope : Document) (docs : List δ) (p : δ × Nat) : ℚ :=
  r.centsUpTo l (r.within scope docs) p / 100

/-- The document at a place as a query gives it. -/
def settled (scope : Document) (docs : List δ) (p : δ × Nat) : δ :=
  r.settle l (r.centsUpTo l (r.within scope docs) p) p.1

variable {r l}

theorem Lawful.read_settle (h : r.Lawful) (hl : l.Proper) (cents : ℚ) (d : δ) :
    r.read l.balance (r.settle l cents d) = some (.number (cents / 100)) := by
  rw [settle, h.read_erase_apart _ l.balanceCents_apart, h.read_erase_apart _ hl.balance, h.read_write]

theorem Lawful.read_settle_apart (h : r.Lawful) {f : String}
    (hf : ∀ g ∈ l.computed, ¬ Overlap g f) (cents : ℚ) (d : δ) :
    r.read f (r.settle l cents d) = r.read f d := by
  simp only [Ledger.computed, List.forall_mem_cons] at hf
  obtain ⟨ha, hb, hf, -⟩ := hf
  rw [settle, h.read_erase_apart _ hb, h.read_erase_apart _ ha, h.read_write_apart _ _ hf,
    h.read_write_apart _ _ hb, priced, h.read_write_apart _ _ ha]

/-! ## The stages of the ledger -/

theorem Lawful.counts_priced (h : r.Lawful) (hl : l.Proper) (q p : δ × Nat) :
    r.counts l (r.priced l q.1, q.2) (r.priced l p.1, p.2) = r.counts l q p := by
  have haccount : ¬ Overlap l.amountCents l.account := hl.account _ (by simp [Ledger.computed])
  simp [counts, upTo, precedes, priced, h.read_write_apart, haccount, hl.date, hl.tiebreak]

theorem Lawful.ledgerSum_eq (h : r.Lawful) (hl : l.Proper) (places : List (δ × Nat)) (p : δ × Nat) :
    r.ledgerSum l places p = r.centsUpTo l places p := by
  have hcounts := fun q => h.counts_priced hl q p
  simp only [counts] at hcounts
  simp only [ledgerSum, total, centsUpTo, counts, List.filter_map, List.map_map, Function.comp_def, hcounts]
  refine congrArg List.sum (List.map_congr_left fun q _ => ?_)
  rw [priced, h.read_write, amount_cents]

/-! ## The scope -/

/-- What the scope asks of the account, beside what it asks of the owner. -/
def accountHolds (r : Records δ) (l : Ledger) (f : Filter) (d : δ) : Bool :=
  match f.constraints.scalar? l.account with
  | some v => r.holds l.account v d
  | none => true

theorem accepts_scopeFor {q : Query} {object : Document} {filter : Filter} {sort : SortSpec}
    {page : Page} (hreads : q.Reads object filter sort page) (hl : q.activeLedger = some l) (d : δ) :
    r.engine.accepts (q.scopeFor filter) d =
      (r.engine.accepts (ownScope q.compiler.settings.ownerField q.principal) d &&
        r.accountHolds l filter d) := by
  let own := ownScope q.compiler.settings.ownerField q.principal
  have hscope : q.scopeFor filter = filter.scopeWithin l own := by simp [Query.scopeFor, hl, own]
  have hown : (Entries.keys own).Nodup := nodup_ownScope _ _
  rw [hscope, Filter.scopeWithin, accountHolds]
  cases hscalar : filter.constraints.scalar? l.account with
  | none => rw [Bool.and_true]
  | some v =>
      rw [Bool.eq_iff_iff, Bool.and_eq_true, r.engine.accepts_iff (Entries.nodup_put hown _ _),
        r.engine.accepts_iff hown]
      constructor
      · intro h
        refine ⟨fun key w hw => ?_, h l.account v (Entries.get?_put_self own l.account v)⟩
        by_cases hkey : key = l.account
        · subst hkey
          rw [← hreads.own_agree hw hscalar]
          exact h l.account v (Entries.get?_put_self own l.account v)
        · exact h key w (by rw [Entries.get?_put_of_ne _ _ hkey]; exact hw)
      · rintro ⟨h, haccount⟩ key w hw
        rw [Entries.get?_put] at hw
        split at hw
        · rename_i hkey
          cases hw; subst hkey
          exact haccount
        · exact h key w hw

/-- Leaving out other accounts leaves the sums of an account as they are. -/
theorem centsUpTo_filter {places : List (δ × Nat)} {test : δ → Bool} {p : δ × Nat}
    (htest : ∀ d, r.read l.account d = r.read l.account p.1 → test d = true) :
    r.centsUpTo l (places.filter fun q => test q.1) p = r.centsUpTo l places p := by
  have hsame : (places.filter fun q => test q.1).filter (fun q => r.counts l q p) =
      places.filter fun q => r.counts l q p := by
    rw [List.filter_filter]
    refine List.filter_congr fun q _ => ?_
    cases hq : r.counts l q p with
    | false => rfl
    | true =>
        simp only [counts, Bool.and_eq_true, decide_eq_true_eq] at hq
        rw [htest q.1 hq.1]; rfl
  rw [centsUpTo, hsame, centsUpTo]

/-! ## Whole pipelines -/

theorem exists_map_of_perm {α β : Type} {f : α → β} {xs : List β} {places : List α}
    (h : xs.Perm (places.map f)) : ∃ given : List α, given.Perm places ∧ xs = given.map f := by
  have hgiven : Relation.Comp (· = List.map f ·) List.Perm xs places := by
    rw [List.eq_map_comp_perm]
    exact h
  obtain ⟨given, rfl, hperm⟩ := hgiven
  exact ⟨given, hperm, rfl⟩

theorem within_eq {q : Query} {object : Document} {filter : Filter} {sort : SortSpec}
    {page : Page} (hreads : q.Reads object filter sort page) (hl : q.activeLedger = some l)
    (docs : List δ) :
    r.within (q.scopeFor filter) docs =
      (r.within (ownScope q.compiler.settings.ownerField q.principal) docs).filter
        fun p => r.accountHolds l filter p.1 := by
  rw [within, within, List.filter_filter]
  refine List.filter_congr fun p _ => ?_
  rw [accepts_scopeFor hreads hl, Bool.and_comm]

theorem accountHolds_congr (haccount : ∀ v d d', r.read l.account d = r.read l.account d' →
      r.holds l.account v d = r.holds l.account v d') (f : Filter) {d d' : δ}
    (hd : r.read l.account d = r.read l.account d') :
    r.accountHolds l f d = r.accountHolds l f d' := by
  rw [accountHolds, accountHolds]
  cases f.constraints.scalar? l.account with
  | none => rfl
  | some v => exact haccount v d d' hd

theorem accountHolds_of_accepts {f : Filter} {d : δ} (h : r.engine.accepts f.statement d = true) :
    r.accountHolds l f d = true := by
  rw [accountHolds]
  cases hscalar : f.constraints.scalar? l.account with
  | none => rfl
  | some v => exact r.engine.holds_of_accepts h (Filter.statement_of_scalar? hscalar)

/-- Before a page is cut out, a pipeline gives the documents within the caller's scope that its filter
accepts, each with its balance. -/
theorem Lawful.run_unpaged (h : r.Lawful) (hl : l.Proper)
    (haccount : ∀ v d d', r.read l.account d = r.read l.account d' →
      r.holds l.account v d = r.holds l.account v d')
    {q : Query} {object : Document} {filter : Filter} {sort : SortSpec} {page : Page}
    (hreads : q.Reads object filter sort page) (hactive : q.activeLedger = some l) (docs : List δ) :
    let own := ownScope q.compiler.settings.ownerField q.principal
    (r.engine.run (q.assemble filter sort page).unpaged docs).Perm
      (((r.within own docs).filter fun place =>
        r.engine.accepts filter.statement (r.settled l own docs place)).map (r.settled l own docs)) := by
  intro own
  have hkept : r.within (q.scopeFor filter) docs =
      (r.within own docs).filter fun p => r.accountHolds l filter p.1 := within_eq hreads hactive docs
  have hledger : (r.engine.run (q.stagesBefore filter) docs).Perm
      ((r.within (q.scopeFor filter) docs).map (r.settled l own docs)) := by
    have hbefore : q.stagesBefore filter = Query.ledgerStages l (q.scopeFor filter) := by
      simp [Query.stagesBefore, hactive]
    rw [hbefore, run_ledgerStages, ← map_fst_within]
    refine (h.ledger_places (pairwise_within _ _)).trans (.of_eq (List.map_congr_left fun p hp => ?_))
    -- The account of a place within the scope is there as a whole.
    rw [hkept] at hp ⊢
    have hp := (List.mem_filter.mp hp).2
    rw [h.ledgerSum_eq hl, settled, centsUpTo_filter fun d hd => ?_]
    rw [accountHolds_congr haccount filter hd]
    exact hp
  have haccepted : (r.within (q.scopeFor filter) docs).filter (fun place =>
        r.engine.accepts filter.statement (r.settled l own docs place)) =
      (r.within own docs).filter fun place =>
        r.engine.accepts filter.statement (r.settled l own docs place) := by
    rw [hkept, List.filter_filter]
    refine List.filter_congr fun place _ => ?_
    cases haccepts : r.engine.accepts filter.statement (r.settled l own docs place) with
    | false => rfl
    | true =>
        have hread := h.read_settle_apart hl.account (r.centsUpTo l (r.within own docs) place) place.1
        rw [← accountHolds_congr haccount filter hread]
        exact accountHolds_of_accepts haccepts
  rw [Query.unpaged_assemble, Engine.run_append, Engine.run_keep, ← haccepted]
  refine (h.run_sort_perm sort _).trans ((hledger.filter _).trans (.of_eq ?_))
  rw [List.filter_map]
  rfl

end Records

/-- What a query on a ledger gives are the documents within the caller's scope that its filter accepts,
or a page of them. Each carries the balance of its place in the store: the sum of its account's
amounts within the scope up to it. What the query asks for has no part in that. -/
theorem Compiler.running_balance {c : Compiler} (hs : c.settings.NamesOwner) {l : Ledger}
    (hledger : c.ledger = some l) (henabled : c.settings.isEnabled .balance = true) (hl : l.Proper)
    {δ : Type} {r : Records δ} (hr : r.Lawful)
    (haccount : ∀ v d d', r.read l.account d = r.read l.account d' →
      r.holds l.account v d = r.holds l.account v d')
    (principal : Option Principal) (docs : List δ) :
    let own := ownScope c.settings.ownerField principal
    let settled := r.settled l own docs
    (∀ object p, c.compile principal object = .ok p → ∃ places given : List (δ × Nat),
      places.Perm ((r.within own docs).filter fun place => r.engine.accepts p.filter (settled place)) ∧
      r.engine.run p.unpaged docs = places.map settled ∧
      given.Sublist places ∧ r.engine.run p.stages docs = given.map settled) ∧
    ∀ place, r.read l.balance (settled place) = some (.number (r.balanceAt l own docs place)) ∧
      ∀ f, (∀ g ∈ l.computed, ¬ Overlap g f) → r.read f (settled place) = r.read f place.1 := by
  intro own settled
  refine ⟨fun object p hp => ?_, fun place => ⟨hr.read_settle hl _ _, fun f hf => ?_⟩⟩
  · let q : Query := { compiler := c, principal }
    rw [c.compile_eq] at hp
    obtain ⟨filter, sort, page, hreads, rfl⟩ := Query.compile_ok (q := q) rfl hs hp
    have hactive : q.activeLedger = some l := by simp [q, Query.activeLedger, henabled, hledger]
    obtain ⟨places, hplaces, hrun⟩ :=
      Records.exists_map_of_perm (hr.run_unpaged hl haccount hreads hactive docs)
    have hpaging : ∀ stage ∈ page.stages, stage.isPaging = true := Query.isPaging_page
    have hpage := hr.run_paging_sublist hpaging (places.map settled)
    obtain ⟨given, hgiven, hmap⟩ := List.sublist_map_iff.mp hpage
    refine ⟨places, given, hplaces, hrun, hgiven, ?_⟩
    rw [Query.stages_assemble, ← Query.unpaged_assemble q filter sort page, Engine.run_append, hrun]
    exact hmap
  · exact hr.read_settle_apart hf _ _

/-- A user asks for the largest amount of an account that another user writes to as well. -/
theorem Compiler.running_balance_shared_account :
    let booking (user account date id : String) (amount : ℚ) : Flat :=
      [("userId", .value (.text user)), ("accountId", .value (.text account)),
        ("date", .value (.text date)), ("id", .value (.text id)), ("amount", .number amount)]
    let docs := [booking "u1" "a" "2024-01-02" "2" (5 / 2), booking "u2" "a" "2024-01-01" "1" 100,
      booking "u1" "b" "2024-01-01" "3" 7, booking "u1" "a" "2024-01-01" "4" (1 / 4)]
    let principal : Option Principal := some { id := .text "u1" }
    let own := ownScope (.text "userId") principal
    let object : Document := [("conditions", .list [.object [("field", .text "accountId"),
      ("operator", .text "=="), ("value", .text "a")]]), ("orderByField", .text "amount"),
      ("limitCount", .int 1)]
    ∃ p, usualLedger.compile principal object = .ok p ∧
      (∃ places given : List (Flat × Nat), places.Perm ((Flat.plain.within own docs).filter
          fun place => Flat.plain.engine.accepts p.filter (Flat.plain.settled {} own docs place)) ∧
        Flat.plain.engine.run p.unpaged docs = places.map (Flat.plain.settled {} own docs) ∧
        given.Sublist places ∧
        Flat.plain.engine.run p.stages docs = given.map (Flat.plain.settled {} own docs)) ∧
      Flat.plain.read "balance" (Flat.plain.settled {} own docs
        (booking "u1" "a" "2024-01-02" "2" (5 / 2), 0)) = some (.number (11 / 4)) := by
  intro booking docs principal own object
  have hkeys : ∀ key ∈ Entries.keys object, key ∈ QueryObject.keys := by decide
  obtain ⟨p, hp⟩ : ∃ p, usualLedger.compile principal object = .ok p := by
    rw [compile_eq, Query.compile_of_known _ hkeys]
    exact ⟨_, rfl⟩
  have hlawful : Flat.plain.Lawful := Flat.store_lawful _
  have haccount : ∀ v d d', Flat.plain.read "accountId" d = Flat.plain.read "accountId" d' →
      Flat.plain.holds "accountId" v d = Flat.plain.holds "accountId" v d' :=
    fun v d d' hd => congrArg (fun x => Datum.meets x v) hd
  have h := running_balance (c := usualLedger) (.inr ⟨"userId", rfl⟩) rfl rfl
    ⟨by decide, by decide, by decide, by decide⟩ hlawful haccount principal docs
  have hbalance : Flat.plain.balanceAt {} own docs (booking "u1" "a" "2024-01-02" "2" (5 / 2), 0) =
      11 / 4 := by decide +kernel
  exact ⟨p, hp, h.1 object p hp, hbalance ▸ (h.2 _).1⟩

end QueryPipeline
