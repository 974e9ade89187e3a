import Mathlib.Data.Rat.Floor
import Mathlib.Data.List.Dedup
import QueryPipeline.Proofs.Execution

/-!
What the stages of a ledger do, in a store whose documents have fields. Numbers are counted exactly.
-/

namespace QueryPipeline

/-- What a field holds: a number, or something else. -/
inductive Datum where
  | number (x : ℚ)
  | value (v : Value)
deriving DecidableEq

/-- What a field adds to a sum: what is no number adds nothing. -/
def Datum.amount : Option Datum → ℚ
  | some (.number x) => x
  | _ => 0

/-- The nearest whole number, of two that are as near the even one. -/
def roundHalfEven (x : ℚ) : ℤ :=
  if x - ⌊x⌋ < 1 / 2 then ⌊x⌋
  else if 1 / 2 < x - ⌊x⌋ then ⌊x⌋ + 1
  else if ⌊x⌋ % 2 = 0 then ⌊x⌋
  else ⌊x⌋ + 1

theorem roundHalfEven_zero : roundHalfEven 0 = 0 := by
  norm_num [roundHalfEven]

/-! ## Paths -/

/-- Two paths of which one leads to the other, or into it. -/
def Overlap (f g : String) : Prop :=
  f = g ∨ (f ++ ".").toList <+: g.toList ∨ (g ++ ".").toList <+: f.toList

instance (f g : String) : Decidable (Overlap f g) :=
  inferInstanceAs (Decidable (f = g ∨ (f ++ ".").toList <+: g.toList ∨ (g ++ ".").toList <+: f.toList))

/-! ## Stores of documents with fields -/

/-- A store whose documents have fields: which entries of a filter hold of a document, how a field is
read, set and taken away, when one value comes before another or as early, and what becomes of
documents that are sorted, cut off after the first ones, or given to a stage of another kind. -/
structure Records (δ : Type) where
  holds : String → Value → δ → Bool
  read : String → δ → Option Datum
  write : String → Datum → δ → δ
  erase : String → δ → δ
  atMost : Option Datum → Option Datum → Bool
  arrange : SortSpec → List δ → List δ
  cut : Value → List δ → List δ
  other : Stage → List δ → List δ

namespace Records

variable {δ : Type} (r : Records δ)

/-- What setting and taking away fields, sorting and cutting off mean. -/
structure Lawful : Prop where
  read_write (f : String) (x : Datum) (d : δ) : r.read f (r.write f x d) = some x
  read_write_apart {f g : String} (x : Datum) (d : δ) :
    ¬ Overlap f g → r.read g (r.write f x d) = r.read g d
  read_erase_apart {f g : String} (d : δ) : ¬ Overlap f g → r.read g (r.erase f d) = r.read g d
  atMost_total (x y : Option Datum) : (r.atMost x y || r.atMost y x) = true
  atMost_trans (x y z : Option Datum) :
    r.atMost x y = true → r.atMost y z = true → r.atMost x z = true
  arrange_perm (spec : SortSpec) (docs : List δ) : (r.arrange spec docs).Perm docs
  cut_prefix (n : Value) (docs : List δ) : r.cut n docs <+: docs

/-- A number in hundredths, rounded. -/
def cents (field : String) (d : δ) : Datum :=
  match r.read field d with
  | some (.number x) => .number (roundHalfEven (100 * x))
  | _ => .value .null

/-- A number of hundredths. -/
def units (field : String) (d : δ) : Datum :=
  match r.read field d with
  | some (.number x) => .number (x / 100)
  | _ => .value .null

/-- Whether a document comes before another in the ascending order of fields, or as early. -/
def precedes : List String → δ → δ → Bool
  | [], _, _ => true
  | f :: rest, d, d' =>
    r.atMost (r.read f d) (r.read f d') &&
      (!r.atMost (r.read f d') (r.read f d) || precedes rest d d')

/-- Sets a field to the sum of another one over the documents so far, on top of what there is. -/
def totals (target source : String) : ℚ → List δ → List δ
  | _, [] => []
  | sum, d :: rest =>
    let sum := sum + Datum.amount (r.read source d)
    r.write target (.number sum) d :: totals target source sum rest

/-- The documents with the same value in a field. -/
def part (field : String) (x : Option Datum) (docs : List δ) : List δ :=
  docs.filter fun d => r.read field d = x

/-- Sums up each partition in order; documents that come equally early stay in theirs. -/
def accumulate (partition : String) (order : List String) (target source : String)
    (docs : List δ) : List δ :=
  (docs.map (r.read partition)).dedup.flatMap fun x =>
    r.totals target source 0 ((r.part partition x docs).mergeSort (r.precedes order))

/-- What a stage that is no filter makes of documents. -/
def transform : Stage → List δ → List δ
  | .toCents target source, docs => docs.map fun d => r.write target (r.cents source d) d
  | .accumulate partition order target source, docs =>
    r.accumulate partition order target source docs
  | .fromCents target source, docs => docs.map fun d => r.write target (r.units source d) d
  | .drop fields, docs => docs.map fun d => fields.foldl (fun d f => r.erase f d) d
  | .sort spec, docs => r.arrange spec docs
  | .skip n, docs => docs.drop n.toNat
  | .limit n, docs => r.cut n docs
  | stage, docs => r.other stage docs

/-- The store as its pipelines see it. -/
def engine : Engine δ where
  holds := r.holds
  transform := r.transform

theorem run_cons (stage : Stage) (rest : List Stage) (docs : List δ) :
    r.engine.run (stage :: rest) docs = r.engine.run rest (r.engine.step stage docs) := rfl

theorem amount_cents (field : String) (d : δ) :
    Datum.amount (some (r.cents field d)) =
      roundHalfEven (100 * Datum.amount (r.read field d)) := by
  unfold cents
  split
  · rename_i x h
    rw [h]; rfl
  · rename_i h
    cases hx : r.read field d with
    | none => simp [Datum.amount, roundHalfEven_zero]
    | some x =>
        cases x with
        | number x => exact absurd hx (h x)
        | value v => simp [Datum.amount, roundHalfEven_zero]

variable {r}

theorem Lawful.precedes_total (h : r.Lawful) (order : List String) (d d' : δ) :
    (r.precedes order d d' || r.precedes order d' d) = true := by
  induction order with
  | nil => rfl
  | cons f rest ih =>
      have htotal := h.atMost_total (r.read f d) (r.read f d')
      simp only [precedes]
      grind

theorem Lawful.precedes_trans (h : r.Lawful) (order : List String) (d₁ d₂ d₃ : δ)
    (h₁ : r.precedes order d₁ d₂ = true) (h₂ : r.precedes order d₂ d₃ = true) :
    r.precedes order d₁ d₃ = true := by
  induction order with
  | nil => rfl
  | cons f rest ih =>
      have htrans := h.atMost_trans
      simp only [precedes] at h₁ h₂ ⊢
      grind

end Records

end QueryPipeline
