import Mathlib.Data.Prod.Lex
import Mathlib.Data.String.Basic
import QueryPipeline.Proofs.Records

/-! A store of documents whose fields stand side by side, none of them within another. -/

namespace QueryPipeline

/-- The place of a value in the order of values: nothing comes first, then numbers, then texts. -/
def Datum.key : Option Datum → ℕ ×ₗ ℚ ×ₗ String
  | none | some (.value .null) => toLex (0, toLex (0, ""))
  | some (.number x) => toLex (1, toLex (x, ""))
  | some (.value (.text s)) => toLex (2, toLex (0, s))
  | some (.value _) => toLex (3, toLex (0, ""))

/-- Whether a field holds this value. -/
def Datum.is : Option Datum → Value → Bool
  | some (.number x), .int n => x = n
  | some (.value w), v => w = v
  | none, .null => true
  | _, _ => false

/-- Whether a field meets what is asked of it: to be there, not to be there, or to hold a value. -/
def Datum.meets (x : Option Datum) : Value → Bool
  | .object [("$exists", .bool isThere)] => x.isSome == isThere
  | v => Datum.is x v

/-- A document with its fields side by side. -/
abbrev Flat := Entries String Datum

namespace Flat

/-- Whether a document comes before another in a sort, or as early. -/
def atMost : SortSpec → Flat → Flat → Bool
  | [], _, _ => true
  | (key, direction) :: rest, d, d' =>
    let x := Datum.key (Entries.get? d (key.keyText?.getD ""))
    let y := Datum.key (Entries.get? d' (key.keyText?.getD ""))
    match direction with
    | .ascending => x ≤ y && (!decide (y ≤ x) || atMost rest d d')
    | .descending => y ≤ x && (!decide (x ≤ y) || atMost rest d d')

/-- The store of flat documents, with this meaning of the entries of filters. -/
def store (holds : String → Value → Flat → Bool) : Records Flat where
  holds := holds
  read f d := Entries.get? d f
  write f x d := Entries.put d f x
  erase f d := Entries.without d [f]
  atMost x y := Datum.key x ≤ Datum.key y
  arrange spec docs := docs.mergeSort (atMost spec)
  cut n docs :=
    match n with
    | .int n => docs.take n.toNat
    | _ => docs
  other _ docs := docs

theorem store_lawful (holds : String → Value → Flat → Bool) : (store holds).Lawful where
  read_write f x d := Entries.get?_put_self d f x
  read_write_apart x d h := Entries.get?_put_of_ne d x fun hsame => h (.inl hsame.symm)
  read_erase_apart {f g} d h := by
    have hne : g ∉ [f] := fun hmem => h (.inl (List.mem_singleton.mp hmem).symm)
    exact (Entries.get?_without d [f] g).trans (if_neg hne)
  atMost_total x y := by simpa [store] using le_total (Datum.key x) (Datum.key y)
  atMost_trans x y z hxy hyz := by
    simp only [store, decide_eq_true_eq] at hxy hyz ⊢
    exact hxy.trans hyz
  arrange_perm spec docs := List.mergeSort_perm docs (atMost spec)
  cut_prefix n docs := by
    cases n with
    | int n => exact List.take_prefix n.toNat docs
    | _ => exact List.prefix_refl docs

/-- The store in which an entry of a filter asks whether a field is there, or for a value. -/
def plain : Records Flat :=
  store fun key v d => Datum.meets (Entries.get? d key) v

end Flat

end QueryPipeline
