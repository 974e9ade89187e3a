import QueryPipeline.Proofs.FlatStore
import QueryPipeline.Proofs.Shape

/-!
Turning the pages of a query. What a pipeline says of its page is what it cuts out of the documents, and
the pages of one query object, one after another, are all of the documents, none of them twice.
-/

namespace QueryPipeline

open Entries (get?)

/-! ## Query objects for other pages -/

namespace QueryObject

theorem unknown_put {key : String} (h : key ∈ keys) (object : Document) (v : Value) :
    unknown (Entries.put object key v) = unknown object := by
  rw [unknown, unknown, Entries.keys_put]
  split
  · rfl
  · simp [List.filter_append, h]

theorem unknown_without {names : List String} (h : ∀ name ∈ names, name ∈ keys) (object : Document) :
    unknown (Entries.without object names) = unknown object := by
  have hkeys : Entries.keys (Entries.without object names) =
      (Entries.keys object).filter fun key => !names.contains key := by
    rw [Entries.keys, Entries.keys, Entries.without, List.filter_map]
    rfl
  rw [unknown, unknown, hkeys, List.filter_filter]
  refine congrArg (List.mergeSort · _) (List.filter_congr fun key _ => ?_)
  by_cases hknown : key ∈ keys
  · simp [hknown]
  · have hother : key ∉ names := fun hname => hknown (h key hname)
    simp [hknown, hother]

/-- The query object for another page: the same limit, after so many documents. -/
def turned (object : Document) (offset : Nat) : Document :=
  Entries.put (Entries.put (Entries.without object ["startAfter"]) "limitCount"
    ((page? object).getD {}).count) "offsetCount" (.int offset)

variable (object : Document) (offset : Nat)

theorem get?_turned {key : String} (h : key ∉ Page.keys) :
    get? (turned object offset) key = get? object key := by
  simp only [Page.keys, List.mem_cons, List.not_mem_nil, or_false, not_or] at h
  obtain ⟨hcount, hoffset, hstart⟩ := h
  simp [turned, Entries.get?_put, Entries.get?_without, hcount, hoffset, hstart]

theorem filter?_turned : filter? (turned object offset) = filter? object := by
  have hkeys : ∀ key ∈ ["conditions", "filter"], key ∉ Page.keys := by decide
  exact filter?_congr fun key hkey => get?_turned object offset (hkeys key hkey)

theorem sort?_turned : sort? (turned object offset) = sort? object := by
  have hkeys : ∀ key ∈ "sort" :: Sorting.keys, key ∉ Page.keys := by decide
  exact sort?_congr fun key hkey => get?_turned object offset (hkeys key hkey)

theorem page?_turned : page? (turned object offset) =
    some { count := ((page? object).getD {}).count, offset := .int offset } := by
  simp [page?, turned, Page.keys, Entries.has, Entries.get?_put, Entries.get?_without,
    Page.Input.isNull]

theorem unknown_turned : unknown (turned object offset) = unknown object := by
  rw [turned, unknown_put (by decide), unknown_put (by decide), unknown_without (by decide)]

end QueryObject

namespace Page

variable {rules : Rules} {i : Input} {page : Page}

theorem natural?_natCast (n : Nat) : natural? (some (n : Int)) = some (n : Int) := by
  simp [natural?, Option.filter]

/-- The limit of a page is read of what was given for it, and of nothing else. -/
theorem read_turned (h : read rules i = .ok page) (offset : Nat) :
    read rules { count := i.count, offset := .int offset } =
      .ok { skip := some offset, limit := page.limit } := by
  obtain ⟨limit, skip, hlimit, rfl⟩ := read_inv h
  have hoffset : integer rules "offsetCount" (.int offset) = .ok (some offset) :=
    integer_toValue rules _ (some offset)
  simp only [read, hlimit, integer_null, hoffset]
  simp only [bind, Except.bind, pure, Except.pure, natural?_natCast]

end Page

/-! ## Pipelines of other pages -/

/-- The pipeline for another page of the same documents. -/
def Pipeline.withPage (p : Pipeline) (page : Page) : Pipeline :=
  { p with stages := p.unpaged ++ page.stages, skip := page.skip, limit := page.limit }

namespace Query

variable {q source : Query} {object : Document} {parts : Parts} {p page : Pipeline}

theorem stages_pipeline (h : q.pipeline source = .ok p) : p.stages = p.unpaged ++ q.page.stages := by
  obtain ⟨filter, sort, scope, before, -, -, hledger, hnone, hp⟩ := pipeline_ok h
  have hbefore : ∀ stage ∈ before, stage.isPaging = false := by
    cases hl : q.activeLedger with
    | none =>
        obtain ⟨-, rfl⟩ := hnone hl
        exact fun stage hmem => nomatch hmem
    | some ledger =>
        obtain ⟨-, rfl⟩ := hledger ledger hl
        exact isPaging_ledger
  have hstages : p.stages = (before ++ .keep filter.statement :: sort.stages) ++ q.page.stages := by
    rw [hp]
    simp
  rw [Pipeline.unpaged_eq hstages (isPaging_filtered hbefore)]
  exact hstages

theorem pipeline_withPage (h : (q.holding parts).pipeline (q.holding parts) = .ok p) (page : Page) :
    (q.holding { parts with page }).pipeline (q.holding { parts with page }) =
      .ok (p.withPage page) := by
  have hstages := stages_pipeline h
  have hscope : ∀ ledger field, (q.holding { parts with page }).scope ledger field =
      (q.holding parts).scope ledger field := fun _ _ => rfl
  have hledger : (q.holding { parts with page }).activeLedger = (q.holding parts).activeLedger := rfl
  unfold pipeline at h ⊢
  rw [hledger]
  cases hl : (q.holding parts).activeLedger with
  | none =>
      simp only [hl] at h ⊢
      cases h
      rw [Pipeline.withPage, ← List.append_cancel_right hstages]
      rfl
  | some ledger =>
      simp only [hl] at h ⊢
      rw [hscope]
      obtain ⟨⟨scope, before⟩, hbefore, h⟩ := bind_eq_ok_iff.mp h
      cases h
      refine bind_eq_ok_iff.mpr ⟨⟨scope, before⟩, hbefore, ?_⟩
      rw [Pipeline.withPage, ← List.append_cancel_right hstages]
      rfl

theorem parts_turned (h : q.parts object = .ok parts) (offset : Nat) {others : Parts} :
    q.parts (QueryObject.turned object offset) = .ok others ↔ q.requireEnabled .limit = .ok () ∧
      others = { parts with page := { skip := some offset, limit := parts.page.limit } } := by
  obtain ⟨⟨log, hfilter⟩, hsort, hpage⟩ := parts_eq_ok_iff.mp h
  obtain ⟨-, -, hread⟩ := bind_eq_ok_iff.mp hpage
  have hasked : q.readFilter (QueryObject.turned object offset) = q.readFilter object := by
    rw [readFilter, QueryObject.filter?_turned]
    rfl
  have hturned := Page.read_turned hread offset
  have hgiven : (some { count := ((QueryObject.page? object).getD {}).count, offset := .int offset } :
      Option Page.Input).any (fun input => !input.isNull) = true := by
    simp [Page.Input.isNull]
  rw [parts_eq_ok_iff, hasked, QueryObject.filter?_turned, QueryObject.sort?_turned,
    QueryObject.page?_turned, hfilter, hsort, hgiven, Option.getD_some, hturned]
  constructor
  · rintro ⟨⟨_, hf⟩, hs, hp⟩
    obtain ⟨⟨⟩, henabled, hp⟩ := bind_eq_ok_iff.mp hp
    obtain ⟨filter, sort, page⟩ := others
    cases hf
    cases hs
    cases hp
    exact ⟨henabled, rfl⟩
  · rintro ⟨henabled, rfl⟩
    exact ⟨⟨log, rfl⟩, rfl, bind_eq_ok_iff.mpr ⟨(), henabled, rfl⟩⟩

/-- A query object that compiles does so for every other page, if a page may be asked for. -/
theorem compile_turned (hq : q.progress = none) (h : q.compile object = .ok p) (offset : Nat) :
    q.compile (QueryObject.turned object offset) = .ok page ↔ q.requireEnabled .limit = .ok () ∧
      page = p.withPage { skip := some offset, limit := p.limit } := by
  obtain ⟨⟨warnings, hkeys⟩, parts, hparts, hpipeline⟩ := (compile_eq_ok_iff hq).mp h
  have hknown : q.checkKeys (QueryObject.turned object offset) = .ok warnings := by
    rw [checkKeys, QueryObject.unknown_turned]
    exact hkeys
  have hlimit : p.limit = parts.page.limit := (pipeline_holding hpipeline).2.2
  have hother := pipeline_withPage hpipeline { skip := some offset, limit := p.limit }
  rw [compile_eq_ok_iff hq]
  constructor
  · rintro ⟨-, others, hothers, hpage⟩
    obtain ⟨henabled, rfl⟩ := (parts_turned hparts offset).mp hothers
    rw [← hlimit, hother] at hpage
    exact ⟨henabled, (Except.ok.inj hpage).symm⟩
  · rintro ⟨henabled, rfl⟩
    refine ⟨⟨warnings, hknown⟩, _, (parts_turned hparts offset).mpr ⟨henabled, rfl⟩, ?_⟩
    rw [← hlimit]
    exact hother

end Query

/-! ## Stores that cut out pages -/

/-- What skipping and limiting mean to a store. -/
structure Engine.Paginates {δ : Type} (e : Engine δ) : Prop where
  skip {n : Nat} (docs : List δ) : 0 < n → e.transform (.skip n) docs = docs.drop n
  limit {n : Nat} (docs : List δ) : 0 < n → e.transform (.limit (.int n)) docs = docs.take n

theorem Flat.plain_paginates : plain.engine.Paginates where
  skip _ _ := rfl
  limit _ _ := rfl

/-- The number of documents on a page, out of so many: all of them, unless some are asked for. -/
def Page.size (limit : Option Nat) (total : Nat) : Nat :=
  (limit.filter (0 < ·)).getD total

theorem Page.size_pos {total : Nat} (h : 0 < total) (limit : Option Nat) : 0 < size limit total := by
  rcases limit with _ | _ | n
  · exact h
  · exact h
  · exact n.succ_pos

theorem Engine.Paginates.run_counts {δ : Type} {e : Engine δ} (he : e.Paginates)
    (skip limit : Option Nat) (docs : List δ) :
    e.run (Page.ofCounts skip limit).stages docs =
      (docs.drop (skip.getD 0)).take (Page.size limit docs.length) := by
  have hskip : e.run (Page.ofCounts skip none).stages docs = docs.drop (skip.getD 0) := by
    rcases skip with _ | _ | n
    · rfl
    · rfl
    · exact he.skip docs n.succ_pos
  have hlimit : ∀ (docs : List δ) total, docs.length ≤ total →
      e.run (Page.ofCounts none limit).stages docs = docs.take (Page.size limit total) := by
    intro docs total htotal
    rcases limit with _ | _ | n
    · exact (List.take_of_length_le htotal).symm
    · exact (List.take_of_length_le htotal).symm
    · exact he.limit docs n.succ_pos
  have hstages : (Page.ofCounts skip limit).stages =
      (Page.ofCounts skip none).stages ++ (Page.ofCounts none limit).stages := by
    simp [Page.stages, Page.ofCounts]
  rw [hstages, run_append, hskip]
  exact hlimit _ _ (List.drop_sublist _ docs).length_le

theorem Pipeline.metadata_counts {p : Pipeline} {skip limit : Option Nat}
    (hskip : p.skip = skip.map Int.ofNat) (hlimit : p.limit = limit.map fun n => .int (Int.ofNat n))
    (total : Nat) :
    p.metadata (.int total) = [("total", .int total), ("limit", .int (Page.size limit total)),
      ("offset", .int (skip.getD 0))] := by
  rw [metadata, hskip, hlimit]
  rcases limit with _ | _ | limit <;> rcases skip with _ | skip <;> rfl

/-- The windows of a list, one after another, are its front. -/
theorem flatMap_windows {α : Type} (items : List α) (width count : Nat) :
    (List.range count).flatMap (fun k => (items.drop (k * width)).take width) =
      items.take (count * width) := by
  induction count with
  | zero => simp
  | succ count ih =>
      rw [List.range_succ, List.flatMap_append, ih, Nat.succ_mul, List.take_add]
      simp

theorem Compiler.compile_counts {collection : Value} {given : SettingMap} {c : Compiler}
    (hmake : make collection given = .ok c)
    (hcap : c.settings.maxItems = .null ∨ ∃ m, c.settings.maxItems = .int m)
    {principal : Option Principal} {object : Document} {p : Pipeline}
    (hp : c.compile principal object = .ok p) :
    ∃ skip limit, p.skip = skip.map Int.ofNat ∧ p.limit = limit.map (fun n => .int (Int.ofNat n)) ∧
      p.stages = p.unpaged ++ (Page.ofCounts skip limit).stages ∧
      ∀ offset page, c.compile principal (QueryObject.turned object offset) = .ok page ↔
        c.settings.isEnabled .limit = true ∧ page = p.withPage (.ofCounts (some offset) limit) := by
  let q : Query := { compiler := c, principal }
  rw [compile_eq] at hp
  obtain ⟨-, parts, hparts, hpipeline⟩ := (Query.compile_eq_ok_iff rfl).mp hp
  obtain ⟨-, hskip, hlimit⟩ := Query.pipeline_holding hpipeline
  obtain ⟨skip, limit, hpage⟩ : ∃ skip limit, parts.page = .ofCounts skip limit := by
    obtain ⟨-, -, hoffered⟩ := Query.parts_eq_ok_iff.mp hparts
    obtain ⟨-, -, hread⟩ := bind_eq_ok_iff.mp hoffered
    exact Page.read_counts (check_of_make hmake) hcap hread
  have hstages : p.stages = p.unpaged ++ parts.page.stages := Query.stages_pipeline hpipeline
  rw [hpage] at hskip hlimit hstages
  refine ⟨skip, limit, hskip, hlimit, hstages, fun offset page => ?_⟩
  have hturned : q.compile (QueryObject.turned object offset) = .ok page ↔
      q.requireEnabled .limit = .ok () ∧ page = p.withPage { skip := some offset, limit := p.limit } :=
    Query.compile_turned rfl hp offset
  rw [hlimit, Query.requireEnabled_eq_ok_iff] at hturned
  rw [compile_eq]
  exact hturned

/-- A page is what its pipeline says it is: as many documents as the limit, after as many as the offset.
And the pages of this size, from the first to the one that leaves out all documents, make up all of the
documents; all of these pages can be asked for if the section is not disabled. -/
theorem Compiler.pages_concat {collection : Value} {given : SettingMap} {c : Compiler}
    (hmake : make collection given = .ok c)
    (hcap : c.settings.maxItems = .null ∨ ∃ m, c.settings.maxItems = .int m) {δ : Type} {e : Engine δ}
    (he : e.Paginates) {principal : Option Principal} {object : Document} {p : Pipeline}
    (hp : c.compile principal object = .ok p) (docs : List δ) :
    let found := e.run p.unpaged docs
    let turned := QueryObject.turned object
    ∃ limit offset : Nat,
      p.metadata (.int found.length) =
        [("total", .int found.length), ("limit", .int limit), ("offset", .int offset)] ∧
      e.run p.stages docs = (found.drop offset).take limit ∧
      (found ≠ [] → 0 < limit ∧ ∀ (pages : Nat → Pipeline) (last : Nat), found.length ≤ last * limit →
        (∀ k < last, c.compile principal (turned (k * limit)) = .ok (pages k)) →
        (List.range last).flatMap (fun k => e.run (pages k).stages docs) = found) ∧
      ∀ offset, (∃ page, c.compile principal (turned offset) = .ok page) ↔
        c.settings.isEnabled .limit = true := by
  intro found turned
  obtain ⟨skip, limit, hskip, hlimit, hstages, hturned⟩ := compile_counts hmake hcap hp
  let size := Page.size limit found.length
  refine ⟨size, skip.getD 0, p.metadata_counts hskip hlimit _, ?_, fun hfound => ?_, fun offset => ?_⟩
  · rw [hstages, e.run_append]
    exact he.run_counts skip limit found
  · refine ⟨Page.size_pos (List.length_pos_iff.mpr hfound) limit, fun pages last hlast hpages => ?_⟩
    -- The pages differ in their offsets alone: each of them is a window of what is found.
    have hwindow : ∀ k < last, e.run (pages k).stages docs = (found.drop (k * size)).take size := by
      intro k hk
      obtain ⟨-, hpage⟩ := (hturned _ _).mp (hpages k hk)
      rw [hpage, Pipeline.withPage, e.run_append]
      exact he.run_counts (some (k * size)) limit found
    rw [List.flatMap_congr fun k hk => hwindow k (List.mem_range.mp hk), flatMap_windows]
    exact List.take_of_length_le hlast
  · constructor
    · rintro ⟨page, hcompile⟩
      exact ((hturned offset page).mp hcompile).1
    · exact fun henabled => ⟨_, (hturned offset _).mpr ⟨henabled, rfl⟩⟩

/-- Three documents on two pages, with a limit in words and beyond the cap. -/
theorem Compiler.pages_concat_three :
    let object : Document := [("limitCount", .text "5 items"), ("startAfter", .int 1)]
    let docs : List Flat := [[("_id", .number 3)], [("_id", .number 2)], [("_id", .number 1)]]
    ∃ c p first second, make (.text "users") [("max_items", .value (.int 2))] = .ok c ∧
      c.compile none object = .ok p ∧
      p.metadata (.int 3) = [("total", .int 3), ("limit", .int 2), ("offset", .int 1)] ∧
      Flat.plain.engine.run p.stages docs = [[("_id", .number 2)], [("_id", .number 1)]] ∧
      c.compile none (QueryObject.turned object 0) = .ok first ∧
      c.compile none (QueryObject.turned object 2) = .ok second ∧
      Flat.plain.engine.run first.stages docs ++ Flat.plain.engine.run second.stages docs = docs := by
  intro object docs
  let spec : SortSpec := [(.text "_id", .descending)]
  obtain ⟨c, hmake, hc⟩ : ∃ c, make (.text "users") [("max_items", .value (.int 2))] = .ok c ∧
      c = { collection := .text "users", settings := .ofMap [("max_items", .value (.int 2))]
            ledger := none } :=
    ⟨_, by with_unfolding_all rfl, rfl⟩
  have hcap : c.settings.maxItems = .null ∨ ∃ m, c.settings.maxItems = .int m := by
    rw [hc]
    exact .inr ⟨2, rfl⟩
  obtain ⟨p, hp, hunpaged, hmetadata⟩ : ∃ p, c.compile none object = .ok p ∧
      p.unpaged = [.keep [], .sort spec] ∧
      p.metadata (.int 3) = [("total", .int 3), ("limit", .int 2), ("offset", .int 1)] := by
    rw [hc]
    exact ⟨_, by with_unfolding_all rfl, rfl, rfl⟩
  have hfound : Flat.plain.engine.run p.unpaged docs = docs := by
    have hsorted : docs.Pairwise fun d d' => Flat.atMost spec d d' = true := by decide
    rw [hunpaged]
    exact List.mergeSort_of_pairwise hsorted
  obtain ⟨limit, offset, hcounts, hrun, hpages, hcompiles⟩ :=
    pages_concat hmake hcap Flat.plain_paginates hp docs
  rw [hfound] at hcounts hrun hpages
  cases hmetadata.symm.trans hcounts
  have henabled : c.settings.isEnabled .limit = true := by
    rw [hc]
    rfl
  obtain ⟨first, hfirst⟩ := (hcompiles 0).mpr henabled
  obtain ⟨second, hsecond⟩ := (hcompiles 2).mpr henabled
  let pages (k : Nat) : Pipeline := if k = 0 then first else second
  have hall := (hpages (List.cons_ne_nil _ _)).2 pages 2 (by decide) fun
    | 0, _ => hfirst
    | 1, _ => hsecond
  refine ⟨c, p, first, second, hmake, hp, hmetadata, hrun, hfirst, hsecond, ?_⟩
  rw [List.range_succ, List.flatMap_append] at hall
  simpa [pages] using hall
end QueryPipeline
