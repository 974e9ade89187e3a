import QueryPipeline.Session
import QueryPipeline.Proofs.Ownership

/-!
From a query object to a pipeline: what the sections of the query object are read as, and how the
pipeline is put together from them. A query that is taken and ended in a session comes to the same.
-/

namespace QueryPipeline

namespace Slot

variable {α : Type} {enabled : Except Fault Unit} {isGiven : Bool} {read : Except Fault α}

/-- A section holds what is read of its input; or what is read is at fault; or there is input, and the
section is disabled. -/
theorem take_cases (enabled : Except Fault Unit) (isGiven : Bool) (read : Except Fault α) :
    (∃ a, read = .ok a ∧ take enabled isGiven read = (.held a, none)) ∨
    (∃ fault, read = .error fault ∧ take enabled isGiven read = (.failed, some fault)) ∨
    ∃ fault, isGiven = true ∧ enabled = .error fault ∧
      take enabled isGiven read = (.waiting, some fault) := by
  unfold take
  split
  · rename_i fault hgiven
    split at hgiven
    · exact .inr (.inr ⟨fault, ‹_›, hgiven, rfl⟩)
    · cases hgiven
  · exact .inr (.inl ⟨_, rfl, rfl⟩)
  · exact .inl ⟨_, rfl, rfl⟩

theorem take_eq_none (h : (take enabled isGiven read).2 = none) :
    ∃ a, read = .ok a ∧ take enabled isGiven read = (.held a, none) := by
  rcases take_cases enabled isGiven read with hheld | ⟨fault, -, htake⟩ | ⟨fault, -, -, htake⟩
  · exact hheld
  · rw [htake] at h
    cases h
  · rw [htake] at h
    cases h

theorem fault_of_take {fault : Fault} (h : (take enabled isGiven read).2 = some fault) :
    read = .error fault ∨ isGiven = true ∧ enabled = .error fault := by
  rcases take_cases enabled isGiven read
    with ⟨a, -, htake⟩ | ⟨other, hread, htake⟩ | ⟨other, hgiven, hdisabled, htake⟩ <;>
    rw [htake] at h <;> cases h
  · exact .inl hread
  · exact .inr ⟨hgiven, hdisabled⟩

theorem get?_of_fault {fault : Fault} (h : (take enabled isGiven read).2 = some fault) :
    (take enabled isGiven read).1.get? = none := by
  rcases take_cases enabled isGiven read with ⟨a, -, htake⟩ | ⟨_, -, htake⟩ | ⟨_, -, -, htake⟩ <;>
    rw [htake] at h ⊢ <;> cases h <;> rfl

theorem read_of_held {a : α} (h : take enabled isGiven read = (.held a, none)) : read = .ok a := by
  obtain ⟨b, hread, htake⟩ := take_eq_none (congrArg Prod.snd h)
  cases htake.symm.trans h
  exact hread

end Slot

theorem Settings.unknown_eq_nil {given : SettingMap}
    (h : ∀ name ∈ Entries.keys given, known.has name = true) : unknown given = [] := by
  have hnone : (Entries.keys given).filter (fun name => !known.has name) = [] := by
    rw [List.filter_eq_nil_iff]
    intro name hname
    simp [h name hname]
  rw [unknown, others, hnone, List.mergeSort_nil]

theorem QueryObject.unknown_eq_nil {object : Document}
    (h : ∀ key ∈ Entries.keys object, key ∈ keys) : unknown object = [] := by
  have hnone : (Entries.keys object).filter (fun key => !keys.contains key) = [] := by
    rw [List.filter_eq_nil_iff]
    intro key hkey
    simp [h key hkey]
  rw [unknown, hnone, List.mergeSort_nil]

namespace QueryObject

/-! What each section is looked up by. -/

variable {object other : Document}

theorem filter?_congr
    (h : ∀ key ∈ ["conditions", "filter"], Entries.get? other key = Entries.get? object key) :
    filter? other = filter? object := by
  rw [filter?, h "conditions" (by decide), h "filter" (by decide), filter?]

theorem sort?_congr
    (h : ∀ key ∈ "sort" :: Sorting.keys, Entries.get? other key = Entries.get? object key) :
    sort? other = sort? object := by
  have hgiven : (Sorting.keys.filterMap fun key => (Entries.get? other key).map fun v => (key, v)) =
      Sorting.keys.filterMap fun key => (Entries.get? object key).map fun v => (key, v) :=
    List.filterMap_congr fun key hkey => by rw [h key (List.mem_cons_of_mem _ hkey)]
  rw [sort?, hgiven, h "sort" List.mem_cons_self, sort?]

theorem any_has_congr {names : List String}
    (h : ∀ key ∈ names, Entries.get? other key = Entries.get? object key) :
    names.any (Entries.has other) = names.any (Entries.has object) := by
  rw [Bool.eq_iff_iff, List.any_eq_true, List.any_eq_true]
  exact exists_congr fun key => and_congr_right fun hkey => by rw [Entries.has, h key hkey, Entries.has]

theorem page?_congr
    (h : ∀ key ∈ "limit" :: Page.keys, Entries.get? other key = Entries.get? object key) :
    page? other = page? object := by
  have hhas := any_has_congr fun key hkey => h key (List.mem_cons_of_mem _ hkey)
  simp only [page?, hhas, h "limit" (by decide), h "limitCount" (by decide), h "offsetCount" (by decide),
    h "startAfter" (by decide)]

end QueryObject

namespace Query

/-- What the sections of a query object are read as. -/
structure Reads (q : Query) (object : Document) (filter : Filter) (sort : SortSpec) (page : Page) :
    Prop where
  filter_ok : ∃ log, q.readFilter object = .ok (filter, log)
  sort_ok : Sorting.read q.compiler.settings.sorting ((QueryObject.sort? object).getD .null) = .ok sort
  page_ok : Page.read q.compiler.settings.paging ((QueryObject.page? object).getD {}) = .ok page

/-- The filter section of a query object, taken. -/
def takeFilter (q : Query) (object : Document) : Slot (Filter × List LogEntry) × Option Fault :=
  Slot.take (q.requireEnabled .filter) (isGiven (QueryObject.filter? object)) (q.readFilter object)

/-- The sort section of a query object, taken. -/
def takeSort (q : Query) (object : Document) : Slot SortSpec × Option Fault :=
  Slot.take (q.requireEnabled .sort) (isGiven (QueryObject.sort? object))
    (Sorting.read q.compiler.settings.sorting ((QueryObject.sort? object).getD .null))

/-- The page of a query object, taken. -/
def takePage (q : Query) (object : Document) : Slot Page × Option Fault :=
  Slot.take (q.requireEnabled .limit) ((QueryObject.page? object).any fun input => !input.isNull)
    (Page.read q.compiler.settings.paging ((QueryObject.page? object).getD {}))

/-- What filling the sections comes to: all of them are read, or those up to the first at fault. -/
inductive Filled (q : Query) (object : Document) : Progress × List LogEntry × Except Fault Unit → Prop
  where
  | atFilter {filter : Slot Filter} {log : List LogEntry} {fault : Fault} : filter.get? = none →
      (q.takeFilter object).2 = some fault → Filled q object ({ filter }, log, .error fault)
  | atSort {filter : Filter} {log : List LogEntry} {fault : Fault} :
      q.takeFilter object = (.held (filter, log), none) → (q.takeSort object).2 = some fault →
      Filled q object
        ({ filter := .held filter, sort := (q.takeSort object).1 }, log, .error fault)
  | atPage {filter : Filter} {log : List LogEntry} {sort : SortSpec} {fault : Fault} :
      q.takeFilter object = (.held (filter, log), none) → q.takeSort object = (.held sort, none) →
      (q.takePage object).2 = some fault →
      Filled q object
        ({ filter := .held filter, sort := .held sort, page := (q.takePage object).1 }, log,
          .error fault)
  | complete {filter : Filter} {log : List LogEntry} {sort : SortSpec} {page : Page} :
      q.takeFilter object = (.held (filter, log), none) → q.takeSort object = (.held sort, none) →
      q.takePage object = (.held page, none) →
      Filled q object
        ({ filter := .held filter, sort := .held sort, page := .held page }, log, .ok ())

theorem fill_filled (q : Query) (object : Document) : q.Filled object (q.fill object) := by
  unfold fill fillWith
  simp only
  rw [← readFilter, ← takeFilter, ← takeSort, ← takePage]
  cases hfilter : (q.takeFilter object).2 with
  | some fault =>
      have hnone : (q.takeFilter object).1.get? = none := Slot.get?_of_fault hfilter
      rcases htaken : q.takeFilter object with ⟨slot, fault?⟩
      rw [htaken] at hfilter hnone
      cases hfilter
      cases slot with
      | held filter => cases hnone
      | waiting | failed => exact .atFilter rfl (by rw [htaken])
  | none =>
      obtain ⟨⟨filter, log⟩, -, hheld⟩ := Slot.take_eq_none hfilter
      rw [← takeFilter] at hheld
      rw [hheld]
      cases hsort : (q.takeSort object).2 with
      | some fault => exact .atSort hheld hsort
      | none =>
          obtain ⟨sort, -, hsorted⟩ := Slot.take_eq_none hsort
          rw [← takeSort] at hsorted
          rw [hsorted]
          cases hpage : (q.takePage object).2 with
          | some fault => exact .atPage hheld hsorted hpage
          | none =>
              obtain ⟨page, -, hpaged⟩ := Slot.take_eq_none hpage
              rw [← takePage] at hpaged
              rw [hpaged]
              exact .complete hheld hsorted hpaged

theorem fill_ok {q : Query} {object : Document} {progress : Progress} {log : List LogEntry}
    (h : q.fill object = (progress, log, .ok ())) :
    ∃ filter sort page, q.Reads object filter sort page ∧
      progress = { filter := .held filter, sort := .held sort, page := .held page } := by
  have hfilled := q.fill_filled object
  rw [h] at hfilled
  cases hfilled with
  | complete hfilter hsort hpage =>
      exact ⟨_, _, _, ⟨⟨log, Slot.read_of_held hfilter⟩, Slot.read_of_held hsort,
        Slot.read_of_held hpage⟩, rfl⟩

/-- A query that takes a query object and is ended. -/
def compile (q : Query) (object : Document) : Except Fault Pipeline := do
  let _ ← q.checkKeys object
  let taken := q.take object
  taken.2.2
  taken.1.pipeline taken.1

theorem take_ok {q : Query} (hq : q.progress = none) {object : Document}
    (h : (q.take object).2.2 = .ok ()) :
    ∃ filter sort page, q.Reads object filter sort page ∧
      (q.take object).1 = { q with
        progress := some { filter := .held filter, sort := .held sort, page := .held page } } := by
  simp only [take, hq] at h ⊢
  rcases hfill : q.fill object with ⟨progress, log, result⟩
  rw [hfill] at h
  cases h
  obtain ⟨filter, sort, page, hr, rfl⟩ := fill_ok hfill
  exact ⟨filter, sort, page, hr, rfl⟩

end Query

/-! ## The scope of a ledger -/

/-- The owner's field is named by a text, or there is none. -/
def Settings.NamesOwner (s : Settings) : Prop :=
  s.ownerField = .null ∨ ∃ owner, s.ownerField = .text owner

/-- The part of the documents that is a principal's: those whose owner's field holds the principal's
id. Without a principal, or an owner's field, it is all of them. -/
def ownScope (ownerField : Value) (principal : Option Principal) : Document :=
  match ownerField, principal with
  | .text owner, some principal => if owner = "" then [] else [(owner, principal.id)]
  | _, _ => []

/-- The given scope, and of it the account that the filter compares with by plain equality. -/
def Filter.scopeWithin (f : Filter) (ledger : Ledger) (own : Document) : Document :=
  match f.constraints.scalar? ledger.account with
  | some account => Entries.put own ledger.account account
  | none => own

namespace Query

theorem scope_eq {q : Query} (hs : q.compiler.settings.NamesOwner) {filter : Filter}
    (hf : q.progress.bind (·.filter.get?) = some filter) (ledger : Ledger) :
    q.scope ledger q.compiler.settings.ownerField =
      .ok (filter.scopeWithin ledger (ownScope q.compiler.settings.ownerField q.principal)) := by
  simp only [scope, hf]
  rcases hs with ho | ⟨owner, ho⟩ <;> rw [ho, Filter.scopeWithin]
  · cases q.principal <;> cases filter.constraints.scalar? ledger.account <;> rfl
  · cases q.principal with
    | none => cases filter.constraints.scalar? ledger.account <;> rfl
    | some principal =>
        by_cases h : owner = "" <;> cases filter.constraints.scalar? ledger.account <;>
          simp [ownScope, Value.isTruthy, h, ownerKey, Value.keyText?, Except.map, bind, Except.bind]

/-- The scope of a query with this filter; without a ledger there is none. -/
def scopeFor (q : Query) (filter : Filter) : Document :=
  match q.activeLedger with
  | some ledger =>
    filter.scopeWithin ledger (ownScope q.compiler.settings.ownerField q.principal)
  | none => []

/-- The stages that come before the filter's. -/
def stagesBefore (q : Query) (filter : Filter) : List Stage :=
  match q.activeLedger with
  | some ledger => ledgerStages ledger (q.scopeFor filter)
  | none => []

/-- The pipeline of a query whose sections are read as these. -/
def assemble (q : Query) (filter : Filter) (sort : SortSpec) (page : Page) : Pipeline where
  stages := q.stagesBefore filter ++ [.keep filter.statement] ++ sort.stages ++ page.stages
  filter := filter.statement
  sort := sort
  skip := page.skip
  limit := page.limit
  countFilter := Entries.merge (q.scopeFor filter) filter.statement

theorem pipeline_eq {q : Query} (hs : q.compiler.settings.NamesOwner) {filter : Filter}
    {sort : SortSpec} {page : Page}
    (hp : q.progress = some { filter := .held filter, sort := .held sort, page := .held page }) :
    q.pipeline q = .ok (q.assemble filter sort page) := by
  have hf : q.progress.bind (·.filter.get?) = some filter := by rw [hp]; rfl
  unfold pipeline assemble stagesBefore scopeFor
  cases hl : q.activeLedger with
  | none => simp only [hp]; rfl
  | some ledger =>
      have hscope := scope_eq hs hf ledger
      simp only [hscope]
      rw [hp]; rfl

theorem compile_of_known (q : Query) {object : Document}
    (hkeys : ∀ key ∈ Entries.keys object, key ∈ QueryObject.keys) :
    q.compile object = (q.take object).2.2.bind fun _ =>
      (q.take object).1.pipeline (q.take object).1 := by
  rw [compile, checkKeys, QueryObject.unknown_eq_nil hkeys]
  rfl

/-- A query that compiles has read every section, and its pipeline is put together from them. -/
theorem compile_ok {q : Query} (hq : q.progress = none) (hs : q.compiler.settings.NamesOwner)
    {object : Document} {p : Pipeline} (h : q.compile object = .ok p) :
    ∃ filter sort page, q.Reads object filter sort page ∧ p = q.assemble filter sort page := by
  obtain ⟨_, _, h⟩ := bind_eq_ok_iff.mp h
  obtain ⟨⟨⟩, htake, h⟩ := bind_eq_ok_iff.mp h
  obtain ⟨filter, sort, page, hr, ht⟩ := take_ok hq htake
  have hp : (q.take object).1.pipeline (q.take object).1 = .ok (q.assemble filter sort page) := by
    rw [ht]
    exact pipeline_eq (q := { q with progress := some ⟨.held filter, .held sort, .held page⟩ }) hs rfl
  cases hp.symm.trans h
  exact ⟨filter, sort, page, hr, rfl⟩

end Query

/-! ## Pages -/

/-- Whether a stage cuts a page out of the documents. -/
def Stage.isPaging : Stage → Bool
  | .skip _ | .limit _ => true
  | _ => false

/-- The stages before the page is cut out. -/
def Pipeline.unpaged (p : Pipeline) : List Stage :=
  p.stages.takeWhile fun stage => !stage.isPaging

namespace Query

theorem mem_pageStages {page : Page} {stage : Stage} (h : stage ∈ page.stages) :
    (∃ n, stage = .skip n) ∨ ∃ n, stage = .limit n := by
  rcases List.mem_append.mp h with h | h
  · split at h
    · split at h
      · cases h
      · exact .inl ⟨_, List.mem_singleton.mp h⟩
    · cases h
  · split at h
    · split at h
      · exact .inr ⟨_, List.mem_singleton.mp h⟩
      · cases h
    · cases h

theorem mem_sortStages {spec : SortSpec} {stage : Stage} (h : stage ∈ SortSpec.stages spec) :
    stage = .sort spec := by
  unfold SortSpec.stages at h
  split at h
  · cases h
  · exact List.mem_singleton.mp h

theorem isPaging_page {page : Page} : ∀ stage ∈ page.stages, stage.isPaging = true := by
  intro stage h
  rcases mem_pageStages h with ⟨n, rfl⟩ | ⟨n, rfl⟩ <;> rfl

theorem isPaging_sort {spec : SortSpec} : ∀ stage ∈ spec.stages, stage.isPaging = false := by
  intro stage h
  rw [mem_sortStages h]
  rfl

theorem isPaging_ledger {ledger : Ledger} {scope : Document} :
    ∀ stage ∈ ledgerStages ledger scope, stage.isPaging = false := by
  refine List.forall_mem_append.mpr ⟨?_, by simp [Ledger.stages, Stage.isPaging]⟩
  split <;> simp [Stage.isPaging]

theorem isPaging_before {q : Query} {filter : Filter} :
    ∀ stage ∈ q.stagesBefore filter, stage.isPaging = false := by
  unfold stagesBefore
  split
  · exact isPaging_ledger
  · simp

theorem isPaging_filtered {before : List Stage} {filter : Document} {spec : SortSpec}
    (h : ∀ stage ∈ before, stage.isPaging = false) :
    ∀ stage ∈ before ++ .keep filter :: spec.stages, stage.isPaging = false := by
  refine List.forall_mem_append.mpr ⟨h, List.forall_mem_cons.mpr ⟨rfl, ?_⟩⟩
  exact isPaging_sort

end Query

/-- Where stages that cut out no page come before those of a page, they are the stages before it. -/
theorem Pipeline.unpaged_eq {p : Pipeline} {front : List Stage} {page : Page}
    (hstages : p.stages = front ++ page.stages) (hfront : ∀ stage ∈ front, stage.isPaging = false) :
    p.unpaged = front := by
  have hpage : (page.stages.takeWhile fun stage => !stage.isPaging) = [] := by
    cases hp : page.stages with
    | nil => rfl
    | cons stage rest =>
        have hpaging := Query.isPaging_page stage (hp ▸ List.mem_cons_self)
        rw [List.takeWhile_cons, hpaging]; rfl
  have hbefore : ∀ stage ∈ front, (!stage.isPaging) = true := fun stage h => by rw [hfront stage h]; rfl
  rw [unpaged, hstages, List.takeWhile_append_of_pos hbefore, hpage, List.append_nil]

namespace Query

theorem stages_assemble (q : Query) (filter : Filter) (sort : SortSpec) (page : Page) :
    (q.assemble filter sort page).stages =
      (q.stagesBefore filter ++ .keep filter.statement :: sort.stages) ++ page.stages := by
  simp [assemble]

theorem unpaged_assemble (q : Query) (filter : Filter) (sort : SortSpec) (page : Page) :
    (q.assemble filter sort page).unpaged =
      q.stagesBefore filter ++ .keep filter.statement :: sort.stages :=
  Pipeline.unpaged_eq (q.stages_assemble filter sort page) (isPaging_filtered isPaging_before)

end Query

/-! ## Queries of a session -/

namespace Session

variable {s : Session} {id : Nat} {cell : Cell}

theorem get?_of_cell (hc : s.cells[id]? = some cell) : s.get? id = some cell.query := by
  simp [get?, hc]

theorem cells_modify (f : Cell → Cell) (id other : Nat) :
    (s.modify id f).cells[other]? =
      if id = other then (s.cells[other]?).map f else s.cells[other]? := by
  rw [modify, List.getElem?_modify]
  split <;> simp

/-- A cell whose query has just taken a query object. -/
theorem finish_of_received {q : Query} (hc : s.cells[id]? = some { query := q, source := some id })
    (hr : q.isReceived .filter = true) : s.finish id = { state := s, result := q.pipeline q } := by
  have hget : s.get? id = some q := get?_of_cell hc
  simp [finish, hget, hr, pipeline, hc]

theorem query_state (hc : s.cells[id]? = some cell) {object : Document}
    (h : (s.query id object).result = .ok ()) :
    (s.query id object).state =
      s.modify id fun _ => { query := (cell.query.take object).1, source := some id } := by
  unfold query at h ⊢
  rw [get?_of_cell hc] at h ⊢
  simp only at h ⊢
  cases hk : cell.query.checkKeys object with
  | error fault => simp [hk] at h
  | ok warnings => rfl

theorem query_result (hc : s.cells[id]? = some cell) (object : Document) :
    (s.query id object).result =
      (cell.query.checkKeys object).bind fun _ => (cell.query.take object).2.2 := by
  unfold query
  rw [get?_of_cell hc]
  simp only
  cases cell.query.checkKeys object <;> rfl

theorem query_of_known (hc : s.cells[id]? = some cell) {object : Document}
    (hkeys : ∀ key ∈ Entries.keys object, key ∈ QueryObject.keys) :
    s.query id object =
      { state := s.modify id fun _ => { query := (cell.query.take object).1, source := some id }
        log := (cell.query.take object).2.1
        result := (cell.query.take object).2.2 } := by
  have hknown : cell.query.checkKeys object = .ok [] := by
    rw [Query.checkKeys, QueryObject.unknown_eq_nil hkeys]
  simp [query, get?_of_cell hc, hknown]

/-- A query that took a query object has it from itself. -/
theorem query_taken (hc : s.cells[id]? = some cell) (hq : cell.query.progress = none)
    {object : Document} (h : (s.query id object).result = .ok ()) :
    (s.query id object).state.cells[id]? =
        some { query := (cell.query.take object).1, source := some id } ∧
      (cell.query.take object).1.isReceived .filter = true := by
  have hstate := query_state hc h
  rw [query_result hc] at h
  obtain ⟨warnings, -, htake⟩ := bind_eq_ok_iff.mp h
  obtain ⟨filter, sort, page, -, htaken⟩ := Query.take_ok hq htake
  constructor
  · rw [hstate, cells_modify, if_pos rfl, hc]; rfl
  · rw [htaken]; rfl

/-- Taking a query object and ending compiles the query of the cell. -/
theorem query_finish (hc : s.cells[id]? = some cell) (hq : cell.query.progress = none)
    (object : Document) :
    ((s.query id object).result.bind fun _ => ((s.query id object).state.finish id).result) =
      cell.query.compile object := by
  cases h : (s.query id object).result with
  | error fault =>
      rw [query_result hc] at h
      cases hkeys : cell.query.checkKeys object with
      | error other =>
          rw [hkeys] at h
          simpa [Query.compile, hkeys, bind, Except.bind] using h.symm
      | ok warnings =>
          rw [hkeys] at h
          have htake : (cell.query.take object).2.2 = .error fault := h
          simp [Query.compile, hkeys, htake, bind, Except.bind]
  | ok u =>
      obtain ⟨hcell, hreceived⟩ := query_taken hc hq h
      rw [query_result hc] at h
      obtain ⟨warnings, hkeys, htake⟩ := bind_eq_ok_iff.mp h
      simp [finish_of_received hcell hreceived, Query.compile, hkeys, htake, bind, Except.bind]

end Session

/-- What a new query makes of a query object, on behalf of a principal. -/
def Compiler.compile (c : Compiler) (principal : Option Principal) (object : Document) :
    Except Fault Pipeline := do
  let (session, id) := Session.start {} c
  let taken := (session.setPrincipal id principal).query id object
  taken.result
  (taken.state.finish id).result

theorem Compiler.compile_eq (c : Compiler) (principal : Option Principal) (object : Document) :
    c.compile principal object = ({ compiler := c, principal } : Query).compile object := by
  let cell : Cell := { query := { compiler := c, principal } }
  have hcell : ({ cells := [cell] } : Session).cells[0]? = some cell := rfl
  exact Session.query_finish hcell rfl object

/-- The ledger that collections have unless they are configured otherwise. -/
def Compiler.usualLedger : Compiler where
  collection := .text "transactions"
  settings := Settings.ofMap [("running_balance", .ledger {})]
  ledger := some {}

end QueryPipeline
