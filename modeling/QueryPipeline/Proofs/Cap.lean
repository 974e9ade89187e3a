import QueryPipeline.Proofs.Runs

/-!
The cap on the documents of a query. It is put on the page when the limit section is read, and only
then: a query that was refused in this section, and is ended all the same, has no limit.
-/

namespace QueryPipeline

open Crud.Desk (Use)

/-- Whether a query object that is refused so has not been looked into: its keys were at fault, or it
came too late. -/
def Fault.precedesSections : Fault → Bool
  | .alreadyQueried => true
  | .invalid (.unknownOperations _) => true
  | _ => false

/-! ## Reading the limit section -/

namespace Page

variable {rules : Rules} {i : Input} {fault : Fault}

theorem toInteger_error {v : Value} (h : v.toInteger = .error fault) :
    fault = .misuse .tooManyDigits := by
  unfold Value.toInteger at h
  split at h
  · cases h
  · cases h
  · unfold leadingInteger at h
    split at h
    · cases h
    · split at h
      · exact (Except.error.inj h).symm
      · cases h
  · cases h

theorem integer_error {key : String} {v : Value} (h : integer rules key v = .error fault) :
    fault = .misuse .tooManyDigits ∨ fault = .invalid (.notInteger key) := by
  unfold integer at h
  cases hv : v.toInteger with
  | error other =>
      rw [hv] at h
      cases h
      exact .inl (toInteger_error hv)
  | ok n? =>
      rw [hv] at h
      cases n? with
      | some n => cases h
      | none =>
          simp only [Except.bind] at h
          split at h
          · cases h
          · exact .inr (Except.error.inj h).symm

theorem integer_null (rules : Rules) (key : String) : integer rules key .null = .ok none := by
  simp [integer, Value.toInteger, Except.bind]

theorem read_error (h : read rules i = .error fault) :
    fault = .misuse .tooManyDigits ∨ ∃ key, fault = .invalid (.notInteger key) := by
  have hinteger : ∀ {key v}, integer rules key v = .error fault →
      fault = .misuse .tooManyDigits ∨ ∃ key, fault = .invalid (.notInteger key) :=
    fun h => (integer_error h).imp_right fun hkey => ⟨_, hkey⟩
  unfold read at h
  rcases bind_eq_error_iff.mp h with h | ⟨limit, -, h⟩
  · exact hinteger h
  · rcases bind_eq_error_iff.mp h with h | ⟨start, -, h⟩
    · exact hinteger h
    · cases start with
      | some n => cases h
      | none =>
          rcases bind_eq_error_iff.mp h with h | ⟨skip, -, h⟩
          · exact hinteger h
          · cases h

theorem read_nothing (rules : Rules) : ∃ page, read rules {} = .ok page := by
  unfold read
  simp only [integer_null]
  exact ⟨_, rfl⟩

/-- The page gives one document at least, and no more than `m`. -/
def Within (m : Int) (page : Page) : Prop :=
  ∃ n : Int, 1 ≤ n ∧ n ≤ m ∧ page.limit = some (.int n)

theorem capped_natural {m : Int} (hm : 0 < m) (n? : Option Int) :
    ∃ n : Int, 1 ≤ n ∧ n ≤ m ∧ capped (.int m) (natural? n?) = some (.int n) := by
  have htruthy : (Value.int m).isTruthy = true := by
    simp [Value.isTruthy]
    omega
  unfold capped
  rw [if_pos htruthy]
  cases hn : natural? n? with
  | none => exact ⟨m, by omega, Int.le_refl m, rfl⟩
  | some n =>
      have hnonneg : 0 ≤ n := by simpa using (Option.mem_filter_iff.mp hn).2
      simp only
      split
      · rename_i hsmall
        have hlt : n < m := by simpa [Value.exceeds?, Value.ratio?] using hsmall.2
        exact ⟨n, by omega, by omega, rfl⟩
      · exact ⟨m, by omega, Int.le_refl m, rfl⟩

/-- A page is read of three numbers. -/
theorem read_eq_ok_iff {page : Page} : read rules i = .ok page ↔
    ∃ limit start skip, integer rules "limitCount" i.count = .ok limit ∧
      integer rules "startAfter" i.start = .ok start ∧
      (start = none ∧ integer rules "offsetCount" i.offset = .ok skip ∨ start ≠ none ∧ skip = start) ∧
      page = { skip := natural? skip, limit := capped rules.cap (natural? limit) } := by
  unfold read
  constructor
  · intro h
    obtain ⟨limit, hlimit, h⟩ := bind_eq_ok_iff.mp h
    obtain ⟨start, hstart, h⟩ := bind_eq_ok_iff.mp h
    cases start with
    | some n =>
        cases h
        exact ⟨limit, some n, some n, hlimit, hstart, .inr ⟨nofun, rfl⟩, rfl⟩
    | none =>
        obtain ⟨skip, hskip, h⟩ := bind_eq_ok_iff.mp h
        cases h
        exact ⟨limit, none, skip, hlimit, hstart, .inl ⟨rfl, hskip⟩, rfl⟩
  · rintro ⟨limit, start, skip, hlimit, hstart, ⟨rfl, hskip⟩ | ⟨hsome, rfl⟩, rfl⟩
    · rw [hlimit, hstart]
      simp only [bind, Except.bind, hskip]
      rfl
    · obtain ⟨n, rfl⟩ := Option.ne_none_iff_exists'.mp hsome
      rw [hlimit, hstart]
      rfl

theorem read_inv {page : Page} (h : read rules i = .ok page) :
    ∃ limit skip, integer rules "limitCount" i.count = .ok limit ∧
      page = { skip := natural? skip, limit := capped rules.cap (natural? limit) } := by
  obtain ⟨limit, -, skip, hlimit, -, -, rfl⟩ := read_eq_ok_iff.mp h
  exact ⟨limit, skip, hlimit, rfl⟩

theorem read_within {m : Int} (hcap : rules.cap = .int m) (hm : 0 < m) {page : Page}
    (h : read rules i = .ok page) : page.Within m := by
  obtain ⟨limit, skip, -, rfl⟩ := read_inv h
  rw [Within, hcap]
  exact capped_natural hm limit

end Page

/-! ## The page of a query -/

theorem Settings.requireEnabled_error {s : Settings} {collection : String} {part : Section}
    {fault : Fault} (h : s.requireEnabled collection part = .error fault) :
    fault.precedesSections = false := by
  unfold requireEnabled at h
  split at h
  · cases h
  · cases h
    rfl

namespace Query

variable {q : Query} {object : Document} {filter : Filter} {sort : SortSpec} {fault : Fault}

theorem checkKeys_error (h : q.checkKeys object = .error fault) : fault.precedesSections = true := by
  unfold checkKeys at h
  split at h
  · cases h
  · split at h
    · cases h
    · cases h
      rfl

/-- Where filter and sort are read, the rest is up to the page. -/
theorem fill_of_read (hf : (q.fill object).1.filter.get? = some filter)
    (hs : (q.fill object).1.sort.get? = some sort) :
    (q.fill object).1.page = (q.takePage object).1 ∧
      (q.fill object).2.2 =
        match (q.takePage object).2 with
        | some fault => .error fault
        | none => .ok () := by
  have h := q.fill_filled object
  generalize q.fill object = filled at h hf hs ⊢
  cases h with
  | atFilter hnone _ => cases hnone.symm.trans hf
  | atSort _ hfault => cases (Slot.get?_of_fault hfault).symm.trans hs
  | atPage _ _ hfault => exact ⟨rfl, by rw [hfault]⟩
  | complete _ _ hpage => exact ⟨by rw [hpage], by rw [hpage]⟩

theorem takePage_some (h : (q.takePage object).2 = some fault) :
    (q.takePage object).1.get? = none ∧ fault.precedesSections = false := by
  refine ⟨Slot.get?_of_fault h, ?_⟩
  unfold takePage at h
  rcases Slot.fault_of_take h with hread | ⟨-, hdisabled⟩
  · rcases Page.read_error hread with rfl | ⟨key, rfl⟩ <;> rfl
  · exact Settings.requireEnabled_error hdisabled

theorem takePage_none {m : Int} (hcap : q.compiler.settings.maxItems = .int m) (hm : 0 < m)
    (h : (q.takePage object).2 = none) :
    ∃ page, (q.takePage object).1.get? = some page ∧ page.Within m := by
  obtain ⟨page, hread, hpage⟩ := Slot.take_eq_none h
  exact ⟨page, by rw [takePage, hpage]; rfl, Page.read_within hcap hm hread⟩

theorem takePage_nil (q : Query) : (q.takePage []).2 = none := by
  obtain ⟨page, hread⟩ := Page.read_nothing q.compiler.settings.paging
  have hnothing : q.takePage [] =
      Slot.take (q.requireEnabled .limit) false (Page.read q.compiler.settings.paging {}) := rfl
  rw [hnothing, hread]
  rfl

end Query

/-- A pipeline that respects a cap: its limit is one of the numbers up to the cap, and its last stage
leaves out the documents after that many. -/
def Pipeline.IsCapped (p : Pipeline) (m : Int) : Prop :=
  ∃ n : Int, 1 ≤ n ∧ n ≤ m ∧ p.limit = some (.int n) ∧ p.stages.getLast? = some (.limit (.int n))

namespace Query

variable {q : Query} {object : Document} {p : Pipeline} {m : Int}

theorem isCapped_pipeline_iff {source : Query} (h : q.pipeline source = .ok p) :
    p.IsCapped m ↔ q.page.Within m := by
  obtain ⟨filter, sort, scope, before, -, -, -, -, rfl⟩ := pipeline_ok h
  constructor
  · rintro ⟨n, hone, hle, hlimit, -⟩
    exact ⟨n, hone, hle, hlimit⟩
  · rintro ⟨n, hone, hle, hlimit⟩
    refine ⟨n, hone, hle, hlimit, ?_⟩
    have htruthy : (Value.int n).isTruthy = true := by
      simp [Value.isTruthy]
      omega
    have hlast : ∃ skipping, q.page.stages = skipping ++ [.limit (.int n)] := by
      rw [Page.stages, hlimit]
      simp only [htruthy, ↓reduceIte]
      exact ⟨_, rfl⟩
    obtain ⟨skipping, hlast⟩ := hlast
    rw [hlast, ← List.append_assoc, List.getLast?_concat]

theorem within_iff_of_fill (hcap : q.compiler.settings.maxItems = .int m) (hm : 0 < m) {t : Query}
    (ht : t.progress = some (q.fill object).1) {source : Query} (h : t.pipeline source = .ok p) :
    t.page.Within m ↔ (q.fill object).2.2 = .ok () := by
  obtain ⟨filter, sort, -, -, hf, hs, -⟩ := pipeline_ok h
  rw [ht] at hf hs
  obtain ⟨hpage, hresult⟩ := fill_of_read hf hs
  have hread : t.page = ((q.takePage object).1.get?).getD {} := by
    rw [page, ht, Option.bind_some, hpage]
  rw [hresult, hread]
  cases hfault : (q.takePage object).2 with
  | none =>
      obtain ⟨page, hheld, hwithin⟩ := takePage_none hcap hm hfault
      rw [hheld]
      exact ⟨fun _ => rfl, fun _ => hwithin⟩
  | some fault =>
      -- Nothing was read, so the page asks for all documents.
      rw [(takePage_some hfault).1]
      constructor
      · rintro ⟨n, -, -, hlimit⟩
        cases hlimit
      · intro hok
        cases hok

theorem fault_of_fill {t : Query} (ht : t.progress = some (q.fill object).1) {source : Query}
    (h : t.pipeline source = .ok p) {fault : Fault} (hfault : (q.fill object).2.2 = .error fault) :
    object ≠ [] ∧ fault.precedesSections = false := by
  obtain ⟨filter, sort, -, -, hf, hs, -⟩ := pipeline_ok h
  rw [ht] at hf hs
  rw [(fill_of_read hf hs).2] at hfault
  constructor
  · rintro rfl
    rw [takePage_nil] at hfault
    cases hfault
  · cases hpage : (q.takePage object).2 with
    | none =>
        rw [hpage] at hfault
        cases hfault
    | some other =>
        rw [hpage] at hfault
        cases hfault
        exact (takePage_some hpage).2

theorem refused {fault : Fault}
    (h : ((q.checkKeys object).bind fun _ => (q.take object).2.2) = .error fault) :
    fault.precedesSections = true ∨
      (q.fill object).2.2 = .error fault ∧
        (q.after (.take object)).progress = some (q.fill object).1 := by
  cases hk : q.checkKeys object with
  | error other =>
      rw [hk] at h
      cases h
      exact .inl (checkKeys_error hk)
  | ok warnings =>
      rw [hk] at h
      have htake : (q.take object).2.2 = .error fault := h
      cases hq : q.progress with
      | some progress =>
          rw [take_of_progress hq] at htake
          cases htake
          exact .inl rfl
      | none =>
          rw [take_of_unread hq] at htake
          have hafter : q.after (.take object) = (q.take object).1 := by
            rw [after, offered, hk]
          rw [hafter, take_of_unread hq]
          exact .inr ⟨htake, rfl⟩

/-- A query that gives a pipeline has read its sections, at the latest when it is ended. -/
theorem ended_ok (h : q.ended = .ok p) :
    ∃ t : Query, t.pipeline t = .ok p ∧
      (q.progress ≠ none ∧ t = q ∨
        q.progress = none ∧ t.progress = some (q.fill []).1 ∧ (q.fill []).2.2 = .ok ()) := by
  unfold ended at h
  split at h
  · rename_i hr
    refine ⟨q, h, .inl ⟨fun hnone => ?_, rfl⟩⟩
    rw [isReceived_filter_eq hnone] at hr
    cases hr
  · rw [compile_nil] at h
    obtain ⟨⟨⟩, htake, hpipeline⟩ := bind_eq_ok_iff.mp h
    cases hq : q.progress with
    | none =>
        rw [take_of_unread hq] at htake
        refine ⟨(q.take []).1, hpipeline, .inr ⟨rfl, ?_, htake⟩⟩
        rw [take_of_unread hq]
    | some progress =>
        rw [take_of_progress hq] at htake
        cases htake

end Query

/-- A query object that was refused for one of its sections is what the query has read, at the end of
the run as well. -/
theorem Query.read_of_refused {c : Compiler} {before : List Use} {object : Document} {fault : Fault}
    (rest : List Use) (h : ((Session.alone c before).query 0 object).result = .error fault) :
    fault.precedesSections = true ∨
      ((before.foldl after { compiler := c }).fill object).2.2 = .error fault ∧
        ((before ++ .take object :: rest).foldl after { compiler := c }).progress =
          some ((before.foldl after { compiler := c }).fill object).1 := by
  rw [(Session.owns_alone c before).query_result] at h
  refine (refused h).imp_right fun ⟨hfill, htaken⟩ => ⟨hfill, ?_⟩
  have hne : ((before.foldl after { compiler := c }).after (.take object)).progress ≠ none := by
    simp [htaken]
  rw [List.foldl_append, List.foldl_cons, progress_foldl_after hne rest, htaken]

/-- A pipeline that a query gives at the end of a run respects the cap exactly when every query object
that was refused in the run was refused for its keys, or for coming too late. -/
theorem Compiler.isCapped_iff (c : Compiler) {m : Int} (hcap : c.settings.maxItems = .int m) (hm : 0 < m)
    (uses : List Use) {p : Pipeline} (hp : ((Session.alone c uses).finish 0).result = .ok p) :
    p.IsCapped m ↔
      ∀ (before : List Use) (object : Document) (rest : List Use) (fault : Fault),
        uses = before ++ .take object :: rest →
        ((Session.alone c before).query 0 object).result = .error fault →
        fault.precedesSections = true := by
  let state (uses : List Use) : Query := uses.foldl Query.after { compiler := c }
  have hcaps : ∀ before, (state before).compiler.settings.maxItems = .int m := by
    intro before
    rw [Query.compiler_foldl_after]
    exact hcap
  obtain ⟨t, hpipeline, hread⟩ := Query.ended_ok ((Session.owns_alone c uses).finish.1.symm.trans hp)
  rw [Query.isCapped_pipeline_iff hpipeline]
  rcases hread with ⟨hne, rfl⟩ | ⟨hnone, ht, hfill⟩
  -- The query object came in the run: it is up to the limit section of the one that was taken.
  · obtain ⟨progress, hprogress⟩ := Option.ne_none_iff_exists'.mp hne
    obtain ⟨before, use, rest, object, hsplit, huse, hunread, ⟨warnings, hk⟩, rfl⟩ :=
      Query.progress_origin uses rfl hprogress
    rw [Query.within_iff_of_fill (hcaps before) hm hprogress hpipeline]
    constructor
    · rintro hok before' object' rest' fault rfl hfault
      have hcapped := (Query.within_iff_of_fill (hcaps before) hm hprogress hpipeline).mpr hok
      rcases Query.read_of_refused rest' hfault with h | ⟨hfill, hprogress'⟩
      · exact h
      · have hok' := (Query.within_iff_of_fill (hcaps before') hm hprogress' hpipeline).mp hcapped
        cases hfill.symm.trans hok'
    · intro h
      cases hfill : ((state before).fill object).2.2 with
      | ok done => rfl
      | error fault =>
          obtain ⟨hgiven, hlate⟩ := Query.fault_of_fill hprogress hpipeline hfill
          rcases huse with rfl | ⟨rfl, rfl⟩
          · have hfault : ((Session.alone c before).query 0 object).result = .error fault := by
              rw [(Session.owns_alone c before).query_result, hk, Query.take_of_unread hunread]
              exact hfill
            rw [h before object rest fault hsplit hfault] at hlate
            cases hlate
          · exact absurd rfl hgiven
  -- It came with the end, and it was empty.
  · have hcapped := (Query.within_iff_of_fill (hcaps uses) hm ht hpipeline).mpr hfill
    refine ⟨fun _ => ?_, fun _ => hcapped⟩
    rintro before object rest fault rfl hfault
    rcases Query.read_of_refused rest hfault with h | ⟨-, hprogress⟩
    · exact h
    · cases hnone.symm.trans hprogress

/-- A strict compiler with a cap of ten documents. -/
def Compiler.strictTen : Compiler where
  collection := .text "users"
  settings := Settings.ofMap [("max_items", .value (.int 10)), ("lenient", .value (.bool false))]
  ledger := none

/-- A query object with a key that means nothing is refused, one that asks for fifty documents is
taken: there will be ten. -/
theorem Compiler.isCapped_after_unknown_key :
    let uses : List Use := [.take [("nope", .null)], .take [("limitCount", .int 50)], .finish]
    ∃ p, ((Session.alone strictTen uses).finish 0).result = .ok p ∧ p.IsCapped 10 := by
  intro uses
  obtain ⟨p, hp⟩ : ∃ p, ((Session.alone strictTen uses).finish 0).result = .ok p :=
    ⟨_, by with_unfolding_all rfl⟩
  have hunknown : ((Session.alone strictTen []).query 0 [("nope", .null)]).result =
      .error (.invalid (.unknownOperations ["nope"])) := by with_unfolding_all rfl
  have htaken : ((Session.alone strictTen [.take [("nope", .null)]]).query 0
      [("limitCount", .int 50)]).result = .ok () := by with_unfolding_all rfl
  refine ⟨p, hp, (isCapped_iff strictTen (m := 10) rfl (by decide) uses hp).mpr ?_⟩
  intro before object rest fault hsplit hfault
  rcases before with _ | ⟨_, _ | ⟨_, before⟩⟩ <;> simp [uses] at hsplit
  · obtain ⟨rfl, rfl⟩ := hsplit
    cases hunknown.symm.trans hfault
    rfl
  · obtain ⟨rfl, rfl, rfl⟩ := hsplit
    cases htaken.symm.trans hfault
  · obtain ⟨-, -, hrest⟩ := hsplit
    rcases before with _ | ⟨_, before⟩ <;> simp at hrest

/-- A query that was refused for its limit gives all documents when it is ended. -/
theorem Compiler.uncapped_after_bad_limit :
    let uses : List Use := [.take [("limitCount", .text "abc")]]
    ((Session.alone strictTen []).query 0 [("limitCount", .text "abc")]).result =
        .error (.invalid (.notInteger "limitCount")) ∧
      ∃ p, ((Session.alone strictTen uses).finish 0).result = .ok p ∧ p.limit = none ∧
        ¬ p.IsCapped 10 := by
  intro uses
  refine ⟨by with_unfolding_all rfl, ?_⟩
  obtain ⟨p, hp, hlimit⟩ : ∃ p, ((Session.alone strictTen uses).finish 0).result = .ok p ∧
      p.limit = none := ⟨_, by with_unfolding_all rfl, rfl⟩
  refine ⟨p, hp, hlimit, ?_⟩
  rintro ⟨n, -, -, hn, -⟩
  cases hlimit.symm.trans hn

end QueryPipeline
