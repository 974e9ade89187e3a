import QueryPipeline.Proofs.PipelineMemory

/-!
What the registry holds after any moves, told from their history: a name stands for what was registered
last under it, unless it has been deleted since. A rollback takes back the history since the last commit.
-/

namespace QueryPipeline.Registry

open Entries (keys get?)

/-! ## Moves -/

/-- What can be done with a registry. Between two moves time may pass. -/
inductive Move where
  | register (entry : Entry)
  | get (name : String)
  | delete (name : String)
  | list
  | compile (lenient : Bool) (name : String) (params options : Document)
  | commit
  | rollback
  | wait (micros : Nat)

/-- The registry after a move. -/
def after (r : Registry) : Move → Registry
  | .register entry => (r.register entry).state
  | .delete name => (r.delete name).state
  | .commit => r.commit
  | .rollback => r.rollback
  | .wait micros => { r with clock := { r.clock with last := r.clock.last + micros } }
  | .compile lenient name params options => (r.compiling lenient name params options).state
  | .get _ | .list => r

/-- The registry after some moves. -/
def run (r : Registry) (moves : List Move) : Registry :=
  moves.foldl after r

/-- The name that a move is to write or to delete. -/
def Move.target? : Move → Option String
  | .register entry => filled? entry.name
  | .delete name => some name
  | _ => none

/-! ## The history -/

/-- A change that was made: a registration, with its time, or a deletion. -/
inductive Deed where
  | registered (e : Entry.Checked) (time : Instant)
  | deleted (name : String)

/-- The name that a change is about. -/
def Deed.name : Deed → String
  | .registered e _ => e.name
  | .deleted name => name

/-- What a move leaves in the history: a change that succeeded, or the end of a transaction. -/
inductive Mark where
  | deed (d : Deed)
  | committed
  | rolledBack

/-- The mark that a move leaves, if any. -/
def mark? (r : Registry) : Move → Option Mark
  | .register entry =>
    match (r.register entry).result, entry.check with
    | .ok _, .ok e => some (.deed (.registered e (r.clock.tick.time false)))
    | _, _ => none
  | .delete name =>
    match (r.delete name).result with
    | .ok _ => some (.deed (.deleted name))
    | .error _ => none
  | .commit => some .committed
  | .rollback => some .rolledBack
  | _ => none

/-- The marks of some moves after those that are there, the last one first. -/
def marks (r : Registry) (before : List Mark) : List Move → List Mark
  | [] => before
  | move :: rest => marks (r.after move) ((r.mark? move).toList ++ before) rest

/-- The changes that stand, the last one first. Read from the end, a rollback makes undone what comes
before it, up to a commit. -/
def standing (undone : Bool) : List Mark → List Deed
  | [] => []
  | .deed d :: rest => if undone then standing true rest else d :: standing false rest
  | .committed :: rest => standing false rest
  | .rolledBack :: rest => standing true rest

/-- The changes that stand after some moves of a registry, the last one first. -/
def history (r : Registry) (moves : List Move) : List Deed :=
  standing false (r.marks [] moves)

/-- The registrations of a name since it was last deleted, the last one first. -/
def registrations (name : String) : List Deed → List (Entry.Checked × Instant)
  | [] => []
  | .registered e time :: rest =>
    if e.name = name then (e, time) :: registrations name rest else registrations name rest
  | .deleted other :: rest => if other = name then [] else registrations name rest

/-- The named query that registrations of its name come to. -/
def queryOf : List (Entry.Checked × Instant) → Option NamedQuery
  | [] => none
  | (e, time) :: earlier =>
    some { name := e.name, collection := e.collection, pipeline := e.pipeline
           description := e.description
           createdAt := ((queryOf earlier).map (·.createdAt)).getD time, updatedAt := time }

theorem queryOf_createdAt {regs : List (Entry.Checked × Instant)} {q : NamedQuery}
    (h : queryOf regs = some q) : ∃ first, regs.getLast? = some (first, q.createdAt) := by
  induction regs generalizing q with
  | nil => cases h
  | cons reg earlier ih =>
      obtain ⟨e, time⟩ := reg
      cases h
      cases hearlier : queryOf earlier with
      | none =>
          cases earlier with
          | nil => exact ⟨e, rfl⟩
          | cons _ _ => cases hearlier
      | some found =>
          obtain ⟨first, hfirst⟩ := ih hearlier
          exact ⟨first, by simp [List.getLast?_cons, hfirst]⟩

theorem name_of_mem_registrations {name : String} {deeds : List Deed} {reg : Entry.Checked × Instant}
    (h : reg ∈ registrations name deeds) : reg.1.name = name := by
  induction deeds with
  | nil => cases h
  | cons d rest ih =>
      cases d with
      | registered e time =>
          rw [registrations] at h
          split at h
          · rcases List.mem_cons.mp h with rfl | h
            · assumption
            · exact ih h
          · exact ih h
      | deleted other =>
          rw [registrations] at h
          split at h
          · cases h
          · exact ih h

theorem find?_eq_registered_iff {name : String} {deeds : List Deed} {e : Entry.Checked} {time : Instant} :
    deeds.find? (·.name = name) = some (.registered e time) ↔
      (registrations name deeds).head? = some (e, time) := by
  induction deeds with
  | nil => simp [registrations]
  | cons d rest ih =>
      cases d with
      | registered e' time' =>
          by_cases hname : e'.name = name
          · simp [registrations, Deed.name, hname]
          · simpa [registrations, Deed.name, hname] using ih
      | deleted other =>
          by_cases hname : other = name
          · simp [registrations, Deed.name, hname]
          · simpa [registrations, Deed.name, hname] using ih

/-! ## Times -/

/-- No registration is later than the one after it, and none is later than `now`. -/
def Timely (now : Int) : List Deed → Prop
  | [] => True
  | .registered _ time :: rest => time.micros ≤ now ∧ Timely time.micros rest
  | .deleted _ :: rest => Timely now rest

theorem Timely.mono {now later : Int} {deeds : List Deed} (h : Timely now deeds) (hle : now ≤ later) :
    Timely later deeds := by
  induction deeds with
  | nil => trivial
  | cons d rest ih =>
      cases d with
      | registered e time => exact ⟨Int.le_trans h.1 hle, h.2⟩
      | deleted name => exact ih h

theorem Timely.registrations_le {now : Int} {deeds : List Deed} (h : Timely now deeds) {name : String}
    {reg : Entry.Checked × Instant} (hmem : reg ∈ registrations name deeds) : reg.2.micros ≤ now := by
  induction deeds generalizing now with
  | nil => cases hmem
  | cons d rest ih =>
      cases d with
      | registered e time =>
          rw [registrations] at hmem
          split at hmem
          · rcases List.mem_cons.mp hmem with rfl | hmem
            · exact h.1
            · exact Int.le_trans (ih h.2 hmem) h.1
          · exact Int.le_trans (ih h.2 hmem) h.1
      | deleted other =>
          rw [registrations] at hmem
          split at hmem
          · cases hmem
          · exact ih h hmem

theorem Timely.registrations_tail {now : Int} {deeds : List Deed} (h : Timely now deeds) {name : String}
    {e : Entry.Checked} {time : Instant} {earlier : List (Entry.Checked × Instant)}
    (hregs : registrations name deeds = (e, time) :: earlier) :
    ∀ reg ∈ earlier, reg.2.micros ≤ time.micros := by
  induction deeds generalizing now with
  | nil => cases hregs
  | cons d rest ih =>
      cases d with
      | registered e' time' =>
          rw [registrations] at hregs
          split at hregs
          · cases hregs
            exact fun reg hmem => h.2.registrations_le hmem
          · exact ih h.2 hregs
      | deleted other =>
          rw [registrations] at hregs
          split at hregs
          · cases hregs
          · exact ih h hregs

/-! ## The registry and its history -/

/-- Named queries as changes have left them. -/
structure Recorded (now : Int) (entries : Entries String NamedQuery) (deeds : List Deed) : Prop where
  nodup : (keys entries).Nodup
  get?_eq : ∀ name, get? entries name = queryOf (registrations name deeds)
  timely : Timely now deeds

/-- A registry whose named queries, and those of the last commit, are as the marks tell. -/
structure Chronicled (r : Registry) (marks : List Mark) : Prop where
  step_nonneg : 0 ≤ r.clock.step
  current : Recorded r.clock.last r.current (standing false marks)
  committed : Recorded r.clock.last r.committed (standing true marks)

variable {r : Registry} {marks' : List Mark} {now later : Int} {entries : Entries String NamedQuery}
  {deeds : List Deed}

theorem Recorded.mono (h : Recorded now entries deeds) (hle : now ≤ later) :
    Recorded later entries deeds :=
  { h with timely := h.timely.mono hle }

theorem Recorded.name_eq (h : Recorded now entries deeds) {name : String} {q : NamedQuery}
    (hq : get? entries name = some q) : q.name = name := by
  rw [h.get?_eq] at hq
  cases hregs : registrations name deeds with
  | nil =>
      rw [hregs] at hq
      cases hq
  | cons reg earlier =>
      rw [hregs] at hq
      cases hq
      exact name_of_mem_registrations (hregs ▸ List.mem_cons_self)

theorem Recorded.put (h : Recorded now entries deeds) (e : Entry.Checked) (time : Instant)
    (hle : now ≤ time.micros) :
    Recorded time.micros (Entries.put entries e.name
      { name := e.name, collection := e.collection
        pipeline := e.pipeline, description := e.description
        createdAt := ((get? entries e.name).map (·.createdAt)).getD time, updatedAt := time })
      (.registered e time :: deeds) := by
  refine ⟨Entries.nodup_put h.nodup _ _, fun name => ?_, Int.le_refl _, h.timely.mono hle⟩
  rw [Entries.get?_put, registrations]
  by_cases hname : name = e.name
  · subst hname
    rw [if_pos rfl, if_pos rfl, queryOf, h.get?_eq]
  · rw [if_neg hname, if_neg (Ne.symm hname), h.get?_eq]

theorem Recorded.delete (h : Recorded now entries deeds) (name : String) :
    Recorded now (Entries.without entries [name]) (.deleted name :: deeds) := by
  refine ⟨Entries.nodup_without h.nodup _, fun other => ?_, h.timely⟩
  rw [Entries.get?_without, registrations]
  by_cases hname : other = name
  · subst hname
    rw [if_pos (List.mem_singleton_self _), if_pos rfl]
    rfl
  · rw [if_neg (fun hmem => hname (List.mem_singleton.mp hmem)), if_neg (Ne.symm hname), h.get?_eq]

theorem register_error {r : Registry} {entry : Entry} {flaw : Flaw} (h : entry.check = .error flaw) :
    r.register entry = { state := r, result := .error (.invalid flaw) } := by
  rw [register, h]

theorem get_eq (r : Registry) (name : String) :
    (∃ q, get? r.current name = some q ∧ r.get name = .ok q) ∨
      get? r.current name = none ∧ r.get name = .error (.notFound (.namedQuery (.text name))) := by
  rw [get]
  cases get? r.current name with
  | some q => exact .inl ⟨q, rfl, rfl⟩
  | none => exact .inr ⟨rfl, rfl⟩

theorem get_eq_ok_iff {r : Registry} {name : String} {q : NamedQuery} :
    r.get name = .ok q ↔ get? r.current name = some q := by
  rw [get]
  cases get? r.current name <;> simp

theorem Chronicled.register (h : Chronicled r marks') (entry : Entry) :
    Chronicled (r.register entry).state ((r.mark? (.register entry)).toList ++ marks') := by
  cases hcheck : entry.check with
  | error flaw =>
      simp only [mark?, register_error hcheck]
      exact h
  | ok e =>
      have hle : r.clock.last ≤ r.clock.tick.last := by
        have := h.step_nonneg
        simp only [Clock.tick]
        omega
      simp only [mark?, Registry.register, hcheck]
      exact ⟨h.step_nonneg, h.current.put e (r.clock.tick.time false) hle, h.committed.mono hle⟩

theorem Chronicled.delete (h : Chronicled r marks') (name : String) :
    Chronicled (r.delete name).state ((r.mark? (.delete name)).toList ++ marks') := by
  rcases r.get_eq name with ⟨q, -, hget⟩ | ⟨-, hget⟩
  · simp only [mark?, Registry.delete, hget]
    exact ⟨h.step_nonneg, h.current.delete name, h.committed⟩
  · simp only [mark?, Registry.delete, hget]
    exact h

theorem Chronicled.after (h : Chronicled r marks') (move : Move) :
    Chronicled (r.after move) ((r.mark? move).toList ++ marks') := by
  cases move with
  | register entry => exact h.register entry
  | delete name => exact h.delete name
  | commit => exact ⟨h.step_nonneg, h.current, h.current⟩
  | rollback => exact ⟨h.step_nonneg, h.committed, h.committed⟩
  | wait micros =>
      have hle : r.clock.last ≤ r.clock.last + micros := by omega
      exact ⟨h.step_nonneg, h.current.mono hle, h.committed.mono hle⟩
  | get name => exact h
  | list => exact h
  | compile lenient name params options =>
      rw [Registry.after, compiling_state]
      exact h

theorem Chronicled.run (h : Chronicled r marks') (moves : List Move) :
    Chronicled (r.run moves) (r.marks marks' moves) := by
  induction moves generalizing r marks' with
  | nil => exact h
  | cons move rest ih => exact ih (h.after move)

theorem chronicled_new {clock : Clock} (h : 0 ≤ clock.step) : Chronicled { clock } [] :=
  ⟨h, ⟨List.nodup_nil, fun _ => rfl, trivial⟩, ⟨List.nodup_nil, fun _ => rfl, trivial⟩⟩

/-! ## What a history tells -/

/-- The registry is what a history, the last change first, tells of it: which names there are and what
they stand for, since when and as of when. And the next step shows it, and touches no other name. -/
structure Reflects (r : Registry) (h : List Deed) : Prop where
  live : ∀ name, (∃ q, r.get name = .ok q) ↔
    ∃ e time, h.find? (·.name = name) = some (.registered e time)
  latest : ∀ name q, r.get name = .ok q →
    ∃ e, h.find? (·.name = name) = some (.registered e q.updatedAt) ∧ q.name = name ∧
      q.collection = e.collection ∧ q.pipeline = e.pipeline ∧ q.description = e.description
  first : ∀ name q, r.get name = .ok q →
    ∃ e, (registrations name h).getLast? = some (e, q.createdAt)
  created_le_updated : ∀ name q, r.get name = .ok q → q.createdAt.micros ≤ q.updatedAt.micros
  list_sorted : (r.list.map (·.name)).Pairwise (· < ·)
  mem_list : ∀ q, q ∈ r.list ↔ r.get q.name = .ok q
  created : ∀ entry q created, (r.register entry).result = .ok (q, created) →
    (created = true ↔ ∀ found, r.get q.name ≠ .ok found)
  register_refused : ∀ entry fault, (r.register entry).result = .error fault →
    (r.register entry).state = r
  delete_refused : ∀ name fault, (r.delete name).result = .error fault → (r.delete name).state = r
  others : ∀ move name, move ≠ .rollback → move.target? ≠ some name →
    (r.after move).get name = r.get name

theorem Recorded.registrations_eq (h : Recorded now entries deeds) {name : String} {q : NamedQuery}
    (hq : get? entries name = some q) :
    ∃ e earlier, registrations name deeds = (e, q.updatedAt) :: earlier ∧ q.name = e.name ∧
      q.collection = e.collection ∧ q.pipeline = e.pipeline ∧ q.description = e.description := by
  rw [h.get?_eq] at hq
  rcases hregs : registrations name deeds with _ | ⟨⟨e, time⟩, earlier⟩ <;> rw [hregs] at hq <;> cases hq
  exact ⟨e, earlier, rfl, rfl, rfl, rfl, rfl⟩

theorem Recorded.latest (h : Recorded now entries deeds) {name : String} {q : NamedQuery}
    (hq : get? entries name = some q) :
    ∃ e, deeds.find? (·.name = name) = some (.registered e q.updatedAt) ∧ q.name = name ∧
      q.collection = e.collection ∧ q.pipeline = e.pipeline ∧ q.description = e.description := by
  obtain ⟨e, earlier, hregs, -, hlatest⟩ := h.registrations_eq hq
  exact ⟨e, find?_eq_registered_iff.mpr (congrArg List.head? hregs), h.name_eq hq, hlatest⟩

theorem Recorded.created_le_updated (h : Recorded now entries deeds) {name : String} {q : NamedQuery}
    (hq : get? entries name = some q) : q.createdAt.micros ≤ q.updatedAt.micros := by
  obtain ⟨e, earlier, hregs, -⟩ := h.registrations_eq hq
  obtain ⟨first, hfirst⟩ := queryOf_createdAt (h.get?_eq name ▸ hq)
  rw [hregs] at hfirst
  rcases List.mem_cons.mp (List.mem_of_getLast? hfirst) with heq | hmem
  · exact Int.le_of_eq (congrArg (·.2.micros) heq)
  · exact h.timely.registrations_tail hregs _ hmem

theorem mem_list_iff (r : Registry) (q : NamedQuery) :
    q ∈ r.list ↔ ∃ name, (name, q) ∈ r.current := by
  simp [list]

theorem Recorded.mem_list (h : Recorded now r.current deeds) (q : NamedQuery) :
    q ∈ r.list ↔ r.get q.name = .ok q := by
  rw [mem_list_iff, get_eq_ok_iff]
  constructor
  · rintro ⟨name, hmem⟩
    have hq := Entries.get?_of_mem h.nodup hmem
    rwa [h.name_eq hq]
  · exact fun hq => ⟨q.name, Entries.mem_of_get? hq⟩

theorem Recorded.list_sorted (h : Recorded now r.current deeds) :
    (r.list.map (·.name)).Pairwise (· < ·) := by
  have hnames : r.current.map (·.2.name) = keys r.current := by
    refine List.map_congr_left fun entry hmem => ?_
    exact h.name_eq (Entries.get?_of_mem h.nodup hmem)
  have hnodup : (r.list.map (·.name)).Nodup := by
    have hperm :=
      (List.mergeSort_perm (r.current.map (·.2)) fun a b => decide (a.name ≤ b.name)).map (·.name)
    rw [List.map_map] at hperm
    exact hperm.nodup_iff.mpr (hnames ▸ h.nodup)
  have hle : (r.list.map (·.name)).Pairwise (· ≤ ·) := by
    rw [List.pairwise_map]
    have hsorted := @List.pairwise_mergeSort _ (fun a b : NamedQuery => decide (a.name ≤ b.name))
      (fun a b c hab hbc => by simpa using String.le_trans (by simpa using hab) (by simpa using hbc))
      (fun a b => by simpa using String.le_total a.name b.name) (r.current.map (·.2))
    exact hsorted.imp fun hab => by simpa using hab
  -- Names in order that are all different go up.
  refine (hle.and hnodup).imp fun {a b} hab => ?_
  exact String.not_le.mp fun hba => hab.2 (String.le_antisymm hab.1 hba)

theorem register_ok {entry : Entry} {q : NamedQuery} {created : Bool}
    (h : (r.register entry).result = .ok (q, created)) :
    created = (get? r.current q.name).isNone := by
  cases hcheck : entry.check with
  | error flaw =>
      rw [register_error hcheck] at h
      cases h
  | ok e =>
      simp only [register, hcheck] at h
      cases h
      rfl

theorem register_refused {entry : Entry} {fault : Fault}
    (h : (r.register entry).result = .error fault) : (r.register entry).state = r := by
  cases hcheck : entry.check with
  | error flaw => rw [register_error hcheck]
  | ok e =>
      simp only [register, hcheck] at h
      cases h

theorem delete_refused {name : String} {fault : Fault}
    (h : (r.delete name).result = .error fault) : (r.delete name).state = r := by
  rcases r.get_eq name with ⟨q, -, hget⟩ | ⟨-, hget⟩
  · simp only [delete, hget] at h
    cases h
  · simp only [delete, hget]

theorem filled_of_check {entry : Entry} {e : Entry.Checked} (h : entry.check = .ok e) :
    filled? entry.name = some e.name := by
  unfold Entry.check at h
  split at h
  · cases h
  · rename_i name hname
    repeat' split at h
    all_goals cases h
    exact hname

theorem get?_after (move : Move) {name : String} (hmove : move ≠ .rollback)
    (htarget : move.target? ≠ some name) : get? (r.after move).current name = get? r.current name := by
  cases move with
  | register entry =>
      cases hcheck : entry.check with
      | error flaw => rw [after, register_error hcheck]
      | ok e =>
          have hne : name ≠ e.name := by
            rintro rfl
            exact htarget (filled_of_check hcheck)
          simp only [after, register, hcheck]
          exact Entries.get?_put_of_ne _ _ hne
  | delete other =>
      have hne : name ≠ other := by
        rintro rfl
        exact htarget rfl
      rcases r.get_eq other with ⟨q, -, hget⟩ | ⟨-, hget⟩
      · simp only [after, delete, hget]
        rw [Entries.get?_without, if_neg (fun hmem => hne (List.mem_singleton.mp hmem))]
      · simp only [after, delete, hget]
  | rollback => exact absurd rfl hmove
  | compile lenient name params options => rw [after, compiling_state]
  | _ => rfl

/-- Whatever is done with a registry, it is what its history tells. -/
theorem run_reflects (clock : Clock) (hclock : 0 ≤ clock.step) (moves : List Move) :
    Reflects (run { clock } moves) (history { clock } moves) := by
  have h : Recorded _ (run { clock } moves).current (history { clock } moves) :=
    ((chronicled_new hclock).run moves).current
  generalize run { clock } moves = r at h ⊢
  generalize history { clock } moves = deeds at h ⊢
  constructor
  case live =>
    intro name
    simp only [get_eq_ok_iff, h.get?_eq, find?_eq_registered_iff]
    rcases registrations name deeds with _ | ⟨⟨e, time⟩, earlier⟩ <;> simp [queryOf]
  case latest => exact fun name q hq => h.latest (get_eq_ok_iff.mp hq)
  case first => exact fun name q hq => queryOf_createdAt (h.get?_eq name ▸ get_eq_ok_iff.mp hq)
  case created_le_updated => exact fun name q hq => h.created_le_updated (get_eq_ok_iff.mp hq)
  case list_sorted => exact h.list_sorted
  case mem_list => exact h.mem_list
  case created =>
    intro entry q created hregister
    rw [register_ok hregister, Option.isNone_iff_eq_none]
    simp only [ne_eq, get_eq_ok_iff]
    exact Option.eq_none_iff_forall_ne_some
  case register_refused => exact fun entry fault => register_refused
  case delete_refused => exact fun name fault => delete_refused
  case others =>
    intro move name hmove htarget
    rw [get, get, get?_after move hmove htarget]

/-- An entry for some stages, for the collection `users`. -/
def Entry.plain (name : String) (stages : List Value) : Entry :=
  { name := .text name, collection := .text "users", pipeline := .list stages }

/-- A name that was registered and committed, deleted and registered again. A rollback undoes the latter,
and the next registration is one over the first. -/
theorem run_reflects_rollback :
    let limit (n : Int) : List Value := [Stage.object "$limit" (.int n)]
    let moves : List Move := [.register (.plain "report" (limit 1)), .commit, .delete "report", .wait 5,
      .register (.plain "report" (limit 2)), .rollback, .register (.plain "report" (limit 3))]
    0 ≤ ({} : Clock).step ∧ ∃ q, (run {} moves).get "report" = .ok q ∧ q.pipeline = limit 3 ∧
      q.createdAt = ({} : Clock).tick.time false ∧ q.createdAt.micros < q.updatedAt.micros := by
  intro limit moves
  have hreflects := run_reflects {} (by decide) moves
  obtain ⟨e, hlast, -, -, hpipeline, -⟩ := hreflects.latest "report" _ rfl
  cases hlast
  exact ⟨by decide, _, rfl, hpipeline, rfl, by decide⟩

end QueryPipeline.Registry
