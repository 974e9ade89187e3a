import QueryPipeline.Proofs.Sections

/-!
Strict queries beside lenient ones. A strict query gives the same pipeline as the lenient one, or none;
and where only the lenient one gives a pipeline, the strict one says what is wrong with the query object,
if there are words for it.
-/

namespace QueryPipeline

/-- A strict reading that gives nothing else than the lenient one, and blames the client for whatever
it refuses and the lenient one takes; only where it may be `unshown` it may lack the words to do so. -/
structure Tightens {α : Type} (unshown : Prop) (strict lenient : Except Fault α) : Prop where
  eq_ok : ∀ {a}, strict = .ok a → lenient = .ok a
  blames : ∀ {fault a}, strict = .error fault → lenient = .ok a →
    (∃ flaw, fault = .invalid flaw) ∨ unshown ∧ fault = .misuse .tooManyDigits

namespace Tightens

variable {α β : Type} {unshown : Prop}

theorem refl (x : Except Fault α) : Tightens unshown x x where
  eq_ok h := h
  blames hx hok := nomatch hx.symm.trans hok

theorem invalid (flaw : Flaw) (x : Except Fault α) : Tightens unshown (.error (.invalid flaw)) x where
  eq_ok h := nomatch h
  blames h _ := .inl ⟨flaw, (Except.error.inj h).symm⟩

theorem ofFlaw {flaw : Flaw} (h : ∀ v, flaw.shows? = some v → v.hasText = false → unshown)
    (x : Except Fault α) : Tightens unshown (.error (.ofFlaw flaw)) x where
  eq_ok h := nomatch h
  blames hfault _ := by
    cases hfault
    rcases Fault.ofFlaw_cases flaw with hflaw | ⟨hmisuse, v, hshows, hnone⟩
    · exact .inl ⟨flaw, hflaw⟩
    · exact .inr ⟨h v hshows hnone, hmisuse⟩

theorem mono {unshown' : Prop} {x y : Except Fault α} (h : Tightens unshown x y)
    (himp : unshown → unshown') : Tightens unshown' x y where
  eq_ok := h.eq_ok
  blames hx hy := (h.blames hx hy).imp_right (And.imp_left himp)

theorem bind {x y : Except Fault α} {f g : α → Except Fault β} (h : Tightens unshown x y)
    (hf : ∀ a, Tightens unshown (f a) (g a)) : Tightens unshown (x >>= f) (y >>= g) where
  eq_ok hok := by
    obtain ⟨a, hx, ha⟩ := bind_eq_ok_iff.mp hok
    exact bind_eq_ok_iff.mpr ⟨a, h.eq_ok hx, (hf a).eq_ok ha⟩
  blames herror hok := by
    obtain ⟨a, hy, ha⟩ := bind_eq_ok_iff.mp hok
    rcases bind_eq_error_iff.mp herror with hx | ⟨b, hx, hb⟩
    · exact h.blames hx hy
    · cases (h.eq_ok hx).symm.trans hy
      exact (hf _).blames hb ha

theorem ite {c : Prop} [Decidable c] {x x' y y' : Except Fault α} (h : Tightens unshown x y)
    (h' : Tightens unshown x' y') : Tightens unshown (if c then x else x') (if c then y else y') := by
  split
  · exact h
  · exact h'

end Tightens

/-! ## Sections -/

namespace Filter

variable {rules : Rules} {part : Value}

theorem readEntry_lenient {entry : Value} {r : Option Condition × List LogEntry}
    (h : readEntry { rules with lenient := false } entry = .ok r) :
    readEntry { rules with lenient := true } entry = .ok r := by
  unfold readEntry at h ⊢
  cases hread : Condition.read rules.own entry with
  | condition c =>
      rw [hread] at h
      exact h
  | unknownOperator c =>
      rw [hread] at h
      cases h
  | malformed flaw =>
      rw [hread] at h
      cases h

theorem readEntries_lenient {entries : List Value} {r : List Condition × List LogEntry}
    (h : readEntries { rules with lenient := false } entries = .ok r) :
    readEntries { rules with lenient := true } entries = .ok r := by
  induction entries generalizing r with
  | nil => exact h
  | cons entry rest ih =>
      obtain ⟨c?, warnings, others, more, hentry, hrest, hr⟩ := readEntries_cons.mp h
      exact readEntries_cons.mpr ⟨c?, warnings, others, more, readEntry_lenient hentry, ih hrest, hr⟩

theorem readEntry_shows {entry v : Value} {flaw : Flaw} (h : readEntry rules entry = .error flaw)
    (hv : flaw.shows? = some v) : v = entry := by
  unfold readEntry at h
  split at h
  · cases h
  · split at h <;> cases h
    cases hv
  · split at h <;> cases h
    exact (Option.some.inj hv).symm

/-- The words for what an entry is refused for show the entry, if any. -/
theorem readEntries_shows {entries : List Value} {flaw : Flaw} {v : Value}
    (h : readEntries rules entries = .error flaw) (hv : flaw.shows? = some v) : v ∈ entries := by
  induction entries with
  | nil => cases h
  | cons entry rest ih =>
      rw [readEntries] at h
      cases hentry : readEntry rules entry with
      | error refused =>
          rw [hentry] at h
          cases h
          exact readEntry_shows hentry hv ▸ List.mem_cons_self
      | ok r =>
          rw [hentry] at h
          exact List.mem_cons_of_mem _ (ih (map_eq_error_iff.mp h))

/-- A strict reader makes of a filter section what a lenient one does, or finds a flaw in it, which it has
words for if the section has. -/
theorem read_tightens (rules : Rules) (part : Value) :
    Tightens (part.hasText = false) (read { rules with lenient := false } part)
      (read { rules with lenient := true } part) := by
  unfold read
  refine .ite (.refl _) ?_
  cases part with
  | list entries =>
      dsimp only
      cases hstrict : readEntries { rules with lenient := false } entries with
      | error flaw =>
          refine .ofFlaw (fun v hv hnone => ?_) _
          have hmem := readEntries_shows hstrict hv
          rw [← Bool.not_eq_true, Value.hasText_list]
          exact fun hall => Bool.false_ne_true (hnone.symm.trans (hall v hmem))
      | ok r =>
          rw [readEntries_lenient hstrict]
          exact .refl _
  | _ => exact .ofFlaw (fun v hv hnone => Option.some.inj hv ▸ hnone) _

end Filter

namespace Sorting

variable {unshown : Prop} (rules : Rules)

theorem readField_tightens (part : Document) :
    Tightens unshown (readField { rules with lenient := false } part)
      (readField { rules with lenient := true } part) := by
  unfold readField
  simp only
  split
  · exact .refl _
  · exact .invalid _ _

theorem readSection_tightens (part : Document) :
    Tightens unshown (readSection { rules with lenient := false } part)
      (readSection { rules with lenient := true } part) := by
  unfold readSection
  simp only
  refine .ite ?_ (readField_tightens rules part)
  split
  · exact .refl _
  · exact .invalid _ _
  · exact .refl _

theorem read_tightens (part : Value) :
    Tightens unshown (read { rules with lenient := false } part)
      (read { rules with lenient := true } part) := by
  cases part with
  | object entries => exact readSection_tightens rules entries
  | null => exact readSection_tightens rules []
  | _ => exact .invalid _ _

end Sorting

namespace Page

variable {unshown : Prop} (rules : Rules)

theorem integer_tightens (key : String) (v : Value) :
    Tightens unshown (integer { rules with lenient := false } key v)
      (integer { rules with lenient := true } key v) := by
  refine .bind (.refl _) fun n? => ?_
  cases n? with
  | some n => exact .refl _
  | none =>
      by_cases hnull : v = .null
      · simp only [hnull, decide_true, Bool.or_true]
        exact .refl _
      · simp only [hnull, decide_false, Bool.or_false]
        exact .invalid _ _

theorem read_tightens (i : Input) :
    Tightens unshown (read { rules with lenient := false } i) (read { rules with lenient := true } i) := by
  unfold read
  refine .bind (integer_tightens rules _ _) fun limit => ?_
  refine .bind (integer_tightens rules _ _) fun start => ?_
  cases start with
  | some n => exact .refl _
  | none => exact .bind (integer_tightens rules _ _) fun skip => .refl _

end Page

/-! ## Queries -/

/-- The compiler with another setting for how strict it is. -/
def Compiler.withLenient (c : Compiler) (lenient : Value) : Compiler :=
  { c with settings := { c.settings with lenient } }

theorem QueryObject.hasText_filter? {object : Document} (h : (Value.object object).hasText = true) :
    ((filter? object).getD .null).hasText = true := by
  rw [filter?]
  cases hconditions : Entries.get? object "conditions" with
  | none => exact Value.hasText_get? h "filter"
  | some conditions => exact Value.hasText_object.mp h _ (Entries.mem_of_get? hconditions)

namespace Query

variable (c : Compiler) (principal : Option Principal) (object : Document)

theorem checkKeys_tightens {unshown : Prop} :
    Tightens unshown (({ compiler := c.withLenient (.bool false), principal } : Query).checkKeys object)
      (({ compiler := c.withLenient (.bool true), principal } : Query).checkKeys object) := by
  unfold checkKeys
  split
  · exact .refl _
  · exact .invalid _ _

theorem readFilter_tightens :
    Tightens ((Value.object object).hasText = false)
      (({ compiler := c.withLenient (.bool false), principal } : Query).readFilter object)
      (({ compiler := c.withLenient (.bool true), principal } : Query).readFilter object) := by
  refine (Filter.read_tightens ({ compiler := c, principal } : Query).filtering _).mono fun hnone => ?_
  rw [← Bool.not_eq_true]
  exact fun htext => Bool.false_ne_true (hnone.symm.trans (QueryObject.hasText_filter? htext))

theorem parts_tightens :
    Tightens ((Value.object object).hasText = false)
      (({ compiler := c.withLenient (.bool false), principal } : Query).parts object)
      (({ compiler := c.withLenient (.bool true), principal } : Query).parts object) := by
  unfold Query.parts
  refine .bind (.bind (.refl _) fun _ => readFilter_tightens c principal object) fun filter => ?_
  refine .bind (.bind (.refl _) fun _ => Sorting.read_tightens c.settings.sorting _) fun sort => ?_
  refine .bind (.bind (.refl _) fun _ => Page.read_tightens c.settings.paging _) fun page => ?_
  exact .refl _

theorem compile_tightens :
    Tightens ((Value.object object).hasText = false)
      (({ compiler := c.withLenient (.bool false), principal } : Query).compile object)
      (({ compiler := c.withLenient (.bool true), principal } : Query).compile object) := by
  rw [compile_eq_parts rfl, compile_eq_parts rfl]
  refine .bind (checkKeys_tightens c principal object) fun _ => ?_
  refine .bind (parts_tightens c principal object) fun parts => ?_
  exact .refl _

end Query

/-! ## Settings -/

namespace Settings

variable (given : SettingMap) (v w : Value)

theorem unknown_put (name : String) (x y : Setting) :
    unknown (given.put name x) = unknown (given.put name y) := by
  rw [unknown, unknown, others, others, Entries.keys_put, Entries.keys_put]

theorem ofMap_put_lenient : ofMap (given.put "lenient" (.value v)) =
    { ofMap (given.put "lenient" (.value w)) with lenient := v } := by
  have hother : ∀ name x, name ≠ "lenient" →
      setting (given.put "lenient" (.value x)) name = setting given name := by
    intro name x hne
    rw [setting, Entries.get?_put_of_ne _ _ hne, setting]
  have hlenient : setting (given.put "lenient" (.value v)) "lenient" = .value v := by
    rw [setting, Entries.get?_put_self]
    rfl
  have henabled : ∀ (part : Section) x, setting (given.put "lenient" (.value x)) part.enabledName =
      setting given part.enabledName := by
    intro part x
    refine hother _ _ ?_
    cases part <;> decide
  simp [ofMap, hother, hlenient, henabled, Setting.toValue]

end Settings

/-- How strict a compiler is has no say in whether it can be configured. -/
theorem Compiler.make_put_lenient (collection : Value) (given : SettingMap) (v w : Value) :
    make collection (given.put "lenient" (.value v)) =
      (make collection (given.put "lenient" (.value w))).map (·.withLenient v) := by
  have hknown : Settings.requireKnown (shownFor collection) (given.put "lenient" (.value v)) =
      Settings.requireKnown (shownFor collection) (given.put "lenient" (.value w)) := by
    rw [Settings.requireKnown, Settings.requireKnown,
      Settings.unknown_put given "lenient" (.value v) (.value w)]
  unfold make
  rw [Settings.ofMap_put_lenient given v w, hknown]
  let settings := Settings.ofMap (given.put "lenient" (.value w))
  let known := Settings.requireKnown (shownFor collection) (given.put "lenient" (.value w))
  let configured (s : Settings) : Except Fault Compiler :=
    settings.ledger? >>= fun ledger => settings.paging.check >>= fun _ => known >>= fun _ =>
      .ok { collection, settings := s, ledger }
  change configured { settings with lenient := v } = (configured settings).map (·.withLenient v)
  simp only [configured]
  cases settings.ledger? <;> cases settings.paging.check <;> cases known <;> rfl

/-- Strict settings only reject: what a strict query compiles to, the lenient one with otherwise the
same settings compiles to as well. Where the lenient one compiles a query object of JSON and the strict one
does not, the strict one finds a flaw in it; of any query object it finds one, or it has no words for what
it finds, as a number of too many digits is in it. -/
theorem Compiler.strict_only_rejects (collection : Value) (given : SettingMap)
    (principal : Option Principal) (object : Document) :
    let run (lenient : Bool) : Except Fault Pipeline := do
      let c ← make collection (given.put "lenient" (.value (.bool lenient)))
      c.compile principal object
    (∀ p, run false = .ok p → run true = .ok p) ∧
      ∀ p fault, run true = .ok p → run false = .error fault →
        ((Value.object object).InJson → ∃ flaw, fault = .invalid flaw) ∧
        ((∃ flaw, fault = .invalid flaw) ∨
          (Value.object object).hasText = false ∧ fault = .misuse .tooManyDigits) := by
  intro run
  have htightens : Tightens ((Value.object object).hasText = false) (run false) (run true) := by
    have hmake : ∀ lenient, make collection (given.put "lenient" (.value (.bool lenient))) =
        (make collection (given.put "lenient" (.value .null))).map (·.withLenient (.bool lenient)) :=
      fun lenient => make_put_lenient collection given (.bool lenient) .null
    simp only [run, hmake]
    cases make collection (given.put "lenient" (.value .null)) with
    | error fault => exact .refl _
    | ok c =>
        change Tightens _ ((c.withLenient (.bool false)).compile principal object)
          ((c.withLenient (.bool true)).compile principal object)
        rw [compile_eq, compile_eq]
        exact Query.compile_tightens c principal object
  refine ⟨fun p => htightens.eq_ok, fun p fault hok herror => ?_⟩
  have hblames := htightens.blames herror hok
  refine ⟨fun hjson => hblames.resolve_right ?_, hblames⟩
  rintro ⟨hnone, -⟩
  exact Bool.false_ne_true (hnone.symm.trans hjson.hasText)

/-- A number among the conditions: a strict query says so, unless the number has too many digits. -/
theorem Compiler.strict_only_rejects_number :
    let run (lenient : Bool) (n : Int) : Except Fault Pipeline := do
      let c ← make (.text "users") (Entries.put [] "lenient" (.value (.bool lenient)))
      c.compile none [("conditions", .list [.int n])]
    (∀ n, ∃ p, run true n = .ok p) ∧ (∃ flaw, run false 5 = .error (.invalid flaw)) ∧
      run false ((10 ^ digitLimit : Nat) : Int) = .error (.misuse .tooManyDigits) := by
  intro run
  have hlenient : ∀ n, ∃ p, run true n = .ok p := fun n => ⟨_, by with_unfolding_all rfl⟩
  have hstrict : ∀ n, run false n = .error (.ofFlaw (.condition .notObject (.int n))) := by
    intro n
    with_unfolding_all rfl
  have hjson : (Value.object [("conditions", .list [.int 5])]).InJson :=
    .object (by decide) (List.forall_mem_singleton.mpr
      (.list (List.forall_mem_singleton.mpr (.int (by decide)))))
  refine ⟨hlenient, ?_, ?_⟩
  · obtain ⟨p, hp⟩ := hlenient 5
    obtain ⟨flaw, hflaw⟩ :=
      ((strict_only_rejects (.text "users") [] none _).2 p _ hp (hstrict 5)).1 hjson
    exact ⟨flaw, hflaw ▸ hstrict 5⟩
  · simp only [hstrict, Fault.ofFlaw, Flaw.shows?, Option.all_some, Value.hasText_pow]
    rfl

end QueryPipeline
