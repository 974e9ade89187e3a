import QueryPipeline.Proofs.Defaults
import QueryPipeline.Proofs.Desk

/-!
Desks that are configured alike. All that requests see of a configuration are the field of ids, the fields
that updates leave alone, whether times are kept, and the compilers; so two desks with the same of these
answer all requests alike. A configuration and the map of all settings made of it are such a pair.
-/

namespace QueryPipeline.Crud

open Entries (keys get? merge)

namespace Config

variable {c c' : Config} {given full : SettingMap}

/-! ## Settings that are read alike -/

theorem settingsOf_alike {settings : SettingMap} (h : Settings.Alike settings c.settings) (name : String) :
    (∃ first second, { c with settings }.settingsOf (.text name) = .ok first ∧
      c.settingsOf (.text name) = .ok second ∧ Settings.Alike first second) ∨
    ∃ fault, { c with settings }.settingsOf (.text name) = .error fault ∧
      c.settingsOf (.text name) = .error fault := by
  unfold settingsOf
  cases c.settingsFor with
  | none => exact .inr ⟨_, rfl, rfl⟩
  | some settingsFor =>
      dsimp only
      split
      · exact .inl ⟨_, _, rfl, rfl, h⟩
      · exact .inl ⟨_, _, rfl, rfl, h.merge _⟩
      · exact .inr ⟨_, rfl, rfl⟩

/-- Settings that are read alike make the same compilers, also under the settings of a collection. -/
theorem alike_of_settings {settings : SettingMap} (h : Settings.Alike settings c.settings) :
    Alike c { c with settings } := by
  refine ⟨rfl, rfl, rfl, fun collection => ?_⟩
  unfold Config.compilerFor
  cases Desk.collectionName collection with
  | error fault => rfl
  | ok name =>
      rcases settingsOf_alike h name with ⟨first, second, hfirst, hsecond, halike⟩ | ⟨fault, hfirst, hsecond⟩
      · simp only [bind, Except.bind, hfirst, hsecond]
        exact halike.make _
      · simp only [bind, Except.bind, hfirst, hsecond]

/-! ## The map of all settings of a configuration -/

theorem documented_eq_ok (h : documented given = .ok full) :
    ∃ settings, Settings.documented (Entries.without given names) = .ok settings ∧
      full = settings.merge (own given) := by
  unfold documented at h
  cases hsettings : Settings.documented (Entries.without given names) with
  | error fault =>
      rw [hsettings] at h
      cases h
  | ok settings =>
      rw [hsettings] at h
      exact ⟨settings, rfl, (Except.ok.inj h).symm⟩

variable {settings : SettingMap}

theorem get?_settings (h : Settings.documented (Entries.without given names) = .ok settings) {name : String}
    (hname : name ∈ names) : get? settings name = none := by
  obtain ⟨hstrays, rfl⟩ := Settings.documented_eq_ok_iff.mp h
  rw [Entries.get?_eq_none_iff, Settings.keys_merge_defaults hstrays]
  revert name
  decide

theorem get?_own (hn : (keys given).Nodup) (name : String) :
    get? (own given) name =
      if name ∈ names then (get? given name).or (get? usual name) else none := by
  have hfilter : (keys (given.filter fun entry => names.contains entry.1)).Nodup :=
    hn.sublist (List.filter_sublist.map _)
  rw [own, Entries.get?_merge _ hfilter, Entries.get?_filter_keys given fun name => names.contains name]
  by_cases hname : name ∈ names
  · rw [if_pos hname, if_pos (by simpa using hname)]
  · have husual : get? usual name = none := by
      rw [Entries.get?_eq_none_iff]
      exact hname
    rw [if_neg hname, if_neg (by simpa using hname), husual]
    rfl

theorem get?_documented (hn : (keys given).Nodup)
    (h : Settings.documented (Entries.without given names) = .ok settings) (name : String) :
    get? (settings.merge (own given)) name =
      if name ∈ names then (get? given name).or (get? usual name) else get? settings name := by
  have hown : (keys (own given)).Nodup := Entries.nodup_merge (by decide) _
  rw [Entries.get?_merge _ hown, get?_own hn]
  by_cases hname : name ∈ names
  · rw [if_pos hname, if_pos hname, get?_settings h hname, Option.or_none]
  · rw [if_neg hname, if_neg hname]
    rfl

/-- Who takes a setting that is not there for what the map of all settings has it set to reads the same
in both maps. -/
theorem read_documented (hn : (keys given).Nodup) (h : documented given = .ok full) {β : Type}
    (read : Option Value → β) (name : String) {v : Setting} (hname : name ∈ names)
    (husual : get? usual name = some v) (hread : read (some v.toValue) = read none) :
    read ((get? full name).map Setting.toValue) = read ((get? given name).map Setting.toValue) := by
  obtain ⟨settings, hsettings, rfl⟩ := documented_eq_ok h
  rw [get?_documented hn hsettings, if_pos hname, husual]
  cases get? given name with
  | none => exact hread
  | some given => rfl

theorem ofMap_documented (hn : (keys given).Nodup) (h : documented given = .ok full) :
    ofMap full = (ofMap given).map fun c => { c with settings := Entries.without full names } := by
  have hid := read_documented hn h idFieldOf "id_field" (by decide) rfl rfl
  have hts := read_documented hn h timestampsOf "timestamps" (by decide) rfl rfl
  have hro := read_documented hn h readOnlyOf "ro_fields" (by decide) rfl rfl
  have hfor := read_documented hn h (·.getD .null) "settings_for" (by decide) rfl rfl
  unfold ofMap
  simp only [hid, hts, hro, hfor]
  cases idFieldOf ((get? given "id_field").map Setting.toValue) with
  | error fault => rfl
  | ok idField =>
      cases readOnlyOf ((get? given "ro_fields").map Setting.toValue) <;> rfl

theorem settings_ofMap (h : ofMap given = .ok c) : c.settings = Entries.without given names := by
  unfold ofMap at h
  obtain ⟨idField, -, h⟩ := bind_eq_ok_iff.mp h
  obtain ⟨readOnly, -, h⟩ := bind_eq_ok_iff.mp h
  cases h
  rfl

/-- For the compilers, the settings of a configuration and those in the map of all settings made of it are
read alike. -/
theorem alike_without (hn : (keys given).Nodup) (h : documented given = .ok full) :
    Settings.Alike (Entries.without full names) (Entries.without given names) := by
  obtain ⟨settings, hsettings, rfl⟩ := documented_eq_ok h
  have hread : ∀ name,
      get? (Entries.without (settings.merge (own given)) names) name = get? settings name := by
    intro name
    rw [Entries.get?_without]
    split
    · exact (get?_settings hsettings ‹_›).symm
    · rw [get?_documented hn hsettings, if_neg ‹_›]
  refine Settings.Alike.trans ?_ (Settings.alike_documented (Entries.nodup_without hn names) hsettings)
  exact Settings.alike_of_get? hread (Settings.strays_documented hsettings)

theorem alike_documented (hn : (keys given).Nodup) (h : documented given = .ok full)
    (hc : ofMap given = .ok c) : ∃ c', ofMap full = .ok c' ∧ Alike c c' := by
  refine ⟨{ c with settings := Entries.without full names }, ?_, alike_of_settings ?_⟩
  · rw [ofMap_documented hn h, hc]
    rfl
  · rw [settings_ofMap hc]
    exact alike_without hn h

theorem ofMap_error (hn : (keys given).Nodup) (h : documented given = .ok full) {fault : Fault}
    (hfault : ofMap given = .error fault) : ofMap full = .error fault := by
  rw [ofMap_documented hn h, hfault]
  rfl

end Config

namespace Desk

variable {α β : Type} {d d' : Desk}

/-! ## Two desks -/

/-- An action that comes to the same at two desks whose configurations are alike, and leaves two such
desks. -/
def Blind (a : Action α) : Prop :=
  ∀ d d', Twin d d' → (d'.act a).1 = (d.act a).1 ∧ Twin (d.act a).2 (d'.act a).2

theorem Blind.bind {a : Action α} {f : α → Action β} (ha : Blind a) (hf : ∀ x, Blind (f x)) :
    Blind (a >>= f) := by
  intro d d' h
  obtain ⟨hresult, htwin⟩ := ha d d' h
  cases hact : (d.act a).1 with
  | error fault =>
      rw [hact] at hresult
      rw [act_bind_error hact, act_bind_error hresult]
      exact ⟨rfl, htwin⟩
  | ok x =>
      rw [hact] at hresult
      rw [act_bind_ok hact, act_bind_ok hresult]
      exact hf x _ _ htwin

theorem Blind.get_bind {f : Desk → Action α} (hf : ∀ d, Blind (f d))
    (hsame : ∀ d d', Twin d d' → f d' = f d) : Blind (MonadState.get >>= f) := by
  intro d d' h
  have hget : ∀ d : Desk, d.act (MonadState.get >>= f) = d.act (f d) := fun _ => rfl
  rw [hget, hget, hsame d d' h]
  exact hf d d d' h

/-- What is done to a desk without regard to its configuration. -/
theorem Blind.modify {f : Desk → Desk} (hconfig : ∀ d, (f d).config = d.config)
    (hf : ∀ d config, f { d with config } = { f d with config }) : Blind (modify f : Action Unit) := by
  rintro d _ ⟨config, halike, rfl⟩
  exact ⟨rfl, config, hconfig d ▸ halike, hf d config⟩

theorem blind : Bookkeeping fun _ a => Blind a where
  result _ _ _ h := ⟨rfl, h⟩
  bind := Blind.bind
  look := Blind.get_bind
  clock := Blind.modify (fun _ => rfl) fun _ _ => rfl
  issued := Blind.modify (fun _ => rfl) fun _ _ => rfl
  saving _ _ := Blind.modify (fun _ => rfl) fun _ _ => rfl

theorem blind_ask (store : Store) (call : Call) : Blind (ask store call) := by
  unfold ask
  refine Blind.get_bind (fun d => ?_) ?_
  · refine Blind.bind (Blind.modify (fun _ => rfl) fun _ _ => rfl) fun _ => ?_
    exact blind.result _
  · rintro d _ ⟨config, -, rfl⟩
    rfl

theorem blind_onSession (step : Session → Outcome Session α) : Blind (onSession step) := by
  rintro d _ ⟨config, halike, rfl⟩
  rw [act_onSession, act_onSession]
  exact ⟨rfl, config, halike, rfl⟩

/-- The compiler is made from settings that may differ, but it is the same one. -/
theorem blind_keepCompiler (collection : Value) : Blind (keepCompiler collection) := by
  rintro d _ ⟨config, halike, rfl⟩
  cases collection with
  | text name =>
      rw [act_keepCompiler, act_keepCompiler]
      dsimp only
      rw [halike.compilerFor]
      cases d.config.compilerFor (.text name) with
      | error fault => exact ⟨rfl, config, halike, rfl⟩
      | ok compiler => exact ⟨rfl, config, halike, rfl⟩
  | _ => exact ⟨rfl, config, halike, rfl⟩

theorem blind_compilerFor (collection : Value) : Blind (compilerFor collection) := by
  unfold compilerFor
  split
  · refine Blind.get_bind (fun d => ?_) ?_
    · split
      · exact blind.pure _
      · exact blind_keepCompiler collection
    · rintro d _ ⟨config, -, rfl⟩
      rfl
  · exact blind.throw _

theorem blind_query (collection queryObject : Value) (principal : Option Principal) :
    Blind (query collection queryObject principal) := by
  rw [query_eq]
  split
  · unfold queryWith
    apply Blind.bind (blind_compilerFor collection)
    intro kept
    refine Blind.get_bind (fun d => ?_) ?_
    · refine Blind.bind (Blind.modify (fun _ => rfl) fun _ _ => rfl) fun _ => ?_
      apply Blind.bind (blind_onSession _)
      intro _
      exact blind.pure _
    · rintro d _ ⟨config, -, rfl⟩
      rfl
  · exact blind.throw _

theorem blind_list (around : Surroundings) (collection : Value) (text : Option String) :
    Blind (list around collection text) := by
  apply Blind.bind (blind.result _)
  intro object
  apply Blind.bind (blind_query _ _ _)
  intro id
  refine Blind.bind (Blind.modify (fun _ => rfl) fun _ _ => rfl) fun _ => ?_
  apply Blind.bind (blind_onSession _)
  intro pipeline
  apply Blind.bind (blind_ask _ _)
  intro data
  apply Blind.bind (blind_ask _ _)
  intro total
  exact blind.pure _

theorem blind_handle (around : Surroundings) (request : Request) : Blind (handle around request) := by
  unfold handle
  refine Blind.bind (Blind.modify (fun _ => rfl) fun _ _ => rfl) fun _ => ?_
  refine blind.perform (blind_ask around.store) request ?_
  rintro collection text rfl
  exact blind_list around collection text

/-! ## Replies -/

/-- What is asked of a desk: to handle a request, or to make a query and to end it. -/
inductive Demand where
  | request (around : Surroundings) (request : Request)
  | enquiry (collection queryObject : Value) (principal : Option Principal)

/-- What a demand comes to: an answer with what happened until then, or a pipeline. -/
inductive Reply where
  | answer (result : Except Fault Value) (events : List Event)
  | pipeline (result : Except Fault Pipeline)

/-- Makes a query and ends it. -/
def enquire (collection queryObject : Value) (principal : Option Principal) : Action Pipeline := do
  let id ← query collection queryObject principal
  onSession (·.finish id)

/-- The reply to a demand, and the desk after it. -/
def meet (d : Desk) : Demand → Reply × Desk
  | .request around request =>
    let outcome := d.act (handle around request)
    (.answer outcome.1 outcome.2.events, outcome.2)
  | .enquiry collection queryObject principal =>
    let outcome := d.act (enquire collection queryObject principal)
    (.pipeline outcome.1, outcome.2)

/-- The replies to demands, one after another, each with the lines that are logged by then. -/
def replies (d : Desk) : List Demand → List (Reply × List LogEntry)
  | [] => []
  | demand :: rest => ((d.meet demand).1, (d.meet demand).2.log) :: replies (d.meet demand).2 rest

theorem Twin.events_eq (h : Twin d d') : d'.events = d.events := by
  obtain ⟨config, -, rfl⟩ := h
  rfl

theorem Twin.log_eq (h : Twin d d') : d'.log = d.log := by
  obtain ⟨config, -, rfl⟩ := h
  rfl

theorem Twin.meet (h : Twin d d') (demand : Demand) :
    (d'.meet demand).1 = (d.meet demand).1 ∧ Twin (d.meet demand).2 (d'.meet demand).2 := by
  cases demand with
  | request around request =>
      obtain ⟨hresult, htwin⟩ := blind_handle around request d d' h
      refine ⟨?_, htwin⟩
      rw [Desk.meet, Desk.meet]
      dsimp only
      rw [hresult, htwin.events_eq]
  | enquiry collection queryObject principal =>
      have hblind : Blind (enquire collection queryObject principal) := by
        apply Blind.bind (blind_query _ _ _)
        intro id
        exact blind_onSession _
      obtain ⟨hresult, htwin⟩ := hblind d d' h
      exact ⟨congrArg Reply.pipeline hresult, htwin⟩

/-- Two desks with configurations that are alike give the same replies. -/
theorem Twin.replies (h : Twin d d') (demands : List Demand) : d'.replies demands = d.replies demands := by
  induction demands generalizing d d' with
  | nil => rfl
  | cons demand rest ih =>
      obtain ⟨hreply, htwin⟩ := h.meet demand
      rw [Desk.replies, Desk.replies, hreply, htwin.log_eq, ih htwin]

end Desk

/-- The map of all settings says what is done without it. Made of any settings, it gives every section
what it finds in these, the compilers are the same and compile to the same, and so is what becomes of more
settings on top; a desk that is configured with it gives the same replies as one without it. -/
theorem documented_settings_agree :
    (∀ given full, (keys given).Nodup → Settings.documented given = .ok full →
      (∀ part, Settings.ofSection full part = Settings.ofSection given part) ∧
      (∀ collection, Compiler.make collection full = Compiler.make collection given) ∧
      (∀ collection principal object,
        (Compiler.make collection full >>= fun c => c.compile principal object) =
          (Compiler.make collection given >>= fun c => c.compile principal object)) ∧
      ∀ more, Settings.extended full more = Settings.documented (merge given more)) ∧
    ∀ given full, (keys given).Nodup → Config.documented given = .ok full →
      (∀ fault, Config.ofMap given = .error fault → Config.ofMap full = .error fault) ∧
      ∀ config, Config.ofMap given = .ok config → ∃ config', Config.ofMap full = .ok config' ∧
        ∀ clock issued demands,
          Desk.replies { config := config', clock, issued } demands =
            Desk.replies { config, clock, issued } demands := by
  refine ⟨fun given full hn h => ?_, fun given full hn h => ⟨fun fault => Config.ofMap_error hn h, ?_⟩⟩
  · have halike := Settings.alike_documented hn h
    refine ⟨halike.ofSection, halike.make, fun collection principal object => ?_,
      Settings.extended_documented hn h⟩
    rw [halike.make]
  · intro config hconfig
    obtain ⟨config', hconfig', halike⟩ := Config.alike_documented hn h hconfig
    refine ⟨config', hconfig', fun clock issued demands => ?_⟩
    have htwin : Desk.Twin { config, clock, issued } { config := config', clock, issued } :=
      ⟨config', halike, rfl⟩
    exact htwin.replies demands

/-- A cap for all collections and a lower one for notes, with and without the map of all settings: a
query for notes gets the lower one from both desks. -/
theorem documented_settings_agree_notes :
    let cap : SettingMap := [("max_items", .value (.int 10))]
    let own : SettingMap := [("settings_for", .value (.object [("notes", .object [("max_items", .int 3)])]))]
    let full := merge (merge Settings.defaults cap) (merge Config.usual own)
    let demand : Desk.Demand := .enquiry (.text "notes") .null none
    Settings.documented cap = .ok (merge Settings.defaults cap) ∧
      Compiler.make (.text "users") (merge Settings.defaults cap) = Compiler.make (.text "users") cap ∧
      Config.documented (cap ++ own) = .ok full ∧
      ∃ config config', Config.ofMap (cap ++ own) = .ok config ∧ Config.ofMap full = .ok config' ∧
        Desk.replies { config := config' } [demand] = Desk.replies { config } [demand] ∧
        (Desk.replies { config } [demand]).map (fun reply => match reply.1 with
          | .pipeline (.ok p) => p.limit
          | _ => none) = [some (.int 3)] := by
  intro cap own full demand
  have hcap : Settings.documented cap = .ok (merge Settings.defaults cap) :=
    Settings.documented_eq_ok_iff.mpr ⟨by decide, rfl⟩
  have hfull : Config.documented (cap ++ own) = .ok full := congrArg (Except.map _) hcap
  obtain ⟨config, hconfig⟩ : ∃ config, Config.ofMap (cap ++ own) = .ok config := ⟨_, rfl⟩
  obtain ⟨hsettings, hconfigs⟩ := documented_settings_agree
  obtain ⟨-, hmake, -⟩ := hsettings cap _ (by decide) hcap
  obtain ⟨-, hsame⟩ := hconfigs (cap ++ own) full (by decide) hfull
  obtain ⟨config', hconfig', hreplies⟩ := hsame config hconfig
  refine ⟨hcap, hmake _, hfull, config, config', hconfig, hconfig', hreplies {} 0 [demand], ?_⟩
  cases hconfig
  decide +kernel

end QueryPipeline.Crud
