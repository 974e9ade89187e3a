import QueryPipeline.Proofs.Compilation

/-!
The map of all settings. What it sets a name to that was not given is what the sections take it for
themselves, so whoever reads settings cannot tell whether they have been through it.
-/

namespace QueryPipeline.Settings

open Entries (keys get? put merge)

/-! ## Two tables of defaults -/

theorem get?_defaults_of_declared (part : Section) :
    ∀ entry ∈ declared part, get? defaults entry.1 = some entry.2 := by
  cases part <;> unfold declared <;> simp only [List.forall_mem_cons]
  case balance => exact ⟨rfl, rfl, List.forall_mem_nil _⟩
  case filter => exact ⟨rfl, rfl, List.forall_mem_nil _⟩
  case sort => exact ⟨rfl, rfl, rfl, List.forall_mem_nil _⟩
  case limit => exact ⟨rfl, rfl, List.forall_mem_nil _⟩

theorem get?_defaults_of_overall : ∀ entry ∈ overall, get? defaults entry.1 = some entry.2 := by
  simp only [overall, Section.all, List.map_cons, List.map_nil, List.forall_mem_cons]
  exact ⟨rfl, rfl, rfl, rfl, rfl, List.forall_mem_nil _⟩

theorem keys_known : ∀ name ∈ keys defaults, name ∈ keys known := by
  decide

theorem nodup_defaults : (keys defaults).Nodup := by
  decide

/-- The sections take a setting for what the map of all settings has it set to. -/
theorem get?_known (name : String) : get? known name = get? defaults name := by
  cases hknown : get? known name with
  | some usual =>
      rcases List.mem_append.mp (Entries.mem_of_get? hknown) with hdeclared | hoverall
      · obtain ⟨part, -, hmem⟩ := List.mem_flatMap.mp hdeclared
        exact (get?_defaults_of_declared part _ hmem).symm
      · exact (get?_defaults_of_overall _ hoverall).symm
  | none =>
      have hnone : name ∉ keys defaults :=
        fun hmem => (Entries.get?_eq_none_iff _ _).mp hknown (keys_known name hmem)
      exact ((Entries.get?_eq_none_iff _ _).mpr hnone).symm

theorem has_known (name : String) : known.has name = defaults.has name := by
  rw [Entries.has, Entries.has, get?_known]

/-! ## Maps that are read alike -/

/-- The names in a map that are no settings, as they come. -/
def strays (given : SettingMap) : List String :=
  (keys given).filter fun name => !known.has name

/-- Maps that set every name to the same, with defaults for what is not there, and have the same names
in them that are no settings. -/
structure Alike (first second : SettingMap) : Prop where
  read : ∀ name, (get? first name).or (get? known name) = (get? second name).or (get? known name)
  strays_eq : strays first = strays second

variable {first second third given full : SettingMap}

theorem Alike.refl (given : SettingMap) : Alike given given :=
  ⟨fun _ => rfl, rfl⟩

theorem Alike.trans (h : Alike first second) (h' : Alike second third) : Alike first third :=
  ⟨fun name => (h.read name).trans (h'.read name), h.strays_eq.trans h'.strays_eq⟩

theorem mem_strays {name : String} : name ∈ strays given ↔ name ∈ keys given ∧ known.has name = false := by
  simp [strays]

theorem strays_eq_nil_iff : strays given = [] ↔ ∀ name ∈ keys given, known.has name = true := by
  simp [strays]

theorem alike_of_get? (h : ∀ name, get? first name = get? second name) (hnone : strays second = []) :
    Alike first second := by
  refine ⟨fun name => by rw [h], ?_⟩
  rw [hnone, strays_eq_nil_iff]
  intro name hmem
  refine strays_eq_nil_iff.mp hnone name ?_
  rw [← Entries.has_iff_mem_keys, Entries.has] at hmem ⊢
  rwa [← h]

theorem strays_put (given : SettingMap) (name : String) (v : Setting) :
    strays (put given name v) =
      if known.has name ∨ name ∈ strays given then strays given else strays given ++ [name] := by
  by_cases hknown : known.has name = true
  · rw [if_pos (.inl hknown), strays, Entries.keys_put]
    split
    · rfl
    · simp [strays, hknown]
  · rw [Bool.not_eq_true] at hknown
    by_cases hmem : name ∈ keys given
    · rw [if_pos (.inr (mem_strays.mpr ⟨hmem, hknown⟩)), strays, Entries.keys_put, if_pos hmem, strays]
    · have hstray : name ∉ strays given := fun h => hmem (mem_strays.mp h).1
      rw [if_neg (by simp [hknown, hstray]), strays, Entries.keys_put, if_neg hmem]
      simp [strays, hknown]

theorem Alike.put (h : Alike first second) (name : String) (v : Setting) :
    Alike (put first name v) (put second name v) where
  read other := by
    rw [Entries.get?_put, Entries.get?_put]
    split
    · rfl
    · exact h.read other
  strays_eq := by rw [strays_put, strays_put, h.strays_eq]

theorem Alike.merge (h : Alike first second) (more : SettingMap) :
    Alike (merge first more) (merge second more) := by
  induction more generalizing first second with
  | nil => exact h
  | cons entry rest ih => exact ih (h.put entry.1 entry.2)

theorem setting_eq (given : SettingMap) (name : String) :
    setting given name = ((get? given name).or (get? known name)).getD (.value .null) := by
  rw [setting]
  cases get? given name <;> rfl

theorem unknown_eq (given : SettingMap) :
    unknown given = (strays given).mergeSort fun a b => decide (a ≤ b) :=
  rfl

theorem others_defaults (given : SettingMap) : others defaults given = unknown given := by
  rw [unknown, others, others]
  simp only [has_known]

theorem unknown_eq_nil_iff : unknown given = [] ↔ strays given = [] := by
  rw [unknown_eq]
  exact ⟨fun h => (h ▸ List.mergeSort_perm _ _ : [].Perm (strays given)).nil_eq.symm,
    fun h => h ▸ List.mergeSort_nil⟩

theorem Alike.ofMap (h : Alike first second) : ofMap first = ofMap second := by
  have hsetting : setting first = setting second := by
    funext name
    rw [setting_eq, setting_eq, h.read]
  rw [Settings.ofMap, Settings.ofMap, hsetting]

theorem Alike.ofSection (h : Alike first second) (part : Section) :
    ofSection first part = ofSection second part := by
  refine List.map_congr_left ?_
  rintro ⟨name, usual⟩ hmem
  have hread := h.read name
  rw [get?_known, get?_defaults_of_declared part _ hmem, Option.or_some, Option.or_some] at hread
  exact congrArg (Prod.mk name) (Option.some.inj hread)

theorem Alike.make (h : Alike first second) (collection : Value) :
    Compiler.make collection first = Compiler.make collection second := by
  rw [Compiler.make, Compiler.make, h.ofMap, requireKnown, requireKnown, unknown_eq, unknown_eq,
    h.strays_eq]

/-! ## The map of all settings -/

theorem documented_eq_ok_iff :
    documented given = .ok full ↔ strays given = [] ∧ full = merge defaults given := by
  unfold documented
  rw [others_defaults, ← unknown_eq_nil_iff]
  split
  · rename_i hnone
    simp [hnone, eq_comm]
  · rename_i hsome
    exact ⟨fun h => (nomatch h), fun h => absurd h.1 hsome⟩

theorem keys_merge_defaults (h : strays given = []) : keys (merge defaults given) = keys defaults := by
  refine Entries.keys_merge fun name hmem => ?_
  rw [← Entries.has_iff_mem_keys, ← has_known]
  exact strays_eq_nil_iff.mp h name hmem

theorem nodup_documented (h : documented given = .ok full) : (keys full).Nodup := by
  obtain ⟨-, rfl⟩ := documented_eq_ok_iff.mp h
  exact Entries.nodup_merge nodup_defaults given

theorem strays_documented (h : documented given = .ok full) : strays full = [] := by
  obtain ⟨hstrays, rfl⟩ := documented_eq_ok_iff.mp h
  rw [strays_eq_nil_iff, keys_merge_defaults hstrays]
  intro name hmem
  rw [has_known]
  exact (Entries.has_iff_mem_keys _ _).mpr hmem

/-- A map of settings and the map of all settings made of it are read alike. -/
theorem alike_documented (hn : (keys given).Nodup) (h : documented given = .ok full) :
    Alike full given := by
  refine ⟨fun name => ?_, (strays_documented h).trans (documented_eq_ok_iff.mp h).1.symm⟩
  rw [(documented_eq_ok_iff.mp h).2, Entries.get?_merge _ hn, get?_known, Option.or_assoc, Option.or_self]

theorem Alike.documented (h : Alike first second) (hfirst : (keys first).Nodup)
    (hsecond : (keys second).Nodup) : documented first = documented second := by
  have hothers : others defaults first = others defaults second := by
    rw [others_defaults, others_defaults, unknown_eq, unknown_eq, h.strays_eq]
  unfold Settings.documented
  rw [hothers]
  split
  · rename_i hnone
    rw [others_defaults, unknown_eq_nil_iff] at hnone
    have hkeys := keys_merge_defaults hnone
    rw [← h.strays_eq] at hnone
    have hkeys' := keys_merge_defaults hnone
    congr 1
    refine Entries.ext (Entries.nodup_merge nodup_defaults first) (hkeys'.trans hkeys.symm) fun name => ?_
    rw [Entries.get?_merge _ hfirst, Entries.get?_merge _ hsecond, ← get?_known]
    exact h.read name
  · rfl

/-- More settings are the same on top of a map of settings and of the map of all settings made of it. -/
theorem extended_documented (hn : (keys given).Nodup) (h : documented given = .ok full)
    (more : SettingMap) : extended full more = documented (merge given more) :=
  ((alike_documented hn h).merge more).documented (Entries.nodup_merge (nodup_documented h) more)
    (Entries.nodup_merge hn more)

end QueryPipeline.Settings
