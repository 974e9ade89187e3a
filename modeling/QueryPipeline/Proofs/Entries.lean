import Mathlib.Data.List.Induction
import QueryPipeline.Entries

/-! Ordered entries as finite maps: membership, lookup, and what merging two of them keeps. -/

namespace QueryPipeline.Entries

universe u v w

variable {α : Type u} {β : Type v} {γ : Type w}

theorem mem_keys_of_mem {entries : Entries α β} {entry : α × β} (h : entry ∈ entries) :
    entry.1 ∈ keys entries :=
  List.mem_map_of_mem h

theorem keys_map (entries : Entries α β) (f : β → γ) :
    keys (entries.map fun entry => (entry.1, f entry.2)) = keys entries := by
  simp [keys]

variable [DecidableEq α]

theorem mem_of_get? {entries : Entries α β} {key : α} {v : β} (h : get? entries key = some v) :
    (key, v) ∈ entries := by
  induction entries with
  | nil => cases h
  | cons entry rest ih =>
      obtain ⟨k, w⟩ := entry
      by_cases hk : k = key
      · simp only [get?, hk, ↓reduceIte, Option.some.injEq] at h
        subst hk; subst h
        exact List.mem_cons_self
      · simp only [get?, hk, ↓reduceIte] at h
        exact List.mem_cons_of_mem _ (ih h)

theorem exists_of_mem_keys {entries : Entries α β} {key : α} (h : key ∈ keys entries) :
    ∃ v, get? entries key = some v :=
  Option.isSome_iff_exists.mp ((has_iff_mem_keys entries key).mpr h)

theorem get?_of_mem {entries : Entries α β} (hn : (keys entries).Nodup) {key : α} {v : β}
    (h : (key, v) ∈ entries) : get? entries key = some v := by
  induction entries with
  | nil => cases h
  | cons entry rest ih =>
      obtain ⟨k, w⟩ := entry
      obtain ⟨hk, hr⟩ : k ∉ keys rest ∧ (keys rest).Nodup := List.nodup_cons.mp hn
      rcases List.mem_cons.mp h with he | h
      · cases he; simp [get?]
      · have hne : k ≠ key := by
          rintro rfl
          exact hk (mem_keys_of_mem h)
        simp only [get?, hne, ↓reduceIte]
        exact ih hr h

theorem mem_iff_get? {entries : Entries α β} (hn : (keys entries).Nodup) {key : α} {v : β} :
    (key, v) ∈ entries ↔ get? entries key = some v :=
  ⟨get?_of_mem hn, mem_of_get?⟩

theorem mem_keys_put (entries : Entries α β) (key : α) (v : β) {other : α} :
    other ∈ keys (put entries key v) ↔ other = key ∨ other ∈ keys entries := by
  rw [keys_put]
  split
  · rename_i h
    exact ⟨Or.inr, fun hor => hor.elim (fun he => he ▸ h) id⟩
  · simp [or_comm]

theorem mem_put {entries : Entries α β} {key : α} {v : β} {entry : α × β}
    (h : entry ∈ put entries key v) : entry = (key, v) ∨ entry ∈ entries := by
  induction entries with
  | nil => exact .inl (List.mem_singleton.mp h)
  | cons first rest ih =>
      by_cases hk : first.1 = key
      · rw [put, if_pos hk] at h
        rcases List.mem_cons.mp h with he | h
        · exact .inl (he.trans (congrArg (·, v) hk))
        · exact .inr (List.mem_cons_of_mem _ h)
      · rw [put, if_neg hk] at h
        rcases List.mem_cons.mp h with he | h
        · exact .inr (he ▸ List.mem_cons_self)
        · exact (ih h).imp_right (List.mem_cons_of_mem _)

theorem get?_map (entries : Entries α β) (f : β → γ) (key : α) :
    get? (entries.map fun entry => (entry.1, f entry.2)) key = (get? entries key).map f := by
  induction entries with
  | nil => rfl
  | cons entry rest ih =>
      obtain ⟨k, w⟩ := entry
      by_cases hk : k = key
      · simp [get?, hk]
      · simpa [get?, hk] using ih

theorem get?_append (first second : Entries α β) (key : α) :
    get? (first ++ second) key = (get? first key).or (get? second key) := by
  induction first with
  | nil => rfl
  | cons entry rest ih =>
      obtain ⟨k, v⟩ := entry
      by_cases hk : k = key
      · simp [get?, hk]
      · simpa [get?, hk] using ih

theorem get?_filter_keys (entries : Entries α β) (p : α → Bool) (key : α) :
    get? (entries.filter fun entry => p entry.1) key = if p key then get? entries key else none := by
  induction entries with
  | nil => simp [get?]
  | cons entry rest ih =>
      obtain ⟨k, v⟩ := entry
      by_cases hk : k = key
      · subst hk
        cases hp : p k <;> simp [get?, hp, ih]
      · cases hp : p k <;> simp [get?, hp, hk, ih]

theorem get?_filterMap_keys (entries : Entries α β) (names : List α) (key : α) :
    get? (names.filterMap fun name => (get? entries name).map fun v => (name, v)) key =
      if key ∈ names then get? entries key else none := by
  induction names with
  | nil => rfl
  | cons name rest ih =>
      cases hname : get? entries name with
      | none =>
          by_cases hkey : key = name
          · subst hkey
            simp [hname, ih]
          · simp [hname, ih, hkey]
      | some v =>
          by_cases hkey : key = name
          · subst hkey
            simp [hname, get?]
          · simp [hname, get?, ih, hkey, Ne.symm hkey]

theorem nodup_without {entries : Entries α β} (h : (keys entries).Nodup) (names : List α) :
    (keys (without entries names)).Nodup :=
  h.sublist (List.filter_sublist.map _)

/-- Maps with the same keys in the same order, none of them twice, and with the same values. -/
theorem ext {first second : Entries α β} (hn : (keys first).Nodup) (hkeys : keys first = keys second)
    (hget : ∀ key, get? first key = get? second key) : first = second := by
  have hmem : ∀ entry ∈ first, ∀ other ∈ second, entry.1 = other.1 → entry = other := by
    rintro ⟨key, v⟩ hentry ⟨_, w⟩ hother rfl
    have hv := get?_of_mem hn hentry
    have hw := get?_of_mem (hkeys ▸ hn) hother
    rw [hget, hw] at hv
    rw [Option.some.inj hv]
  refine List.ext_getElem ?_ fun i hfirst hsecond => ?_
  · simpa [keys] using congrArg List.length hkeys
  · refine hmem _ (List.getElem_mem hfirst) _ (List.getElem_mem hsecond) ?_
    have hnames := congrArg (·[i]?) hkeys
    simpa [keys, hfirst, hsecond] using hnames

/-! ## Merging -/

/-- Writing only to keys that are there adds none. -/
theorem keys_merge {first second : Entries α β} (h : ∀ key ∈ keys second, key ∈ keys first) :
    keys (merge first second) = keys first := by
  induction second generalizing first with
  | nil => rfl
  | cons entry rest ih =>
      have hput : keys (put first entry.1 entry.2) = keys first := by
        rw [keys_put, if_pos (h entry.1 List.mem_cons_self)]
      have hrest : ∀ key ∈ keys rest, key ∈ keys (put first entry.1 entry.2) :=
        fun key hkey => hput ▸ h key (List.mem_cons_of_mem _ hkey)
      exact (ih hrest).trans hput

theorem nodup_merge {first : Entries α β} (h : (keys first).Nodup) (second : Entries α β) :
    (keys (merge first second)).Nodup := by
  induction second generalizing first with
  | nil => exact h
  | cons entry rest ih => exact ih (nodup_put h entry.1 entry.2)

theorem mem_merge {first second : Entries α β} {entry : α × β} (h : entry ∈ merge first second) :
    entry ∈ first ∨ entry ∈ second := by
  induction second generalizing first with
  | nil => exact .inl h
  | cons other rest ih =>
      rcases ih h with hput | hrest
      · rcases mem_put hput with rfl | hfirst
        · exact .inr List.mem_cons_self
        · exact .inl hfirst
      · exact .inr (List.mem_cons_of_mem _ hrest)

/-- Two maps that have the same value wherever both have one. -/
def Agree (first second : Entries α β) : Prop :=
  ∀ key v w, get? first key = some v → get? second key = some w → v = w

theorem Agree.get?_merge_iff {first second : Entries α β} (h : Agree first second)
    (hn : (keys second).Nodup) {key : α} {v : β} :
    get? (merge first second) key = some v ↔
      get? first key = some v ∨ get? second key = some v := by
  rw [get?_merge first hn]
  cases hs : get? second key with
  | none => simp
  | some w =>
      constructor
      · rintro ⟨⟩; exact .inr rfl
      · rintro (hf | hw)
        · rw [h _ _ _ hf hs]; rfl
        · rw [hw]; rfl

theorem Agree.mem_merge_iff {first second : Entries α β} (h : Agree first second)
    (hf : (keys first).Nodup) (hs : (keys second).Nodup) {entry : α × β} :
    entry ∈ merge first second ↔ entry ∈ first ∨ entry ∈ second := by
  obtain ⟨key, v⟩ := entry
  rw [mem_iff_get? (nodup_merge hf second), mem_iff_get? hf, mem_iff_get? hs, h.get?_merge_iff hs]

/-- Two maps agree just when merging them loses no entry of either. -/
theorem agree_iff_mem_merge {first second : Entries α β} (hf : (keys first).Nodup)
    (hs : (keys second).Nodup) :
    Agree first second ↔ ∀ entry, entry ∈ merge first second ↔ entry ∈ first ∨ entry ∈ second := by
  refine ⟨fun h entry => h.mem_merge_iff hf hs, fun h key v w hv hw => ?_⟩
  have hn : (keys (merge first second)).Nodup := nodup_merge hf second
  have hfirst := get?_of_mem hn ((h (key, v)).mpr (.inl (mem_of_get? hv)))
  have hsecond := get?_of_mem hn ((h (key, w)).mpr (.inr (mem_of_get? hw)))
  exact Option.some.inj (hfirst.symm.trans hsecond)

/-! ## Writing entries one after another -/

theorem ofList_append (first second : List (α × β)) :
    ofList (first ++ second) = merge (ofList first) second :=
  List.foldl_append

theorem ofList_concat (entries : List (α × β)) (entry : α × β) :
    ofList (entries ++ [entry]) = put (ofList entries) entry.1 entry.2 :=
  ofList_append entries [entry]

theorem nodup_ofList (entries : List (α × β)) : (keys (ofList entries)).Nodup := by
  have hnil : (keys ([] : Entries α β)).Nodup := List.nodup_nil
  exact nodup_merge hnil entries

/-- Of entries with the same key, the last one is heard. -/
theorem get?_ofList (entries : List (α × β)) (key : α) :
    get? (ofList entries) key = ((entries.filter (·.1 = key)).getLast?).map (·.2) := by
  induction entries using List.reverseRecOn with
  | nil => rfl
  | append_singleton entries entry ih =>
      rw [ofList_concat, get?_put, ih, List.filter_append]
      by_cases hkey : entry.1 = key
      · simp [hkey]
      · simp [hkey, Ne.symm hkey]

/-- Every key stays where it came up first. -/
theorem keys_ofList (entries : List (α × β)) : keys (ofList entries) = (entries.map (·.1)).eraseDups := by
  induction entries using List.reverseRecOn with
  | nil => rfl
  | append_singleton entries entry ih =>
      rw [ofList_concat, keys_put, ih, List.map_append, List.eraseDups_append]
      by_cases hmem : entry.1 ∈ entries.map (·.1)
      · rw [if_pos (List.mem_eraseDups.mpr hmem)]
        simp [List.removeAll, hmem]
      · rw [if_neg (List.mem_eraseDups.not.mpr hmem)]
        simp [List.removeAll, hmem, List.eraseDups_cons]

theorem put_of_not_mem {entries : Entries α β} {key : α} (h : key ∉ keys entries) (v : β) :
    put entries key v = entries ++ [(key, v)] := by
  induction entries with
  | nil => rfl
  | cons entry rest ih =>
      obtain ⟨hne, hrest⟩ := not_or.mp (List.mem_cons.not.mp h)
      rw [put, if_neg (Ne.symm hne), ih hrest]
      rfl

/-- Entries whose keys are different are the map that they write. -/
theorem ofList_of_nodup {entries : List (α × β)} (h : (keys entries).Nodup) : ofList entries = entries := by
  induction entries using List.reverseRecOn with
  | nil => rfl
  | append_singleton entries entry ih =>
      rw [keys, List.map_append, List.nodup_append] at h
      obtain ⟨hfirst, -, hapart⟩ := h
      have hnew : entry.1 ∉ keys entries := fun hmem => hapart _ hmem _ List.mem_cons_self rfl
      rw [ofList_concat, ih hfirst]
      exact put_of_not_mem hnew entry.2

end QueryPipeline.Entries
