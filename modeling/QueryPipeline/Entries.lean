/-!
Ordered entries: a finite map as a list of keys and values in the order of insertion. Writing to a
key that is there keeps its place.
-/

namespace QueryPipeline

universe u v

/-- Keys with their values, in order. -/
abbrev Entries (α : Type u) (β : Type v) := List (α × β)

namespace Entries

variable {α : Type u} {β : Type v} [DecidableEq α]

/-- The value of a key. -/
def get? : Entries α β → α → Option β
  | [], _ => none
  | (k, v) :: rest, key => if k = key then some v else get? rest key

/-- Sets the value of a key: in its place when the key is there, else at the end. -/
def put : Entries α β → α → β → Entries α β
  | [], key, v => [(key, v)]
  | (k, w) :: rest, key, v => if k = key then (k, v) :: rest else (k, w) :: put rest key v

/-- The entries of both; where a key is in both, the second one's value in the first one's place. -/
def merge (first second : Entries α β) : Entries α β :=
  second.foldl (fun merged entry => put merged entry.1 entry.2) first

/-- The entries as the map they write when they are written one after another. -/
def ofList (entries : List (α × β)) : Entries α β :=
  merge [] entries

/-- The keys, in order. -/
def keys (entries : Entries α β) : List α :=
  entries.map (·.1)

/-- Whether the key has a value. -/
def has (entries : Entries α β) (key : α) : Bool :=
  (get? entries key).isSome

/-- The entries under other keys than the given ones. -/
def without (entries : Entries α β) (keys : List α) : Entries α β :=
  entries.filter fun entry => !keys.contains entry.1

/-! ## Reading back -/

theorem get?_put_self (entries : Entries α β) (key : α) (v : β) :
    get? (put entries key v) key = some v := by
  induction entries with
  | nil => simp [put, get?]
  | cons entry rest ih =>
    obtain ⟨k, w⟩ := entry
    by_cases h : k = key <;> simp [put, get?, h, ih]

theorem get?_put_of_ne (entries : Entries α β) {key other : α} (v : β) (h : other ≠ key) :
    get? (put entries key v) other = get? entries other := by
  induction entries with
  | nil => simp [put, get?, Ne.symm h]
  | cons entry rest ih =>
    obtain ⟨k, w⟩ := entry
    by_cases hk : k = key
    · simp [put, get?, hk, Ne.symm h]
    · by_cases ho : k = other
      · subst ho; simp [put, get?, hk]
      · simp [put, get?, hk, ho, ih]

/-- Writing reads back, and leaves the other keys alone. -/
theorem get?_put (entries : Entries α β) (key other : α) (v : β) :
    get? (put entries key v) other = if other = key then some v else get? entries other := by
  by_cases h : other = key
  · subst h; simp [get?_put_self]
  · simp [h, get?_put_of_ne]

theorem has_iff_mem_keys (entries : Entries α β) (key : α) :
    has entries key = true ↔ key ∈ keys entries := by
  induction entries with
  | nil => simp [has, get?, keys]
  | cons entry rest ih =>
    obtain ⟨k, w⟩ := entry
    by_cases h : k = key
    · simp [has, get?, keys, h]
    · have hs : (get? rest key).isSome = true ↔ key ∈ keys rest := ih
      simp only [has, get?, if_neg h, hs, keys, List.map_cons, List.mem_cons]
      exact ⟨Or.inr, fun hm => hm.resolve_left (Ne.symm h)⟩

theorem get?_eq_none_iff (entries : Entries α β) (key : α) :
    get? entries key = none ↔ key ∉ keys entries := by
  rw [← has_iff_mem_keys, has]
  cases get? entries key <;> simp

/-- The keys stay in their places; a new one comes last. -/
theorem keys_put (entries : Entries α β) (key : α) (v : β) :
    keys (put entries key v) =
      if key ∈ keys entries then keys entries else keys entries ++ [key] := by
  induction entries with
  | nil => rfl
  | cons entry rest ih =>
    obtain ⟨k, w⟩ := entry
    by_cases h : k = key
    · simp [put, keys, h]
    · have hr : keys (put rest key v) =
          if key ∈ keys rest then keys rest else keys rest ++ [key] := ih
      simp only [put, if_neg h]
      by_cases hm : key ∈ keys rest
      · have hk : key ∈ keys ((k, w) :: rest) := List.mem_cons_of_mem _ hm
        rw [if_pos hk]
        rw [if_pos hm] at hr
        exact congrArg (k :: ·) hr
      · have hk : key ∉ keys ((k, w) :: rest) := by
          intro hc
          exact (List.mem_cons.1 hc).elim (fun e => h e.symm) hm
        rw [if_neg hk]
        rw [if_neg hm] at hr
        exact congrArg (k :: ·) hr

/-- Writing keeps the keys different from one another. -/
theorem nodup_put {entries : Entries α β} (h : (keys entries).Nodup) (key : α) (v : β) :
    (keys (put entries key v)).Nodup := by
  rw [keys_put]
  by_cases hm : key ∈ keys entries
  · rwa [if_pos hm]
  · rw [if_neg hm]
    exact List.nodup_append.2 ⟨h, by simp, fun a ha b hb e =>
      hm (List.mem_singleton.1 hb ▸ e ▸ ha)⟩

/-- Of two maps with a key the second is heard, as long as it has no key twice. -/
theorem get?_merge (first : Entries α β) {second : Entries α β} (h : (keys second).Nodup)
    (key : α) : get? (merge first second) key = (get? second key).or (get? first key) := by
  induction second generalizing first with
  | nil => rfl
  | cons entry rest ih =>
    obtain ⟨k, v⟩ := entry
    have hn : k ∉ keys rest ∧ (keys rest).Nodup := List.nodup_cons.1 h
    have hs : merge first ((k, v) :: rest) = merge (put first k v) rest := rfl
    rw [hs, ih (put first k v) hn.2, get?_put]
    by_cases hk : key = k
    · subst hk
      rw [(get?_eq_none_iff rest key).2 hn.1]
      simp [get?]
    · simp [get?, hk, Ne.symm hk]

/-- Taking keys away leaves the values of the others. -/
theorem get?_without (entries : Entries α β) (names : List α) (key : α) :
    get? (without entries names) key = if key ∈ names then none else get? entries key := by
  induction entries with
  | nil => simp [without, get?]
  | cons entry rest ih =>
    obtain ⟨k, v⟩ := entry
    have hr : get? (rest.filter fun entry => !names.contains entry.1) key =
        if key ∈ names then none else get? rest key := ih
    by_cases hk : k = key
    · subst hk
      by_cases hm : k ∈ names
      · simp [without, hm] at hr ⊢
        exact hr
      · simp [without, get?, hm]
    · by_cases hm : k ∈ names
      · simp only [without, List.filter_cons, get?, if_neg hk]
        simpa [hm] using hr
      · simp only [without, List.filter_cons, get?, if_neg hk]
        simpa [hm, get?, hk] using hr

end Entries

end QueryPipeline
