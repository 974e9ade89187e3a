import QueryPipeline.Proofs.Substitution

/-!
The placeholders of a template beside what is substituted for them: which of them a strict substitution
misses, and which are there when a lenient one is done.
-/

namespace QueryPipeline.Template

open Entries (keys get?)

/-! ## The names of a template -/

theorem namesOfItems_eq (items : List Value) : namesOfItems items = items.flatMap names := by
  induction items with
  | nil => rfl
  | cons v rest ih => rw [namesOfItems, ih, List.flatMap_cons]

theorem namesOfEntries_eq (entries : Document) :
    namesOfEntries entries = (entries.map (·.2)).flatMap names := by
  induction entries with
  | nil => rfl
  | cons entry rest ih => rw [namesOfEntries, ih, List.map_cons, List.flatMap_cons]

theorem names_branch {v : Value} (h : v.isKey = false) : names v = v.parts.flatMap names := by
  cases v with
  | list items => rw [names, namesOfItems_eq]; rfl
  | object entries => rw [names, namesOfEntries_eq]; rfl
  | _ => cases h

theorem names_leaf {v : Value} (h : v.isKey = true) : names v = (name? v).toList := by
  cases v with
  | list items => cases h
  | object entries => cases h
  | _ => rfl

theorem name?_branch {v : Value} (h : v.isKey = false) : name? v = none := by
  cases v with
  | list items => rfl
  | object entries => rfl
  | _ => cases h

/-! ## Their places -/

/-- The name of the placeholder at a place in a template. -/
def nameAt? (t : Value) (path : List Nat) : Option String :=
  (t.at? path).bind name?

theorem nameAt?_cons {t : Value} {place : Nat} {path : List Nat} {name : String} :
    nameAt? t (place :: path) = some name ↔
      ∃ part, t.parts[place]? = some part ∧ nameAt? part path = some name := by
  rw [nameAt?, Value.at?, Option.bind_assoc, Option.bind_eq_some_iff]
  rfl

theorem mem_names_of_nameAt? {path : List Nat} {t : Value} {name : String}
    (h : nameAt? t path = some name) : name ∈ names t := by
  induction path generalizing t with
  | nil =>
      have hname : name? t = some name := h
      cases hleaf : t.isKey with
      | false => cases (name?_branch hleaf).symm.trans hname
      | true => simp [names_leaf hleaf, hname]
  | cons place path ih =>
      obtain ⟨part, hpart, hname⟩ := nameAt?_cons.mp h
      have hmem : part ∈ t.parts := List.mem_of_getElem? hpart
      rw [names_branch (Value.isKey_of_mem_parts hmem)]
      exact List.mem_flatMap.mpr ⟨part, hmem, ih hname⟩

/-- The first of the names that fulfils a condition is that of a placeholder, and no placeholder before
it, in the order of the document, has such a name. -/
theorem nameAt?_of_find? {t : Value} {q : String → Bool} {name : String}
    (h : (names t).find? q = some name) : ∃ path, nameAt? t path = some name ∧
      ∀ earlier < path, ∀ other, nameAt? t earlier = some other → q other = false := by
  induction t using Value.parts_induction with
  | step t ih =>
      cases hleaf : t.isKey with
      | true =>
          rw [names_leaf hleaf] at h
          have hname : name? t = some name := by simpa using List.mem_of_find?_eq_some h
          exact ⟨[], hname, fun earlier hlt => absurd hlt (List.not_lt_nil _)⟩
      | false =>
          rw [names_branch hleaf, List.find?_flatMap] at h
          obtain ⟨front, part, back, hparts, hfound, hfront⟩ := List.findSome?_eq_some_iff.mp h
          have hpart : t.parts[front.length]? = some part := by simp [hparts]
          obtain ⟨path, hpath, hfirst⟩ := ih part (List.mem_of_getElem? hpart) hfound
          refine ⟨front.length :: path, nameAt?_cons.mpr ⟨part, hpart, hpath⟩, ?_⟩
          intro earlier hlt other hother
          -- What comes sooner is in a part before this one, or in this one and sooner there.
          cases earlier with
          | nil => cases (name?_branch hleaf).symm.trans hother
          | cons place earlier =>
              obtain ⟨sooner, hsooner, hname⟩ := nameAt?_cons.mp hother
              rcases List.cons_lt_cons_iff.mp hlt with hplace | ⟨rfl, hrest⟩
              · have hmem : sooner ∈ front := by
                  rw [hparts, List.getElem?_append_left hplace] at hsooner
                  exact List.mem_of_getElem? hsooner
                have hnone := List.find?_eq_none.mp (hfront sooner hmem) other
                  (mem_names_of_nameAt? hname)
                simpa using hnone
              · cases hpart.symm.trans hsooner
                exact hfirst earlier hrest other hname

/-! ## What a substitution leaves -/

theorem mem_names_filled (params : Document) {leaf : Value} (h : leaf.isKey = true) (name : String) :
    name ∈ names (filled params leaf) ↔ name ∈ names leaf ∧ name ∉ keys params ∨
      ∃ other ∈ names leaf, ∃ param, get? params other = some param ∧ name ∈ names param := by
  rw [filled, names_leaf h]
  cases hname : name? leaf with
  | none => simp [names_leaf h, hname]
  | some other =>
      cases hparam : get? params other with
      | none =>
          have hother : other ∉ keys params := (Entries.get?_eq_none_iff params other).mp hparam
          simp only [Option.bind_some, hparam, Option.getD_none, names_leaf h, hname, Option.toList_some,
            List.mem_singleton]
          constructor
          · rintro rfl
            exact .inl ⟨rfl, hother⟩
          · rintro (⟨rfl, -⟩ | ⟨_, rfl, param, hsome, -⟩)
            · rfl
            · cases hparam.symm.trans hsome
      | some param =>
          have hother : other ∈ keys params := Entries.mem_keys_of_mem (Entries.mem_of_get? hparam)
          simp only [Option.bind_some, hparam, Option.getD_some, Option.toList_some, List.mem_singleton]
          constructor
          · exact fun hmem => .inr ⟨other, rfl, param, hparam, hmem⟩
          · rintro (⟨rfl, hnot⟩ | ⟨_, rfl, _, hsome, hmem⟩)
            · exact absurd hother hnot
            · cases hparam.symm.trans hsome
              exact hmem

theorem mem_names_graft (params : Document) (t : Value) (name : String) :
    name ∈ names (t.graft (filled params)) ↔ name ∈ names t ∧ name ∉ keys params ∨
      ∃ other ∈ names t, ∃ param, get? params other = some param ∧ name ∈ names param := by
  induction t using Value.parts_induction with
  | step t ih =>
      cases hleaf : t.isKey with
      | true =>
          rw [Value.graft_leaf _ hleaf]
          exact mem_names_filled params hleaf name
      | false =>
          rw [names_branch (Value.isKey_graft _ hleaf), Value.parts_graft _ hleaf, names_branch hleaf]
          simp only [List.flatMap_map, List.mem_flatMap]
          constructor
          · rintro ⟨part, hpart, hmem⟩
            rcases (ih part hpart).mp hmem with ⟨hname, hnot⟩ | ⟨other, hother, hparam⟩
            · exact .inl ⟨⟨part, hpart, hname⟩, hnot⟩
            · exact .inr ⟨other, ⟨part, hpart, hother⟩, hparam⟩
          · rintro (⟨⟨part, hpart, hname⟩, hnot⟩ | ⟨other, ⟨part, hpart, hother⟩, hparam⟩)
            · exact ⟨part, hpart, (ih part hpart).mpr (.inl ⟨hname, hnot⟩)⟩
            · exact ⟨part, hpart, (ih part hpart).mpr (.inr ⟨other, hother, hparam⟩)⟩

/-! ## Strict substitutions -/

theorem strict_cases (params : Document) (t : Value) :
    (∃ path name, nameAt? t path = some name ∧ name ∉ keys params ∧
      (∀ earlier < path, ∀ other, nameAt? t earlier = some other → other ∈ keys params) ∧
      substitute false params t = .error (.invalid (.unresolvedPlaceholder name))) ∨
    (∀ name ∈ names t, name ∈ keys params) ∧
      substitute false params t = .ok (t.graft (filled params)) := by
  have hkeys : ∀ name, (!Entries.has params name) = false ↔ name ∈ keys params := by
    intro name
    rw [← Entries.has_iff_mem_keys, Bool.not_eq_false']
  rw [substitute_eq, requireNamed]
  cases hfind : (names t).find? fun name => !Entries.has params name with
  | none =>
      refine .inr ⟨fun name hmem => (hkeys name).mp ?_, rfl⟩
      simpa using List.find?_eq_none.mp hfind name hmem
  | some name =>
      have hnot : name ∉ keys params := by
        rw [← hkeys, List.find?_some hfind]
        exact Bool.noConfusion
      obtain ⟨path, hpath, hfirst⟩ := nameAt?_of_find? hfind
      refine .inl ⟨path, name, hpath, hnot, fun earlier hlt other hother => ?_, rfl⟩
      exact (hkeys other).mp (hfirst earlier hlt other hother)

/-- Finding placeholders and substituting for them agree. A strict substitution is refused if one of
the names has no parameter, and then for the first such placeholder in the order of the document; if it
is not refused, it comes to the same as a lenient one. And a lenient one leaves the names without a
parameter, and those that its parameters bring along. -/
theorem strict_iff_named (params : Document) (t : Value) :
    ((∃ fault, substitute false params t = .error fault) ↔ ∃ name ∈ names t, name ∉ keys params) ∧
    (∀ fault, substitute false params t = .error fault →
      ∃ path name, fault = .invalid (.unresolvedPlaceholder name) ∧
        nameAt? t path = some name ∧ name ∉ keys params ∧
        ∀ earlier < path, ∀ other, nameAt? t earlier = some other → other ∈ keys params) ∧
    (∀ v, substitute false params t = .ok v → substitute true params t = .ok v) ∧
    ∃ v, substitute true params t = .ok v ∧ ∀ name, name ∈ names v ↔
      name ∈ names t ∧ name ∉ keys params ∨
        ∃ other ∈ names t, ∃ param, get? params other = some param ∧ name ∈ names param := by
  have hlenient := substitute_lenient params t
  refine ⟨?_, ?_, ?_, t.graft (filled params), hlenient, mem_names_graft params t⟩
  · rcases strict_cases params t with ⟨path, name, hpath, hnot, -, hfault⟩ | ⟨hall, hv⟩
    · exact ⟨fun _ => ⟨name, mem_names_of_nameAt? hpath, hnot⟩, fun _ => ⟨_, hfault⟩⟩
    · constructor
      · rintro ⟨fault, hfault⟩
        cases hv.symm.trans hfault
      · rintro ⟨name, hmem, hnot⟩
        exact absurd (hall name hmem) hnot
  · intro fault h
    rcases strict_cases params t with ⟨path, name, hpath, hnot, hfirst, hfault⟩ | ⟨-, hv⟩
    · cases hfault.symm.trans h
      exact ⟨path, name, rfl, hpath, hnot, hfirst⟩
    · cases hv.symm.trans h
  · intro v h
    rcases strict_cases params t with ⟨path, name, -, -, -, hfault⟩ | ⟨-, hv⟩
    · cases hfault.symm.trans h
    · rw [hlenient, ← hv, h]

end QueryPipeline.Template
