import ApiContract.Members

namespace ApiContract.Members

variable {α β : Type}

theorem find?_cons (p : String × α) (rest : Members α) (name : String) :
    find? (p :: rest) name = if p.1 = name then some p.2 else find? rest name := by
  obtain ⟨k, v⟩ := p
  rfl

theorem find?_insert (m : Members α) (name other : String) (value : α) :
    (m.insert name value).find? other = if name = other then some value else m.find? other := by
  by_cases h : name = other
  · subst h
    simp [find?_insert_self]
  · simp [find?_insert_of_ne _ _ h, h]

theorem find?_append (m n : Members α) (name : String) :
    find? (m ++ n) name = (m.find? name).or (n.find? name) := by
  induction m with
  | nil => simp
  | cons p rest ih =>
    rw [List.cons_append, find?_cons, find?_cons, ih]
    split <;> rfl

theorem mem_names_iff {m : Members α} {name : String} :
    name ∈ m.names ↔ (m.find? name).isSome := by
  by_cases h : m.find? name = none
  · simp [h, find?_eq_none_iff.mp h]
  · have hm : name ∈ m.names := Decidable.not_not.mp fun hn => h (find?_eq_none_iff.mpr hn)
    simp [hm, Option.isSome_iff_ne_none.mpr h]

theorem find?_of_mem {m : Members α} (h : m.names.Nodup) {p : String × α} (hp : p ∈ m) :
    m.find? p.1 = some p.2 := by
  induction m with
  | nil => cases hp
  | cons q rest ih =>
    obtain ⟨hq, hrest⟩ := List.nodup_cons.mp h
    rw [find?_cons]
    rcases List.mem_cons.mp hp with rfl | hp
    · rw [if_pos rfl]
    · have hne : q.1 ≠ p.1 := fun he => hq (he ▸ List.mem_map_of_mem hp)
      rw [if_neg hne, ih hrest hp]

/-- If all that is kept has one name, it is a single member. -/
theorem filter_eq_singleton {m : Members α} (h : m.names.Nodup) {p : String × α} (hp : p ∈ m)
    {f : String × α → Bool} (hf : f p) (hname : ∀ q ∈ m, f q → q.1 = p.1) :
    m.filter f = [p] := by
  induction m with
  | nil => cases hp
  | cons q rest ih =>
    obtain ⟨hq, hrest⟩ := List.nodup_cons.mp h
    obtain ⟨hfirst, hnames⟩ := List.forall_mem_cons.mp hname
    rcases List.mem_cons.mp hp with rfl | hp
    · have hnone : rest.filter f = [] := by
        apply List.filter_eq_nil_iff.mpr
        intro r hr hkept
        exact hq (hnames r hr hkept ▸ List.mem_map_of_mem hr)
      rw [List.filter_cons_of_pos hf, hnone]
    · have hdropped : ¬ f q := fun hkept => hq (hfirst hkept ▸ List.mem_map_of_mem hp)
      rw [List.filter_cons_of_neg hdropped, ih hrest hp hnames]

theorem find?_map (f : α → β) (m : Members α) (name : String) :
    find? (m.map fun p => (p.1, f p.2)) name = (m.find? name).map f := by
  induction m with
  | nil => rfl
  | cons p rest ih =>
    rw [List.map_cons, find?_cons, find?_cons, ih]
    split <;> rfl

/-- Of several members with one name the first stays the first. -/
theorem find?_insertSorted (p : String × α) (m : Members α) (name : String) :
    (insertSorted p m).find? name = find? (p :: m) name := by
  induction m with
  | nil => rfl
  | cons q rest ih =>
    unfold insertSorted
    split
    · rfl
    · rename_i hle
      rw [find?_cons, ih, find?_cons, find?_cons, find?_cons]
      by_cases hp : p.1 = name
      · have hq : q.1 ≠ name := fun hq => hle (hp.trans hq.symm ▸ String.le_refl _)
        simp [hp, hq]
      · simp [hp]

theorem find?_sorted (m : Members α) (name : String) :
    m.sorted.find? name = m.find? name := by
  induction m with
  | nil => rfl
  | cons p rest ih => rw [sorted, find?_insertSorted, find?_cons, find?_cons, ih]

/-- A name that is found stands at one place, and a new value for it goes to that place. -/
theorem split_of_find? {m : Members α} {name : String} {value : α}
    (h : m.find? name = some value) :
    ∃ before after, m = before ++ (name, value) :: after ∧
      ∀ new, m.insert name new = before ++ (name, new) :: after := by
  induction m with
  | nil => cases h
  | cons p rest ih =>
    obtain ⟨k, v⟩ := p
    by_cases hk : k = name
    · subst hk
      obtain rfl : v = value := by simpa [find?] using h
      exact ⟨[], rest, rfl, fun new => by simp [insert]⟩
    · obtain ⟨before, after, hm, hi⟩ := ih (by simpa [find?, hk] using h)
      exact ⟨(k, v) :: before, after, by simp [hm], fun new => by simp [insert, hk, hi new]⟩

theorem insert_of_find?_none {m : Members α} {name : String} (h : m.find? name = none)
    (value : α) : m.insert name value = m ++ [(name, value)] := by
  induction m with
  | nil => rfl
  | cons p rest ih =>
    obtain ⟨k, v⟩ := p
    by_cases hk : k = name
    · simp [find?, hk] at h
    · simp [insert, hk, ih (by simpa [find?, hk] using h)]

/-- The old value under its name makes the map what it was. -/
theorem insert_insert_of_find? {m : Members α} {name : String} {old : α}
    (h : m.find? name = some old) (value : α) : (m.insert name value).insert name old = m := by
  induction m with
  | nil => cases h
  | cons p rest ih =>
    obtain ⟨k, v⟩ := p
    by_cases hk : k = name
    · obtain rfl : v = old := by simpa [find?, hk] using h
      simp [insert, hk]
    · simp [insert, hk, ih (by simpa [find?, hk] using h)]

theorem names_insert_of_find? {m : Members α} {name : String} {old : α}
    (h : m.find? name = some old) (value : α) : (m.insert name value).names = m.names := by
  rw [names_insert, if_pos (mem_names_iff.mpr (by simp [h]))]

theorem mem_of_mem_insert {m : Members α} {name : String} {value : α} {p : String × α}
    (h : p ∈ m.insert name value) : p ∈ m ∨ p = (name, value) := by
  induction m with
  | nil => exact Or.inr (by simpa [insert] using h)
  | cons q rest ih =>
    unfold insert at h
    split at h
    · rename_i hk
      rcases List.mem_cons.mp h with rfl | h
      · exact Or.inr (by simp [hk])
      · exact Or.inl (List.mem_cons_of_mem _ h)
    · rcases List.mem_cons.mp h with rfl | h
      · exact Or.inl List.mem_cons_self
      · exact (ih h).imp (List.mem_cons_of_mem _) id

theorem sizeOf_lt_of_find? [SizeOf α] {m : Members α} {name : String} {value : α}
    (h : m.find? name = some value) : sizeOf value < sizeOf m := by
  have hm := List.sizeOf_lt_of_mem (mem_of_find? h)
  simp only [Prod.mk.sizeOf_spec] at hm
  omega

theorem pairwise_insertSorted {p : String × α} {m : Members α}
    (h : m.Pairwise fun q r => q.1 ≤ r.1) :
    (insertSorted p m).Pairwise fun q r => q.1 ≤ r.1 := by
  induction m with
  | nil => exact List.pairwise_singleton _ p
  | cons q rest ih =>
    obtain ⟨hq, hrest⟩ := List.pairwise_cons.mp h
    unfold insertSorted
    split
    · rename_i hp
      refine List.pairwise_cons.mpr ⟨?_, h⟩
      intro r hr
      rcases List.mem_cons.mp hr with rfl | hr
      · exact hp
      · exact String.le_trans hp (hq r hr)
    · rename_i hp
      refine List.pairwise_cons.mpr ⟨?_, ih hrest⟩
      intro r hr
      rcases List.mem_cons.mp ((insertSorted_perm p rest).mem_iff.mp hr) with rfl | hr
      · exact (String.le_total q.1 r.1).resolve_right hp
      · exact hq r hr

theorem pairwise_sorted (m : Members α) : m.sorted.Pairwise fun p q => p.1 ≤ q.1 := by
  induction m with
  | nil => exact .nil
  | cons p rest ih => exact pairwise_insertSorted ih

theorem sorted_of_pairwise {m : Members α} (h : m.Pairwise fun p q => p.1 ≤ q.1) :
    m.sorted = m := by
  induction m with
  | nil => rfl
  | cons p rest ih =>
    obtain ⟨hp, hrest⟩ := List.pairwise_cons.mp h
    rw [sorted, ih hrest]
    cases rest with
    | nil => rfl
    | cons q rest => exact if_pos (hp q List.mem_cons_self)

theorem sorted_sorted (m : Members α) : m.sorted.sorted = m.sorted :=
  sorted_of_pairwise (pairwise_sorted m)

theorem sorted_map (f : α → β) (m : Members α) :
    m.sorted.map (fun p => (p.1, f p.2)) = sorted (m.map fun p => (p.1, f p.2)) := by
  have hinsert : ∀ (p : String × α) (m : Members α),
      (insertSorted p m).map (fun p => (p.1, f p.2)) =
        insertSorted (p.1, f p.2) (m.map fun p => (p.1, f p.2)) := by
    intro p m
    induction m with
    | nil => rfl
    | cons q rest ih =>
      rw [insertSorted, List.map_cons, insertSorted]
      split <;> simp [ih]
  induction m with
  | nil => rfl
  | cons p rest ih => rw [sorted, hinsert, ih, List.map_cons, sorted]

theorem eq_of_name_eq {m : Members α} (h : m.names.Nodup) {p q : String × α} (hp : p ∈ m)
    (hq : q ∈ m) (he : p.1 = q.1) : p = q := by
  have hfind := find?_of_mem h hp
  rw [he, find?_of_mem h hq] at hfind
  exact Prod.ext he (Option.some.inj hfind).symm

theorem find?_eq_of_perm {m n : Members α} (h : m.Perm n) (hn : n.names.Nodup) (name : String) :
    m.find? name = n.find? name := by
  have hm : m.names.Nodup := (h.map Prod.fst).nodup_iff.mpr hn
  cases hf : m.find? name with
  | some value => exact (find?_of_mem hn (h.mem_iff.mp (mem_of_find? hf))).symm
  | none =>
    have hnot := find?_eq_none_iff.mp hf
    have hnone : name ∉ n.names := fun hmem => hnot ((h.map Prod.fst).mem_iff.mpr hmem)
    exact (find?_eq_none_iff.mpr hnone).symm

/-- The order of the members does not change the sorted map. -/
theorem sorted_eq_of_perm {m n : Members α} (h : m.Perm n) (hn : n.names.Nodup) :
    m.sorted = n.sorted := by
  have hsorted : m.sorted.Perm n.sorted :=
    (sorted_perm m).trans (h.trans (sorted_perm n).symm)
  refine List.Perm.eq_of_pairwise ?_ (pairwise_sorted m) (pairwise_sorted n) hsorted
  intro p q hp hq hpq hqp
  have hp := h.mem_iff.mp ((sorted_perm m).mem_iff.mp hp)
  have hq := (sorted_perm n).mem_iff.mp hq
  exact eq_of_name_eq hn hp hq (String.le_antisymm hpq hqp)

end ApiContract.Members
