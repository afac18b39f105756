namespace ApiContract

/-- An ordered map: pairs of a name and a value, in the order in which the names first came. -/
abbrev Members (α : Type) := List (String × α)

namespace Members

variable {α β : Type}

def find? : Members α → String → Option α
  | [], _ => none
  | (k, v) :: rest, name => if k = name then some v else find? rest name

def names (m : Members α) : List String := m.map Prod.fst

def values (m : Members α) : List α := m.map Prod.snd

/-- A name that is present keeps its place and gets the new value; a new one goes to the end. -/
def insert : Members α → String → α → Members α
  | [], name, value => [(name, value)]
  | (k, v) :: rest, name, value =>
    if k = name then (k, value) :: rest else (k, v) :: insert rest name value

/-- Puts a pair before the first name that is not smaller. -/
def insertSorted (p : String × α) : Members α → Members α
  | [] => [p]
  | q :: rest => if p.1 ≤ q.1 then p :: q :: rest else q :: insertSorted p rest

/-- The members by code points of their names. -/
def sorted : Members α → Members α
  | [] => []
  | p :: rest => insertSorted p (sorted rest)

@[simp] theorem find?_nil (name : String) : find? ([] : Members α) name = none := rfl

theorem find?_insert_self (m : Members α) (name : String) (value : α) :
    (m.insert name value).find? name = some value := by
  induction m with
  | nil => simp [insert, find?]
  | cons p rest ih =>
    obtain ⟨k, v⟩ := p
    by_cases h : k = name <;> simp [insert, find?, h, ih]

theorem find?_insert_of_ne (m : Members α) {name other : String} (value : α) (h : name ≠ other) :
    (m.insert name value).find? other = m.find? other := by
  induction m with
  | nil => simp [insert, find?, h]
  | cons p rest ih =>
    obtain ⟨k, v⟩ := p
    by_cases hk : k = name
    · subst hk; simp [insert, find?, h]
    · simp [insert, find?, hk, ih]

theorem find?_eq_none_iff {m : Members α} {name : String} :
    m.find? name = none ↔ name ∉ m.names := by
  induction m with
  | nil => simp [names]
  | cons p rest ih =>
    obtain ⟨k, v⟩ := p
    by_cases h : k = name
    · simp [find?, names, h]
    · simp only [find?, h, if_false, ih, names, List.map_cons, List.mem_cons]
      simp [Ne.symm h]

theorem mem_of_find? {m : Members α} {name : String} {value : α}
    (h : m.find? name = some value) : (name, value) ∈ m := by
  induction m with
  | nil => simp at h
  | cons p rest ih =>
    obtain ⟨k, v⟩ := p
    by_cases hk : k = name
    · simp_all [find?]
    · simp only [find?, hk, if_false] at h
      exact List.mem_cons_of_mem _ (ih h)

theorem names_insert (m : Members α) (name : String) (value : α) :
    (m.insert name value).names = if name ∈ m.names then m.names else m.names ++ [name] := by
  induction m with
  | nil => simp [insert, names]
  | cons p rest ih =>
    obtain ⟨k, v⟩ := p
    by_cases h : k = name
    · simp [insert, names, h]
    · simp only [names] at ih
      simp only [insert, h, if_false, names, List.map_cons, List.mem_cons, ih, Ne.symm h, false_or]
      split <;> simp_all

theorem nodup_names_insert {m : Members α} (h : m.names.Nodup) (name : String) (value : α) :
    (m.insert name value).names.Nodup := by
  rw [names_insert]
  split
  · exact h
  · rename_i hn
    exact List.nodup_append.mpr ⟨h, by simp, by simp; grind⟩

theorem insertSorted_perm (p : String × α) (m : Members α) :
    (insertSorted p m).Perm (p :: m) := by
  induction m with
  | nil => exact .refl _
  | cons q rest ih =>
    unfold insertSorted
    split
    · exact .refl _
    · exact (ih.cons q).trans (.swap p q rest)

theorem sorted_perm (m : Members α) : (sorted m).Perm m := by
  induction m with
  | nil => exact .refl _
  | cons p rest ih => exact (insertSorted_perm p _).trans (ih.cons p)

end Members

end ApiContract
