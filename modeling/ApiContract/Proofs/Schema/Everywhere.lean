import ApiContract.Proofs.Document.Place

namespace ApiContract

open Extraction

namespace Schema

/-- A schema holds itself and what stands anywhere in it, in a list of items too. -/
inductive Holds : Schema → Schema → Prop
  | self (s : Schema) : Holds s s
  | property {s child t : Schema} {name : String} :
      (name, child) ∈ s.properties → Holds child t → Holds s t
  | items {s item t : Schema} : s.items = some (.single item) → Holds item t → Holds s t
  | tuple {s item t : Schema} {items : List Schema} :
      s.items = some (.tuple items) → item ∈ items → Holds item t → Holds s t

/-- Something is true of a schema and of all that it holds. -/
def Every (P : Schema → Prop) (s : Schema) : Prop := ∀ t, s.Holds t → P t

variable {P : Schema → Prop} {s item child new t : Schema} {name : String}

theorem Every.self (h : s.Every P) : P s := h s (.self s)

theorem items_of_singleItems (h : s.singleItems = some item) : s.items = some (.single item) := by
  unfold singleItems at h
  split at h
  · rename_i hi
    cases h
    exact hi
  · cases h

theorem Every.ofItems (h : s.Every P) (hi : s.singleItems = some item) : item.Every P :=
  fun t ht => h t (.items (items_of_singleItems hi) ht)

theorem Every.ofProperty (h : s.Every P) (hc : Members.find? s.properties name = some child) :
    child.Every P :=
  fun t ht => h t (.property (Members.mem_of_find? hc) ht)

/-- What stands at the end of a route is held. -/
theorem Every.at? {route : Route} (h : s.Every P) (ht : s.at? route = some t) : t.Every P := by
  induction route generalizing s with
  | nil =>
    cases ht
    exact h
  | cons move route ih =>
    cases move with
    | items =>
      obtain ⟨item, hi, ht⟩ := Option.bind_eq_some_iff.mp ht
      exact ih (h.ofItems hi) ht
    | property name =>
      obtain ⟨child, hc, ht⟩ := Option.bind_eq_some_iff.mp ht
      exact ih (h.ofProperty hc) ht

/-- The items hold only what something is true of. -/
def EveryItem (P : Schema → Prop) : Option (Items Schema) → Prop
  | none => True
  | some (.single item) => item.Every P
  | some (.tuple items) => ∀ item ∈ items, item.Every P

theorem every_iff : s.Every P ↔
    P s ∧ (∀ p ∈ s.properties, p.2.Every P) ∧ EveryItem P s.items := by
  constructor
  · intro h
    refine ⟨h.self, fun p hp t ht => h t (.property hp ht), ?_⟩
    match hi : s.items with
    | none => trivial
    | some (.single item) => exact fun t ht => h t (.items hi ht)
    | some (.tuple items) => exact fun item hm t ht => h t (.tuple hi hm ht)
  · rintro ⟨hs, hp, hi⟩ t ht
    cases ht with
    | self => exact hs
    | property hm ht => exact hp _ hm t ht
    | items he ht =>
      rw [he] at hi
      exact hi t ht
    | tuple he hm ht =>
      rw [he] at hi
      exact hi _ hm t ht

theorem Every.mono {Q : Schema → Prop} (h : s.Every P) (hpq : ∀ t, P t → Q t) : s.Every Q :=
  fun t ht => hpq t (h t ht)

end Schema

/-- A property of schemas that does not hang on which schemas stand directly below. -/
structure Shallow (P : Schema → Prop) : Prop where
  properties : ∀ (s : Schema) (name : String) (child : Schema), P s → s.properties ≠ [] →
    P { s with properties := Members.insert s.properties name child }
  items : ∀ (s item : Schema), P s → P { s with items := some (.single item) }

namespace Schema

variable {P : Schema → Prop} {s item child new : Schema} {name : String}

theorem Every.setItems (hP : Shallow P) (hs : s.Every P) (hi : item.Every P) :
    Every P { s with items := some (.single item) } := by
  intro t ht
  cases ht with
  | self => exact hP.items s item hs.self
  | property hm ht => exact hs t (.property hm ht)
  | items he ht =>
    cases he
    exact hi t ht
  | tuple he => cases he

theorem Every.setProperty (hP : Shallow P) (hs : s.Every P) (hn : s.properties ≠ [])
    (hc : child.Every P) :
    Every P { s with properties := Members.insert s.properties name child } := by
  intro t ht
  cases ht with
  | self => exact hP.properties s name child hs.self hn
  | property hm ht =>
    rcases Members.mem_of_mem_insert hm with hm | he
    · exact hs t (.property hm ht)
    · cases he
      exact hc t ht
  | items he ht => exact hs t (.items he ht)
  | tuple he hm ht => exact hs t (.tuple he hm ht)

theorem properties_ne_nil_of_find? (h : Members.find? s.properties name = some child) :
    s.properties ≠ [] := by
  rintro he
  simp [he] at h

theorem Every.put (hP : Shallow P) {route : Route} (hs : s.Every P) (hn : new.Every P) :
    (s.put route new).Every P := by
  induction route generalizing s with
  | nil => exact hn
  | cons move route ih =>
    cases move with
    | items =>
      cases hi : s.singleItems with
      | none => simpa [Schema.put, hi] using hs
      | some item =>
        rw [put_items hi]
        exact hs.setItems hP (ih (hs.ofItems hi))
    | property name =>
      cases hc : Members.find? s.properties name with
      | none => simpa [Schema.put, hc] using hs
      | some child =>
        rw [put_property hc]
        exact hs.setProperty hP (properties_ne_nil_of_find? hc) (ih (hs.ofProperty hc))

end Schema

namespace Document

/-- Something is true of all schemas of the responses and definitions. -/
def Every (P : Schema → Prop) (d : Document) : Prop :=
  ∀ root s, d.rootSchema? root = some s → s.Every P

variable {P : Schema → Prop} {d : Document} {p : Place} {s new : Schema}

theorem every_of_forall
    (hp : ∀ p ∈ d.paths, ∀ method op, p.2.operation method = some op →
      ∀ r ∈ op.responses, ∀ s, r.2.schema = some s → s.Every P)
    (hd : ∀ p ∈ d.definitions, p.2.Every P) : d.Every P := by
  intro root s hs
  cases root with
  | response path method key =>
    obtain ⟨item, op, r, hi, ho, hr, hs⟩ := rootSchema?_response.mp hs
    exact hp _ (Members.mem_of_find? hi) method op ho _ (Members.mem_of_find? hr) s hs
  | definition name => exact hd _ (Members.mem_of_find? hs)

theorem Every.at? (h : d.Every P) (hp : d.schemaAt? p = some s) : s.Every P := by
  obtain ⟨root, hr, hs⟩ := Option.bind_eq_some_iff.mp hp
  exact (h _ root hr).at? hs

theorem Every.put (hP : Shallow P) (h : d.Every P) (hp : d.schemaAt? p = some s)
    (hn : new.Every P) : (d.put p new).Every P := by
  intro root t ht
  cases hr : d.rootSchema? root with
  | none => simp [(rootSchema?_put_eq_none hp new).mpr hr] at ht
  | some u =>
    rw [rootSchema?_put hp hr] at ht
    obtain rfl := Option.some.inj ht
    split
    · exact (h root u hr).put hP hn
    · exact h root u hr

/-- The document with a definition more, or with another one of the same name. -/
def define (d : Document) (name : String) (s : Schema) : Document :=
  { d with definitions := Members.insert d.definitions name s }

theorem rootSchema?_define (name : String) (root : Root) :
    (d.define name s).rootSchema? root =
      if root = .definition name then some s else d.rootSchema? root := by
  cases root with
  | response => rfl
  | definition other =>
    change (Members.insert d.definitions name s).find? other = _
    rw [Members.find?_insert]
    simp only [Root.definition.injEq, eq_comm (a := name), rootSchema?]

theorem Every.define (h : d.Every P) (hs : s.Every P) (name : String) :
    (d.define name s).Every P := by
  intro root t ht
  rw [rootSchema?_define] at ht
  split at ht
  · cases ht
    exact hs
  · exact h root t ht

end Document

end ApiContract
