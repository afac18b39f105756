import ApiContract.Proofs.Json.Alike
import ApiContract.Proofs.Schema.Everywhere

namespace ApiContract

open Extraction

namespace Schema

/-- The items are given in the same form. Schemas for single positions are the same but for the
order of members; a single schema for all items is not looked at. -/
def ItemsAgree : Option (Items Schema) → Option (Items Schema) → Prop
  | none, none => True
  | some (.single _), some (.single _) => True
  | some (.tuple ss), some (.tuple ts) => ss.map canonicalText = ts.map canonicalText
  | _, _ => False

/-- Two schemas are the same in their own fields, whatever stands below them. Of what nothing
interprets only the order of members may differ. -/
structure Agrees (s t : Schema) : Prop where
  reference : s.reference = t.reference
  types : s.types = t.types
  format : s.format = t.format
  description : s.description = t.description
  nullable : s.nullable = t.nullable
  required : s.required = t.required
  extra : ∀ name,
    (Members.find? s.extra name).map Json.sortedText =
      (Members.find? t.extra name).map Json.sortedText
  properties : ∀ name, name ∈ Members.names s.properties ↔ name ∈ Members.names t.properties
  items : ItemsAgree s.items t.items

variable {s t u new : Schema} {route : Route} {name : String}

theorem itemsAgree_refl (items : Option (Items Schema)) : ItemsAgree items items := by
  match items with
  | none | some (.single _) => trivial
  | some (.tuple _) => rfl

theorem ItemsAgree.trans {a b c : Option (Items Schema)} (h : ItemsAgree a b)
    (h' : ItemsAgree b c) : ItemsAgree a c := by
  match a, b, c, h, h' with
  | none, none, none, _, _ => trivial
  | some (.single _), some (.single _), some (.single _), _, _ => trivial
  | some (.tuple _), some (.tuple _), some (.tuple _), h, h' => exact Eq.trans h h'

theorem Agrees.refl (s : Schema) : s.Agrees s :=
  ⟨rfl, rfl, rfl, rfl, rfl, rfl, fun _ => rfl, fun _ => Iff.rfl, itemsAgree_refl _⟩

theorem Agrees.trans (h : s.Agrees t) (h' : t.Agrees u) : s.Agrees u where
  reference := h.reference.trans h'.reference
  types := h.types.trans h'.types
  format := h.format.trans h'.format
  description := h.description.trans h'.description
  nullable := h.nullable.trans h'.nullable
  required := h.required.trans h'.required
  extra name := (h.extra name).trans (h'.extra name)
  properties name := (h.properties name).trans (h'.properties name)
  items := h.items.trans h'.items

theorem Agrees.referenceName (h : s.Agrees t) : s.referenceName = t.referenceName :=
  congrArg ApiContract.referenceName h.reference

theorem properties_eq_nil_iff : s.properties = [] ↔ ∀ name, name ∉ Members.names s.properties := by
  simp [Members.names, List.eq_nil_iff_forall_not_mem]

theorem Agrees.kind (h : s.Agrees t) : s.kind = t.kind := by
  have hp : s.properties.isEmpty = t.properties.isEmpty := by
    rw [Bool.eq_iff_iff, List.isEmpty_iff, List.isEmpty_iff, properties_eq_nil_iff,
      properties_eq_nil_iff]
    exact forall_congr' fun name => not_congr (h.properties name)
  rw [Schema.kind, Schema.kind, h.reference, h.types, hp]

theorem Agrees.singleItems_isSome (h : s.Agrees t) :
    s.singleItems.isSome = t.singleItems.isSome := by
  have hi := h.items
  unfold singleItems
  match s.items, t.items, hi with
  | none, none, _ => rfl
  | some (.single _), some (.single _), _ => rfl
  | some (.tuple _), some (.tuple _), _ => rfl

/-- Schemas that agree go on one move down in the same ways. -/
theorem Agrees.at?_isSome (h : s.Agrees t) (move : Move) :
    (s.at? [move]).isSome = (t.at? [move]).isSome := by
  cases move with
  | items => rw [at?_items, at?_items, h.singleItems_isSome]
  | property name =>
    rw [at?_property, at?_property, Bool.eq_iff_iff, ← Members.mem_names_iff,
      ← Members.mem_names_iff]
    exact h.properties name

/-- A schema that is put below another one leaves that one's own fields as they are. -/
theorem agrees_put (h : s.at? route = some t) (hr : route ≠ []) : s.Agrees (s.put route new) := by
  cases route with
  | nil => exact absurd rfl hr
  | cons move route =>
    cases move with
    | items =>
      obtain ⟨item, hi, -⟩ := Option.bind_eq_some_iff.mp h
      rw [put_items hi]
      refine ⟨rfl, rfl, rfl, rfl, rfl, rfl, fun _ => rfl, fun _ => Iff.rfl, ?_⟩
      rw [items_of_singleItems hi]
      trivial
    | property name =>
      obtain ⟨child, hc, -⟩ := Option.bind_eq_some_iff.mp h
      rw [put_property hc]
      refine ⟨rfl, rfl, rfl, rfl, rfl, rfl, fun _ => rfl, fun other => ?_, itemsAgree_refl _⟩
      rw [Members.names_insert_of_find? hc]

end Schema

/-- A relation between schemas that agree, and between what stands below them. -/
structure Descending (R : Schema → Schema → Prop) : Prop where
  agrees : ∀ {s t : Schema}, R s t → s.Agrees t
  items : ∀ {s t a b : Schema}, R s t → s.singleItems = some a → t.singleItems = some b → R a b
  property : ∀ {s t a b : Schema} {name : String}, R s t →
    Members.find? s.properties name = some a → Members.find? t.properties name = some b → R a b

theorem descending_eq : Descending Eq where
  agrees h := h ▸ Schema.Agrees.refl _
  items h ha hb := Option.some.inj (ha.symm.trans (h ▸ hb))
  property h ha hb := Option.some.inj (ha.symm.trans (h ▸ hb))

namespace Descending

variable {R : Schema → Schema → Prop} {s t a b : Schema} {name : String} {route : Route}

theorem move (hR : Descending R) (h : R s t) {move : Move} (ha : s.at? [move] = some a) :
    ∃ b, t.at? [move] = some b ∧ R a b := by
  have hs := (hR.agrees h).at?_isSome move
  rw [ha, Option.isSome_some, eq_comm, Option.isSome_iff_exists] at hs
  obtain ⟨b, hb⟩ := hs
  refine ⟨b, hb, ?_⟩
  cases move with
  | items =>
    rw [Schema.at?_items] at ha hb
    exact hR.items h ha hb
  | property name =>
    rw [Schema.at?_property] at ha hb
    exact hR.property h ha hb

theorem along (hR : Descending R) (h : R s t) (ha : s.at? route = some a) :
    ∃ b, t.at? route = some b ∧ R a b := by
  induction route generalizing s t with
  | nil =>
    cases ha
    exact ⟨t, rfl, h⟩
  | cons move route ih =>
    rw [Schema.at?_cons] at ha
    obtain ⟨child, hc, ha⟩ := Option.bind_eq_some_iff.mp ha
    obtain ⟨child', hc', hr⟩ := hR.move h hc
    obtain ⟨b, hb, hab⟩ := ih hr ha
    exact ⟨b, by rw [Schema.at?_cons, hc', Option.bind_some, hb], hab⟩

end Descending

end ApiContract
