import ApiContract.GoClient.Types
import ApiContract.Proofs.Extraction.Descent

namespace ApiContract

namespace Schema

theorem sizeOf_lt_of_mem {s : Schema} {p : String × Schema} (h : p ∈ s.properties) :
    sizeOf p.2 < sizeOf s := by
  obtain ⟨_, _, _, _, _, properties, _, _, _⟩ := s
  obtain ⟨name, child⟩ := p
  have hlt := List.sizeOf_lt_of_mem h
  simp at hlt ⊢
  omega

end Schema

namespace GoClient

open Emit Naming

/-- What a schema is used for: a named type, the type of a field or the type of an element. -/
inductive Position where
  | named
  | field
  | element
deriving DecidableEq

/-- The generator finds the definition that is named. -/
def Known (d : Document) (name : String) : Prop := ∃ found, d.definition name = .ok found

/-- There is a type for a schema in a position, when it is known which references there are types
for. What stands beside a reference or under the properties of a schema that is no object is not
looked at. -/
inductive Fits (known : String → Prop) : Position → Schema → Prop
  | reference {position : Position} {s : Schema} {name : String} :
      s.kind = .reference name → known name → Fits known position s
  | primitive {position : Position} {s : Schema} {p : Primitive} :
      s.kind = .primitive p → Fits known position s
  | object {position : Position} {s : Schema} :
      s.kind = .object → (∀ p ∈ s.properties, Fits known .field p.2) → Fits known position s
  | array {position : Position} {s item : Schema} :
      position ≠ .element → s.kind = .array → s.singleItems = some item →
      Fits known .element item → Fits known position s
  | empty {s : Schema} : s.kind = .unhandled → s.types = none → Fits known .named s

/-- There is a type for the schema of a failure. A reference is not looked up. -/
def FitsFailure (known : String → Prop) (s : Schema) : Prop :=
  (∃ name, s.kind = .reference name) ∨
    s.kind = .object ∧ ∀ p ∈ s.properties, Fits known .field p.2

variable {d : Document} {known known' : String → Prop} {s item : Schema} {position : Position}
  {name reference : String}

/-- What has a type anywhere has one as a definition. -/
theorem Fits.named (h : Fits known position s) : Fits known .named s := by
  cases h with
  | reference hk hn => exact .reference hk hn
  | primitive hk => exact .primitive hk
  | object hk hp => exact .object hk hp
  | array _ hk hi h => exact .array nofun hk hi h
  | empty hk ht => exact .empty hk ht

theorem Fits.mono (h : Fits known position s) (hk : ∀ name, known name → known' name) :
    Fits known' position s := by
  induction h with
  | reference hkind hn => exact .reference hkind (hk _ hn)
  | primitive hkind => exact .primitive hkind
  | object hkind _ ih => exact .object hkind ih
  | array hp hkind hi _ ih => exact .array hp hkind hi ih
  | empty hkind ht => exact .empty hkind ht

theorem known_iff :
    Known d name ↔ (d.definitions.find? (withoutStart definitionsRoot name)).isSome := by
  unfold Known Document.definition
  cases hf : d.definitions.find? (withoutStart definitionsRoot name) <;> simp [hf]

/-- A name is taken as it is if it does not look like the path of a reference. -/
theorem withoutStart_of_not_prefix (h : ¬ definitionsRoot.toList <+: name.toList) :
    withoutStart definitionsRoot name = name := by
  unfold withoutStart
  cases hd : Text.dropStart? definitionsRoot.toList name.toList with
  | none => rfl
  | some rest => exact absurd ⟨rest, (Text.eq_append_of_dropStart? hd).symm⟩ h

theorem fits_reference_iff (hk : s.kind = .reference reference) :
    Fits known position s ↔ known reference := by
  constructor
  · intro h
    cases h <;> simp_all
  · exact .reference hk

theorem fits_object_iff (hk : s.kind = .object) :
    Fits known position s ↔ ∀ p ∈ s.properties, Fits known .field p.2 := by
  constructor
  · intro h
    cases h with
    | object _ hp => exact hp
    | reference hother | primitive hother | array _ hother | empty hother => simp [hk] at hother
  · exact .object hk

theorem fits_array_iff (hk : s.kind = .array) (hi : s.singleItems = some item) :
    Fits known .field s ↔ Fits known .element item := by
  constructor
  · intro h
    cases h <;> simp_all
  · exact .array nofun hk hi

theorem not_fits_array (hk : s.kind = .array) (hi : s.singleItems = none) :
    ¬ Fits known position s := by
  intro h
  cases h <;> simp_all

theorem Fits.kind_ne_unhandled (h : Fits known position s) (hp : position ≠ .named) :
    s.kind ≠ .unhandled := by
  cases h <;> simp_all

/-- A definition is a value, or a schema that says nothing of its values. -/
theorem fits_named_iff :
    Fits known .named s ↔ Fits known .field s ∨ s.kind = .unhandled ∧ s.types = none := by
  constructor
  · intro h
    cases h with
    | reference hk hr => exact Or.inl (.reference hk hr)
    | primitive hk => exact Or.inl (.primitive hk)
    | object hk hp => exact Or.inl (.object hk hp)
    | array _ hk hi h => exact Or.inl (.array nofun hk hi h)
    | empty hk ht => exact Or.inr ⟨hk, ht⟩
  · rintro (h | ⟨hk, ht⟩)
    · exact h.named
    · exact .empty hk ht

/-- Elements are values that are no arrays. -/
theorem fits_element_iff :
    Fits known .element s ↔ s.kind ≠ .array ∧ Fits known .field s := by
  constructor
  · intro h
    cases h with
    | reference hk hr => exact ⟨by simp [hk], .reference hk hr⟩
    | primitive hk => exact ⟨by simp [hk], .primitive hk⟩
    | object hk hp => exact ⟨by simp [hk], .object hk hp⟩
    | array hp => exact absurd rfl hp
  · rintro ⟨hne, h⟩
    cases h with
    | reference hk hr => exact .reference hk hr
    | primitive hk => exact .primitive hk
    | object hk hp => exact .object hk hp
    | array _ hk => exact absurd hk hne

theorem fieldType_eq (d : Document) (parent property : String) (isRequired : Bool) (s : Schema) :
    fieldType d parent property isRequired s =
      match s.kind with
      | .reference name => do return (← definitionType d name).optional isRequired
      | .primitive p => return (GoType.ofPrimitive p).optional isRequired
      | .object => do
        structWith (nestedTypeName parent property) s.description false
          (fieldsOf d (nestedTypeName parent property) s.required s.properties)
        return (GoType.named (nestedTypeName parent property)).optional isRequired
      | .array => do
        let element ← elementType d (elementTypeName parent property) s.items
        if element.isPrimitive then return element.slice.optional isRequired
        else return element.slice
      | .unhandled => Emit.fail .unhandledType := by
  obtain ⟨_, _, _, _, _, _, _, _, _⟩ := s
  rw [fieldType]
  rfl

theorem elementOf_eq (d : Document) (itemName : String) (s : Schema) :
    elementOf d itemName s =
      match s.kind with
      | .primitive p => return GoType.ofPrimitive p
      | .object => do
        structWith itemName s.description false (fieldsOf d itemName s.required s.properties)
        return .named itemName
      | .reference name => definitionType d name
      | .array => Emit.fail .arrayOfArrays
      | .unhandled => Emit.fail .unhandledType := by
  obtain ⟨_, _, _, _, _, _, _, _, _⟩ := s
  rw [elementOf]
  rfl

end GoClient

end ApiContract
