import ApiContract.Proofs.GoClient.Acceptance
import ApiContract.Proofs.GoClient.Room

namespace ApiContract

/-- What holds of a schema if it holds of its properties, of its items and of the properties of
these holds of every schema. -/
@[elab_as_elim]
theorem Schema.induction {P : Schema → Prop}
    (step : ∀ s, (∀ p ∈ s.properties, P p.2) →
      (∀ item, s.singleItems = some item → P item ∧ ∀ p ∈ item.properties, P p.2) → P s)
    (s : Schema) : P s := by
  apply step
  · intro p hp
    exact induction step p.2
  · intro item hi
    refine ⟨induction step item, ?_⟩
    intro p hp
    exact induction step p.2
termination_by sizeOf s
decreasing_by
  · exact sizeOf_lt_of_mem hp
  · exact sizeOf_lt_of_singleItems hi
  · exact Nat.lt_trans (sizeOf_lt_of_mem hp) (sizeOf_lt_of_singleItems hi)

namespace GoClient

open Emit Naming

/-- The Go name of the definition that a reference leads to. -/
def referent (reference : String) : String := camelCase (withoutStart definitionsRoot reference)

/-- The type of a value that is no array. An object has a type of its own. -/
def plainType (name : String) (s : Schema) : GoType :=
  match s.kind with
  | .reference reference => .named (referent reference)
  | .primitive p => .ofPrimitive p
  | _ => .named name

/-- The type of a value. Elements of an array that are objects have a type of their own. -/
def valueType (name : String) (s : Schema) : GoType :=
  match s.kind, s.singleItems with
  | .array, some item => .slice (plainType (name ++ "Item") item)
  | _, _ => plainType name s

/-- The type of a field for a type of values: a slice of declared types can be nil by itself. -/
def fieldTypeOf (isRequired : Bool) : GoType → GoType
  | .slice element =>
    if element.isPrimitive then element.slice.optional isRequired else element.slice
  | type => type.optional isRequired

def fieldOf (parent : String) (required : List String) (p : String × Schema) : Field :=
  let isRequired := required.contains p.1
  ⟨fieldName p.1, fieldTypeOf isRequired (valueType (nestedTypeName parent p.1) p.2), p.1,
    isRequired⟩

def structOf (name : String) (s : Schema) (embedsError : Bool) : StructDeclaration :=
  ⟨name, s.description, embedsError, s.properties.map (fieldOf name s.required)⟩

mutual

/-- The inline objects of a schema, each under the name of its type and after those within it: the
schema itself if it is an object, and those met through the properties of objects and the items of
arrays. What a reference leads to is none of them. -/
def objectsOf (name : String) : Schema → Members Schema
  | s@⟨reference, types, _, _, _, properties, _, items, _⟩ =>
    match kindOf reference types (!properties.isEmpty) with
    | .object => objectsOfProperties name properties ++ [(name, s)]
    | .array => objectsOfItems (name ++ "Item") items
    | _ => []

def objectsOfItems (name : String) : Option (Items Schema) → Members Schema
  | some (.single item) => objectsOf name item
  | _ => []

def objectsOfProperties (parent : String) : List (String × Schema) → Members Schema
  | [] => []
  | (property, s) :: rest =>
    objectsOf (nestedTypeName parent property) s ++ objectsOfProperties parent rest

end

theorem objectsOf_eq (name : String) (s : Schema) :
    objectsOf name s =
      match s.kind with
      | .object => objectsOfProperties name s.properties ++ [(name, s)]
      | .array => objectsOfItems (name ++ "Item") s.items
      | _ => [] := by
  obtain ⟨_, _, _, _, _, _, _, _, _⟩ := s
  rw [objectsOf]
  rfl

theorem objectsOfItems_eq (name : String) (s : Schema) :
    objectsOfItems name s.items =
      match s.singleItems with
      | some item => objectsOf name item
      | none => [] := by
  rw [Schema.singleItems]
  cases s.items with
  | none => rfl
  | some items => cases items <;> rfl

theorem mem_objectsOfProperties {parent : String} {properties : List (String × Schema)}
    {o : String × Schema} :
    o ∈ objectsOfProperties parent properties ↔
      ∃ p ∈ properties, o ∈ objectsOf (nestedTypeName parent p.1) p.2 := by
  induction properties with
  | nil => simp [objectsOfProperties]
  | cons p rest ih =>
    obtain ⟨property, s⟩ := p
    rw [objectsOfProperties, List.mem_append, ih]
    simp

/-- The structs of objects. -/
def structs (objects : Members Schema) : Members Declaration :=
  objects.map fun p => (p.1, .struct (structOf p.1 p.2 false))

@[simp] theorem structs_append (first second : Members Schema) :
    structs (first ++ second) = structs first ++ structs second :=
  List.map_append

variable {d : Document} {s : Schema} {name parent property reference : String}
  {required : List String} {isRequired : Bool} {properties : List (String × Schema)}
  {type : GoType}

theorem name_of_definition {found : String × Schema} (h : d.definition reference = .ok found) :
    found.1 = withoutStart definitionsRoot reference := by
  unfold Document.definition at h
  dsimp only at h
  split at h
  · cases h
    rfl
  · cases h

theorem declares_definitionType (d : Document) (reference : String) :
    Declares (definitionType d reference) (Known d reference) (.named (referent reference)) [] := by
  cases hf : d.definition reference with
  | error fault =>
    have hstep : Declares (ofResolved (d.definition reference)) False
        (withoutStart definitionsRoot reference, default) [] := by
      rw [hf]
      exact declares_fail ..
    apply Declares.congr
    · apply hstep.result
      apply declares_pure
    · simp [Known, hf]
  | ok found =>
    have hstep : Declares (ofResolved (d.definition reference)) True found [] := by
      rw [hf]
      exact declares_pure found
    rw [referent, ← name_of_definition hf]
    apply Declares.congr
    · apply hstep.result
      apply declares_pure
    · simp [Known, hf]

theorem elementType_eq (d : Document) (name : String) (s : Schema) :
    elementType d name s.items =
      match s.singleItems with
      | some item => elementOf d name item
      | none => Emit.fail .malformedArray := by
  rw [Schema.singleItems]
  cases s.items with
  | none => rfl
  | some items => cases items <;> rfl

/-- A struct comes after what its fields need. -/
theorem declares_structWith {m : Emit (List Field)} {possible : Prop} {fields : List Field}
    {inner : Members Declaration} (h : Declares m possible fields inner) (name : String)
    (description : Option String) (embeds : Bool) :
    Declares (structWith name description embeds m) possible ()
      (inner ++ [(name, .struct ⟨name, description, embeds, fields⟩)]) := by
  apply Declares.afterCheck
  exact (h.bind (declares_declare _ _)).congr (iff_of_eq (and_true _))

/-- The step for a field is possible if there is a type for its values. It gives this type and
declares the inline objects of the schema. -/
def FieldDeclared (d : Document) (s : Schema) : Prop :=
  ∀ parent property isRequired, Declares (fieldType d parent property isRequired s)
    (Fits (Known d) .field s)
    (fieldTypeOf isRequired (valueType (nestedTypeName parent property) s))
    (structs (objectsOf (nestedTypeName parent property) s))

theorem declares_fields (parent : String) (required : List String)
    (h : ∀ p ∈ properties, FieldDeclared d p.2) :
    Declares (fieldsOf d parent required properties) (∀ p ∈ properties, Fits (Known d) .field p.2)
      (properties.map (fieldOf parent required))
      (structs (objectsOfProperties parent properties)) := by
  induction properties with
  | nil =>
    rw [fieldsOf, objectsOfProperties]
    exact (declares_pure _).congr (by simp)
  | cons p rest ih =>
    obtain ⟨property, s⟩ := p
    obtain ⟨hs, hrest⟩ := List.forall_mem_cons.mp h
    rw [fieldsOf, objectsOfProperties, structs_append]
    have htype := (hs parent property (required.contains property)).within (.property property)
    rw [List.forall_mem_cons]
    apply htype.bind
    apply (ih hrest).result
    apply declares_pure

/-- The struct of an object comes after those of the objects within it. -/
theorem declares_struct (name : String) (embeds : Bool)
    (h : ∀ p ∈ s.properties, FieldDeclared d p.2) :
    Declares (structWith name s.description embeds (fieldsOf d name s.required s.properties))
      (∀ p ∈ s.properties, Fits (Known d) .field p.2) ()
      (structs (objectsOfProperties name s.properties) ++
        [(name, .struct (structOf name s embeds))]) :=
  declares_structWith (declares_fields name s.required h) name s.description embeds

theorem declares_elementOf (name : String) (h : ∀ p ∈ s.properties, FieldDeclared d p.2) :
    Declares (elementOf d name s) (Fits (Known d) .element s) (plainType name s)
      (structs (objectsOf name s)) := by
  rw [elementOf_eq, objectsOf_eq, plainType]
  cases hk : s.kind with
  | reference reference =>
    rw [fits_reference_iff hk]
    exact declares_definitionType d reference
  | primitive p => exact (declares_pure _).congr (iff_of_true trivial (.primitive hk))
  | object =>
    dsimp only
    rw [fits_object_iff hk, structs_append]
    apply (declares_struct name false h).result
    apply declares_pure
  | array =>
    exact (declares_fail ..).congr (iff_of_false id fun h => (fits_element_iff.mp h).1 hk)
  | unhandled =>
    exact (declares_fail ..).congr (iff_of_false id fun h => h.kind_ne_unhandled nofun hk)

theorem fieldDeclared (d : Document) (s : Schema) : FieldDeclared d s := by
  induction s using Schema.induction with
  | step s hproperties hitems =>
    intro parent property isRequired
    rw [fieldType_eq, objectsOf_eq]
    cases hk : s.kind with
    | reference reference =>
      have htype : valueType (nestedTypeName parent property) s = .named (referent reference) := by
        simp [valueType, plainType, hk]
      rw [fits_reference_iff hk, htype]
      apply (declares_definitionType d reference).result
      apply declares_pure
    | primitive p =>
      have htype : fieldTypeOf isRequired (valueType (nestedTypeName parent property) s) =
          (GoType.ofPrimitive p).optional isRequired := by
        cases p <;> simp [valueType, plainType, hk, fieldTypeOf, GoType.ofPrimitive]
      rw [htype]
      exact (declares_pure _).congr (iff_of_true trivial (.primitive hk))
    | object =>
      have htype : valueType (nestedTypeName parent property) s =
          .named (nestedTypeName parent property) := by
        simp [valueType, plainType, hk]
      dsimp only
      rw [fits_object_iff hk, htype, structs_append]
      apply (declares_struct _ false hproperties).result
      apply declares_pure
    | array =>
      dsimp only
      rw [elementType_eq, objectsOfItems_eq]
      cases hi : s.singleItems with
      | none => exact (declares_fail ..).congr (iff_of_false id (not_fits_array hk hi))
      | some item =>
        have htype : valueType (nestedTypeName parent property) s =
            (plainType (elementTypeName parent property) item).slice := by
          simp only [valueType, hk, hi]
          rfl
        rw [fits_array_iff hk hi, htype, fieldTypeOf]
        apply (declares_elementOf _ (hitems item hi).2).result
        split <;> apply declares_pure
    | unhandled =>
      exact (declares_fail ..).congr (iff_of_false id fun h => h.kind_ne_unhandled nofun hk)

theorem declares_emitStruct (d : Document) (name : String) (s : Schema) (embeds : Bool) :
    Declares (emitStruct d name s embeds) (∀ p ∈ s.properties, Fits (Known d) .field p.2) ()
      (structs (objectsOfProperties name s.properties) ++
        [(name, .struct (structOf name s embeds))]) :=
  declares_struct name embeds fun p _ => fieldDeclared d p.2

/-- The inline objects that come before the type of a schema: those within it. -/
def objectsWithin (name : String) (s : Schema) : Members Schema :=
  match s.kind with
  | .object => objectsOfProperties name s.properties
  | .array => objectsOfItems (name ++ "Item") s.items
  | _ => []

/-- The declaration of the type of a schema. -/
def typeDeclaration (name : String) (s : Schema) : Declaration :=
  match s.kind with
  | .object => .struct (structOf name s false)
  | .reference _ => .named ⟨name, s.description, valueType name s, true⟩
  | .array | .primitive _ => .named ⟨name, s.description, valueType name s, false⟩
  | .unhandled => .struct ⟨name, s.description, false, []⟩

/-- The declaration of the type of a success. -/
def successDeclaration (name : String) : Option Schema → Declaration
  | some s => typeDeclaration name s
  | none => .struct ⟨name, none, false, []⟩

/-- The declaration of the type of a failure; a reference is not looked at. -/
def failureDeclaration (name : String) : Option Schema → Declaration
  | some s => .struct (if s.kind = .object then structOf name s true else ⟨name, none, true, []⟩)
  | none => .struct ⟨name, none, true, []⟩

theorem declares_emitNamed (d : Document) (name : String) (s : Schema) :
    Declares (emitNamed d name s) (Fits (Known d) .named s) ()
      (structs (objectsWithin name s) ++ [(name, typeDeclaration name s)]) := by
  apply Declares.afterCheck
  unfold objectsWithin typeDeclaration
  cases hk : s.kind with
  | object =>
    rw [fits_object_iff hk]
    exact declares_emitStruct d name s false
  | reference reference =>
    have htype : valueType name s = .named (referent reference) := by
      simp [valueType, plainType, hk]
    rw [fits_reference_iff hk, htype, ← and_true (Known d reference)]
    exact (declares_definitionType d reference).bind (declares_declare _ _)
  | array =>
    dsimp only
    rw [elementType_eq, objectsOfItems_eq]
    cases hi : s.singleItems with
    | none => exact (declares_fail ..).congr (iff_of_false id (not_fits_array hk hi))
    | some item =>
      have htype : valueType name s = (plainType (name ++ "Item") item).slice := by
        simp only [valueType, hk, hi]
      have hfits : Fits (Known d) .element item ∧ True ↔ Fits (Known d) .named s := by
        simp [fits_named_iff, hk, fits_array_iff hk hi]
      rw [htype, ← hfits]
      have hproperties : ∀ p ∈ item.properties, FieldDeclared d p.2 :=
        fun p _ => fieldDeclared d p.2
      exact (declares_elementOf _ hproperties).bind (declares_declare _ _)
  | primitive p =>
    have htype : valueType name s = .ofPrimitive p := by
      simp [valueType, plainType, hk]
    rw [htype]
    exact (declares_declare _ _).congr (iff_of_true trivial (.primitive hk))
  | unhandled =>
    have hfield : ¬ Fits (Known d) .field s := fun h => h.kind_ne_unhandled nofun hk
    have hfits : Fits (Known d) .named s ↔ s.types = none := by
      simp [fits_named_iff, hk, hfield]
    dsimp only
    rw [hfits]
    split
    · exact (declares_declare _ _).congr (iff_of_true trivial ‹_›)
    · exact (declares_fail ..).congr (iff_of_false id ‹_›)

theorem declares_emitSuccessType (d : Document) (name : String) (s : Option Schema) :
    Declares (emitSuccessType d name s) (∀ t, s = some t → Fits (Known d) .named t) ()
      (structs ((s.map (objectsWithin name)).getD []) ++ [(name, successDeclaration name s)]) := by
  cases s with
  | none => exact (declares_declare _ _).congr (by simp)
  | some s => exact (declares_emitNamed d name s).congr (by simp)

theorem declares_emitErrorType (d : Document) (name : String) (s : Option Schema) :
    Declares (emitErrorType d name s) (∀ t, s = some t → FitsFailure (Known d) t) ()
      (structs ((s.map (objectsWithin name)).getD []) ++ [(name, failureDeclaration name s)]) := by
  cases s with
  | none => exact (declares_declare _ _).congr (by simp)
  | some s =>
    unfold emitErrorType objectsWithin failureDeclaration
    simp only [Option.map_some, Option.getD_some]
    cases hk : s.kind with
    | object =>
      apply Declares.congr
      · exact declares_emitStruct d name s true
      · simp [FitsFailure, hk]
    | reference reference =>
      apply Declares.congr
      · exact declares_declare _ _
      · simp [FitsFailure, hk]
    | array | primitive | unhandled =>
      apply (declares_fail ..).congr
      simp [FitsFailure, hk]

end GoClient

end ApiContract
