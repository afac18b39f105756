import ApiContract.Proofs.GoClient.Declarations
import Mathlib.Data.List.Forall2

namespace ApiContract.GoClient

open Emit Naming

variable {d : Document} {known : String → Prop} {s item : Schema} {position : Position}
  {name parent property reference : String} {required : List String} {isRequired embeds : Bool}
  {properties : List (String × Schema)} {o : String × Schema}

/-- A schema that is met within another one, through the properties of objects and the items of
arrays. References are not followed. -/
inductive Reaches : Schema → Schema → Prop
  | here {s : Schema} : Reaches s s
  | property {s t : Schema} {p : String × Schema} :
      s.kind = .object → p ∈ s.properties → Reaches p.2 t → Reaches s t
  | items {s item t : Schema} :
      s.kind = .array → s.singleItems = some item → Reaches item t → Reaches s t

/-- There is no type for a schema as it stands. -/
inductive Typeless (known : String → Prop) (s : Schema) : Prop
  | unknown {reference : String} : s.kind = .reference reference → ¬ known reference →
      Typeless known s
  | malformedArray : s.kind = .array → s.singleItems = none → Typeless known s
  | arrayOfArrays {item : Schema} : s.kind = .array → s.singleItems = some item →
      item.kind = .array → Typeless known s
  | unhandled : s.kind = .unhandled → Typeless known s

theorem Fits.not_typeless (h : Fits known .field s) : ¬ Typeless known s := by
  intro hn
  cases hn with
  | unknown hk hr => exact hr ((fits_reference_iff hk).mp h)
  | malformedArray hk hi => exact not_fits_array hk hi h
  | arrayOfArrays hk hi ha => exact (fits_element_iff.mp ((fits_array_iff hk hi).mp h)).1 ha
  | unhandled hk => exact h.kind_ne_unhandled nofun hk

theorem Fits.of_reaches {t : Schema} (h : Fits known .field s) (ht : Reaches s t) :
    Fits known .field t := by
  induction ht with
  | here => exact h
  | property hk hp _ ih => exact ih ((fits_object_iff hk).mp h _ hp)
  | items hk hi _ ih => exact ih (fits_element_iff.mp ((fits_array_iff hk hi).mp h)).2

/-- A value has a type if every schema within it has one. -/
theorem fits_field_iff : Fits known .field s ↔ ∀ t, Reaches s t → ¬ Typeless known t := by
  constructor
  · exact fun h t ht => (h.of_reaches ht).not_typeless
  · intro h
    induction s using Schema.induction with
    | step s hproperties hitems =>
      have hhere := h s .here
      cases hk : s.kind with
      | reference reference =>
        exact .reference hk (Classical.byContradiction fun hr => hhere (.unknown hk hr))
      | primitive p => exact .primitive hk
      | object =>
        exact .object hk fun p hp => hproperties p hp fun t ht => h t (.property hk hp ht)
      | array =>
        cases hi : s.singleItems with
        | none => exact absurd (.malformedArray hk hi) hhere
        | some item =>
          have hne : item.kind ≠ .array := fun ha => hhere (.arrayOfArrays hk hi ha)
          have hf := (hitems item hi).1 fun t ht => h t (.items hk hi ht)
          exact .array nofun hk hi (fits_element_iff.mpr ⟨hne, hf⟩)
      | unhandled => exact absurd (.unhandled hk) hhere

/-- An inline object has a name that continues the one it was given. -/
theorem length_le_of_mem_objectsOf (s : Schema) :
    ∀ name, ∀ o ∈ objectsOf name s, name.length ≤ o.1.length := by
  induction s using Schema.induction with
  | step s hproperties hitems =>
    intro name o ho
    rw [objectsOf_eq] at ho
    cases hk : s.kind with
    | object =>
      simp only [hk] at ho
      rcases List.mem_append.mp ho with ho | ho
      · obtain ⟨p, hp, ho⟩ := mem_objectsOfProperties.mp ho
        have hle := hproperties p hp _ o ho
        simp only [nestedTypeName, String.length_append] at hle
        omega
      · exact Nat.le_of_eq (congrArg (·.1.length) (List.mem_singleton.mp ho).symm)
    | array =>
      simp only [hk, objectsOfItems_eq] at ho
      cases hi : s.singleItems with
      | none => simp [hi] at ho
      | some item =>
        simp only [hi] at ho
        have hle := (hitems item hi).1 _ o ho
        simp only [String.length_append] at hle
        omega
    | reference | primitive | unhandled => simp [hk] at ho

/-- No object within a struct has the name of the struct. -/
theorem not_mem_names_objectsOfProperties (name : String) (properties : List (String × Schema)) :
    name ∉ (objectsOfProperties name properties).names := by
  intro hn
  obtain ⟨o, ho, hname⟩ := List.mem_map.mp hn
  obtain ⟨p, -, ho⟩ := mem_objectsOfProperties.mp ho
  have hle := length_le_of_mem_objectsOf p.2 _ o ho
  have hunderscore : "_".length = 1 := rfl
  simp only [nestedTypeName, String.length_append, hname] at hle
  omega

theorem hasRoom_struct_iff {file : File Declaration} {declaration : Declaration} :
    file.HasRoom (structs (objectsOfProperties name properties) ++ [(name, declaration)]) ↔
      name ∉ file.names ∧ (objectsOfProperties name properties).names.Nodup ∧
        ∀ n ∈ (objectsOfProperties name properties).names, n ∉ file.names := by
  have hname := not_mem_names_objectsOfProperties name properties
  have hnames : (structs (objectsOfProperties name properties) ++ [(name, declaration)]).names =
      (objectsOfProperties name properties).names ++ [name] := by
    simp [structs, Members.names]
  rw [File.HasRoom, hnames, List.nodup_append, List.forall_mem_append]
  grind

/-- The type of the field for a value, by what the value is. `name` is the type that an object
gets. -/
inductive HasFieldType (d : Document) (name : String) (isRequired : Bool) (s : Schema) :
    GoType → Prop
  | reference {reference : String} {found : String × Schema} :
      s.kind = .reference reference → d.definition reference = .ok found →
      HasFieldType d name isRequired s ((GoType.named (camelCase found.1)).optional isRequired)
  | primitive {p : Primitive} : s.kind = .primitive p →
      HasFieldType d name isRequired s ((GoType.ofPrimitive p).optional isRequired)
  | object : s.kind = .object →
      HasFieldType d name isRequired s ((GoType.named name).optional isRequired)
  | primitives {item : Schema} {p : Primitive} :
      s.kind = .array → s.singleItems = some item → item.kind = .primitive p →
      HasFieldType d name isRequired s ((GoType.ofPrimitive p).slice.optional isRequired)
  | objects {item : Schema} :
      s.kind = .array → s.singleItems = some item → item.kind = .object →
      HasFieldType d name isRequired s (GoType.named (name ++ "Item")).slice
  | references {item : Schema} {reference : String} {found : String × Schema} :
      s.kind = .array → s.singleItems = some item → item.kind = .reference reference →
      d.definition reference = .ok found →
      HasFieldType d name isRequired s (GoType.named (camelCase found.1)).slice

/-- A field for a property. -/
structure FieldFor (d : Document) (parent : String) (required : List String)
    (p : String × Schema) (f : Field) : Prop where
  name : f.name = fieldName p.1
  jsonTag : f.jsonTag = if p.1 ∈ required then p.1 else p.1 ++ ",omitempty"
  tags : f.tags = "`json:\"" ++ f.jsonTag ++ "\" tfsdk:\"" ++ p.1 ++ "\"`"
  type : HasFieldType d (parent ++ "_" ++ camelCase p.1) (p.1 ∈ required) p.2 f.type

/-- A struct for the properties of a schema: one field for each, in their order. -/
structure StructFor (d : Document) (parent : String) (s : Schema) (declared : StructDeclaration) :
    Prop where
  name : declared.name = parent
  description : declared.description = s.description
  fields : List.Forall₂ (FieldFor d parent s.required) s.properties declared.fields

theorem hasFieldType_of_fits (h : Fits (Known d) .field s) (name : String) (isRequired : Bool) :
    HasFieldType d name isRequired s (fieldTypeOf isRequired (valueType name s)) := by
  cases h with
  | reference hk hknown =>
    obtain ⟨found, hf⟩ := hknown
    have htype : valueType name s = .named (camelCase found.1) := by
      simp [valueType, plainType, hk, referent, name_of_definition hf]
    rw [htype]
    exact .reference hk hf
  | primitive hk =>
    rename_i p
    have htype : fieldTypeOf isRequired (valueType name s) =
        (GoType.ofPrimitive p).optional isRequired := by
      cases p <;> simp [valueType, plainType, hk, fieldTypeOf, GoType.ofPrimitive]
    rw [htype]
    exact .primitive hk
  | object hk _ =>
    have htype : valueType name s = .named name := by simp [valueType, plainType, hk]
    rw [htype]
    exact .object hk
  | @array _ _ item _ hk hi he =>
    have htype : valueType name s = (plainType (name ++ "Item") item).slice := by
      simp only [valueType, hk, hi]
    rw [htype, plainType]
    cases he with
    | reference hik hknown =>
      obtain ⟨found, hf⟩ := hknown
      simp only [hik, referent, ← name_of_definition hf]
      exact .references hk hi hik hf
    | primitive hik =>
      rename_i p
      rw [hik]
      cases p <;> exact .primitives hk hi hik
    | object hik _ =>
      rw [hik]
      exact .objects hk hi hik
    | array hp => exact absurd rfl hp

theorem fieldFor_fieldOf {p : String × Schema} (h : Fits (Known d) .field p.2) (parent : String)
    (required : List String) : FieldFor d parent required p (fieldOf parent required p) := by
  have hrequired : required.contains p.1 = decide (p.1 ∈ required) := List.contains_eq_mem ..
  constructor
  case name => rfl
  case jsonTag => simp [Field.jsonTag, fieldOf]
  case tags => rfl
  case type =>
    rw [← hrequired]
    exact hasFieldType_of_fits h _ _

theorem structFor_structOf (h : ∀ p ∈ s.properties, Fits (Known d) .field p.2) (name : String)
    (embeds : Bool) : StructFor d name s (structOf name s embeds) := by
  constructor
  case name | description => rfl
  case fields =>
    apply List.forall₂_map_right_iff.mpr
    apply List.forall₂_same.mpr
    exact fun p hp => fieldFor_fieldOf (h p hp) name s.required

/-- Inline objects are objects whose properties have types. -/
theorem Fits.inline (h : Fits (Known d) position s) (name : String) :
    ∀ o ∈ objectsOf name s,
      o.2.kind = .object ∧ ∀ p ∈ o.2.properties, Fits (Known d) .field p.2 := by
  induction h generalizing name with
  | reference hk | primitive hk | empty hk =>
    rw [objectsOf_eq, hk]
    exact nofun
  | object hk hp ih =>
    rw [objectsOf_eq, hk]
    intro o ho
    rcases List.mem_append.mp ho with ho | ho
    · obtain ⟨p, hmem, ho⟩ := mem_objectsOfProperties.mp ho
      exact ih p hmem _ o ho
    · rw [List.mem_singleton.mp ho]
      exact ⟨hk, hp⟩
  | array _ hk hi _ ih =>
    rw [objectsOf_eq, hk]
    dsimp only
    rw [objectsOfItems_eq, hi]
    exact ih _

/-- What is declared for a struct: the structs of the inline objects, then the struct itself. -/
theorem structs_of_emitStruct {draft draft' : Draft}
    (h : emitStruct d name s embeds draft = (.ok (), draft')) :
    ∃ (inner : List StructDeclaration) (declared : StructDeclaration),
      draft'.file.declarations = draft.file.declarations ++
        (inner ++ [declared]).map (fun t => (t.name, .struct t)) ∧
      StructFor d name s declared ∧
      List.Forall₂ (fun o t => o.2.kind = .object ∧ StructFor d o.1 o.2 t)
        (objectsOfProperties name s.properties) inner := by
  have hstep := declares_emitStruct d name s embeds
  obtain ⟨hfits, -⟩ := hstep.sound _ _ _ h
  obtain ⟨-, rfl⟩ := hstep.eq_of_ok h
  refine ⟨(objectsOfProperties name s.properties).map fun o => structOf o.1 o.2 false,
    structOf name s embeds, ?_, structFor_structOf hfits name embeds, ?_⟩
  · simp [Draft.adding, structs, structOf]
  · apply List.forall₂_map_right_iff.mpr
    apply List.forall₂_same.mpr
    intro o ho
    obtain ⟨p, hp, ho⟩ := mem_objectsOfProperties.mp ho
    obtain ⟨hk, hinner⟩ := (hfits p hp).inline _ o ho
    exact ⟨hk, structFor_structOf hinner o.1 false⟩

/-- A struct that is declared has a field for each property of its schema, and so has every struct
that is declared before it, one for each inline object. None is declared only if a name is taken
from the start or twice on the way, or if some schema within a property has no type. -/
theorem emitStruct_fields (d : Document) (name : String) (s : Schema) (embeds : Bool)
    (draft : Draft) :
    (∀ draft', emitStruct d name s embeds draft = (.ok (), draft') →
      ∃ (inner : List StructDeclaration) (declared : StructDeclaration),
        draft'.file.declarations = draft.file.declarations ++
          (inner ++ [declared]).map (fun t => (t.name, .struct t)) ∧
        StructFor d name s declared ∧
        List.Forall₂ (fun o t => o.2.kind = .object ∧ StructFor d o.1 o.2 t)
          (objectsOfProperties name s.properties) inner) ∧
    ((∃ fault, (emitStruct d name s embeds draft).1 = .error fault) ↔
      name ∈ draft.file.names ∨
      (∃ p ∈ s.properties, ∃ t, Reaches p.2 t ∧ Typeless (Known d) t) ∨
      (∃ n ∈ (objectsOfProperties name s.properties).names, n ∈ draft.file.names) ∨
      ¬ (objectsOfProperties name s.properties).names.Nodup) := by
  have hstep := declares_emitStruct d name s embeds
  constructor
  · exact fun draft' h => structs_of_emitStruct h
  · rw [hstep.fails_iff, hasRoom_struct_iff]
    simp only [fits_field_iff]
    grind

namespace Fleet

/-- Two properties that get one type name. -/
def twins : Schema :=
  { properties := [("home_port", { properties := [("name", .referTo "agent")] }),
      ("homePort", { properties := [("code", .referTo "agent")] })] }

end Fleet

open Fleet in
/-- The berth and the members of the crew of a vessel get structs of their own. -/
theorem vessel_fields :
    (∃ draft' inner declared,
      emitStruct document "Vessel" vessel false empty = (.ok (), draft') ∧
      draft'.file.names = ["Vessel_Berth", "Vessel_CrewItem", "Vessel"] ∧
      draft'.file.declarations = (inner ++ [declared]).map (fun t => (t.name, .struct t)) ∧
      StructFor document "Vessel" vessel declared) ∧
    ∃ fault, (emitStruct document "Twins" twins false empty).1 = .error fault := by
  obtain ⟨hfields, -⟩ := emitStruct_fields document "Vessel" vessel false empty
  obtain ⟨-, hfails⟩ := emitStruct_fields document "Twins" twins false empty
  constructor
  · have hok : (emitStruct document "Vessel" vessel false empty).1 = .ok () := by decide +kernel
    have hnames : (emitStruct document "Vessel" vessel false empty).2.file.names =
        ["Vessel_Berth", "Vessel_CrewItem", "Vessel"] := by decide +kernel
    obtain ⟨draft', hrun⟩ := exists_draft hok
    obtain ⟨inner, declared, hdeclarations, hstruct, -⟩ := hfields _ hrun
    rw [hrun] at hnames
    exact ⟨draft', inner, declared, hrun, hnames, hdeclarations, hstruct⟩
  · apply hfails.mpr
    have htwice : ¬ (objectsOfProperties "Twins" twins.properties).names.Nodup := by
      decide +kernel
    exact Or.inr (Or.inr (Or.inr htwice))

end ApiContract.GoClient
