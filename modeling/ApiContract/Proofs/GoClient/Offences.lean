import ApiContract.Proofs.GoClient.SchemaTypes

namespace ApiContract.GoClient

/-- The cause lies in what a schema holds. -/
def Cause.InSchema : Cause → Prop
  | .unresolved (.unknownDefinition _) | .arrayOfArrays | .malformedArray | .unhandledType => True
  | _ => False

/-- What a schema is used for: as a definition or for a success, for a failure, for the body of a
request, for a field, or for the elements of an array. -/
inductive Use where
  | type
  | failure
  | request
  | field
  | element
deriving DecidableEq

/-- An array can be used for this. -/
def Use.AllowsArray : Use → Prop
  | .type | .field => True
  | _ => False

/-- The cause is true of a schema that is used for something, or of the items of that schema. Known
are the names that references may lead to. -/
inductive Offends (known : String → Prop) : Use → Schema → Cause → Prop
  | missing {use : Use} {s : Schema} {reference : String} :
      use ≠ .failure → s.kind = .reference reference → ¬ known reference →
      Offends known use s
        (.unresolved (.unknownDefinition (withoutStart definitionsRoot reference)))
  | unhandled {use : Use} {s : Schema} :
      use ≠ .request → s.kind = .unhandled → (use = .type → s.types ≠ none) →
      Offends known use s .unhandledType
  | array {s : Schema} : s.kind = .array → Offends known .failure s .unhandledType
  | primitive {s : Schema} {p : Primitive} :
      s.kind = .primitive p → Offends known .failure s .unhandledType
  | nested {s : Schema} : s.kind = .array → Offends known .element s .arrayOfArrays
  | malformed {use : Use} {s : Schema} :
      use.AllowsArray → s.kind = .array → s.singleItems = none →
      Offends known use s .malformedArray
  | items {use : Use} {s item : Schema} {cause : Cause} :
      use.AllowsArray → s.kind = .array → s.singleItems = some item →
      Offends known .element item cause → Offends known use s cause

/-- Properties lead from one schema to another: each is a property of an object, or of the object
that the items of an array are. The body of a request has properties unless it is a reference. -/
inductive Traverses : Use → Schema → List String → Use → Schema → Prop
  | here {use : Use} {s : Schema} : Traverses use s [] use s
  | property {use use' : Use} {s t : Schema} {p : String × Schema} {rest : List String} :
      s.kind = .object ∨ use = .request ∧ s.referenceName = none → p ∈ s.properties →
      Traverses .field p.2 rest use' t → Traverses use s (p.1 :: rest) use' t
  | items {use use' : Use} {s item t : Schema} {property : String} {rest : List String} :
      use.AllowsArray → s.kind = .array → s.singleItems = some item →
      Traverses .element item (property :: rest) use' t → Traverses use s (property :: rest) use' t

/-- The properties that a fault names lead from a schema to one that its cause is true of. -/
def Explained (known : String → Prop) (use : Use) (s : Schema) (fault : Fault) : Prop :=
  ∃ properties use' t, fault.layers = properties.map Layer.property ∧
    Traverses use s properties use' t ∧ Offends known use' t fault.cause

/-- The fault is named by a property and explained by the schema of the property. -/
def ExplainedBelow (known : String → Prop) (properties : List (String × Schema))
    (fault : Fault) : Prop :=
  ∃ p ∈ properties, ∃ inner, Explained known .field p.2 inner ∧
    fault = inner.within (.property p.1)

namespace Emit

variable {α β : Type} {m : Emit α} {f : α → Emit β} {P Q : Fault → Prop} {layer : Layer}
  {cause : Cause}

/-- Every fault of the step that lies in what schemas hold is like this. -/
def Blames (m : Emit α) (P : Fault → Prop) : Prop :=
  ∀ draft fault, (m draft).1 = .error fault → fault.cause.InSchema → P fault

theorem Blames.imp (h : Blames m P) (hpq : ∀ fault, P fault → Q fault) : Blames m Q :=
  fun draft fault hm hc => hpq fault (h draft fault hm hc)

theorem Blames.bind (hm : Blames m P) (hf : ∀ a, Yields m a → Blames (f a) P) :
    Blames (m >>= f) P := by
  intro draft fault h hc
  rw [bind_apply] at h
  split at h
  · rename_i a next heq
    exact hf a ⟨draft, next, heq⟩ next fault h hc
  · rename_i next heq
    cases h
    exact hm draft fault (by rw [heq]) hc

/-- The step after one whose result does not matter. -/
theorem Blames.then (hm : Blames m P) (hf : ∀ a, Blames (f a) P) : Blames (m >>= f) P :=
  hm.bind fun a _ => hf a

theorem Blames.within (h : Blames m fun fault => P (fault.within layer)) :
    Blames (within layer m) P := by
  intro draft fault hw hc
  unfold Emit.within at hw
  split at hw
  · cases hw
  · rename_i inner next heq
    cases hw
    exact h draft inner (by rw [heq]) hc

/-- A name that is taken does not lie in what schemas hold. -/
theorem Accepts.blames (h : Accepts m) : Blames m P := by
  intro draft fault hm hc
  obtain ⟨name, hname⟩ := h draft fault hm
  rw [hname] at hc
  exact hc.elim

theorem blames_fail (h : P ⟨[], cause⟩) : Blames (fail cause : Emit α) P := by
  intro draft fault hm _
  cases hm
  exact h

theorem blames_fail_of_not (h : ¬ cause.InSchema) : Blames (fail cause : Emit α) P := by
  intro draft fault hm hc
  cases hm
  exact absurd hc h

end Emit

open Emit Naming

variable {d : Document} {known : String → Prop} {s item : Schema} {use : Use} {fault : Fault}
  {properties : List (String × Schema)} {P : Fault → Prop}

theorem explained_of_offends {cause : Cause} (h : Offends known use s cause) :
    Explained known use s ⟨[], cause⟩ :=
  ⟨[], use, s, rfl, .here, h⟩

theorem ExplainedBelow.explained (h : ExplainedBelow known s.properties fault)
    (hs : s.kind = .object ∨ use = .request ∧ s.referenceName = none) :
    Explained known use s fault := by
  obtain ⟨p, hp, inner, ⟨names, use', t, hlayers, htraverses, hoffends⟩, rfl⟩ := h
  refine ⟨p.1 :: names, use', t, ?_, .property hs hp htraverses, hoffends⟩
  rw [Fault.within, hlayers]
  rfl

/-- What the items of an array explain the array explains. -/
theorem Explained.of_items (h : Explained known .element item fault) (huse : use.AllowsArray)
    (hk : s.kind = .array) (hi : s.singleItems = some item) : Explained known use s fault := by
  obtain ⟨names, use', t, hlayers, htraverses, hoffends⟩ := h
  cases names with
  | nil =>
    cases htraverses
    exact ⟨[], use, s, hlayers, .here, .items huse hk hi hoffends⟩
  | cons property rest =>
    exact ⟨property :: rest, use', t, hlayers, .items huse hk hi htraverses, hoffends⟩

theorem blames_definitionType {reference : String} (h : ¬ Known d reference →
      P ⟨[], .unresolved (.unknownDefinition (withoutStart definitionsRoot reference))⟩) :
    Blames (definitionType d reference) P := by
  apply Blames.then
  · cases hf : d.definition reference with
    | ok found => exact (accepts_pure found).blames
    | error fault =>
      have hunknown : ¬ Known d reference := by simp [Known, hf]
      have hfault : fault = .unknownDefinition (withoutStart definitionsRoot reference) := by
        unfold Document.definition at hf
        dsimp only at hf
        split at hf
        · cases hf
        · exact (Except.error.inj hf).symm
      rw [hfault]
      exact blames_fail (h hunknown)
  · exact fun _ => (accepts_pure _).blames

theorem blames_structWith {m : Emit (List Field)} (h : Blames m P) (name : String)
    (description : Option String) (embeds : Bool) :
    Blames (structWith name description embeds m) P :=
  (accepts_requireFree name).blames.then fun _ => h.then fun _ => (accepts_declare _ _).blames

/-- The schema explains every fault of the step for a field. -/
def FieldBlamed (d : Document) (s : Schema) : Prop :=
  ∀ parent property isRequired,
    Blames (fieldType d parent property isRequired s) (Explained (Known d) .field s)

theorem blames_fields (parent : String) (required : List String)
    (h : ∀ p ∈ properties, FieldBlamed d p.2) :
    Blames (fieldsOf d parent required properties) (ExplainedBelow (Known d) properties) := by
  induction properties with
  | nil =>
    rw [fieldsOf]
    exact (accepts_pure _).blames
  | cons p rest ih =>
    obtain ⟨property, s⟩ := p
    obtain ⟨hs, hrest⟩ := List.forall_mem_cons.mp h
    rw [fieldsOf]
    apply Blames.then
    · apply Blames.within
      refine (hs parent property (required.contains property)).imp ?_
      exact fun inner hinner => ⟨(property, s), List.mem_cons_self, inner, hinner, rfl⟩
    · intro _
      apply Blames.then
      · refine (ih hrest).imp ?_
        rintro fault ⟨p, hp, hbelow⟩
        exact ⟨p, List.mem_cons_of_mem _ hp, hbelow⟩
      · exact fun _ => (accepts_pure _).blames

theorem blames_elementOf (name : String) (h : ∀ p ∈ s.properties, FieldBlamed d p.2) :
    Blames (elementOf d name s) (Explained (Known d) .element s) := by
  rw [elementOf_eq]
  cases hk : s.kind with
  | reference reference =>
    apply blames_definitionType
    exact fun hunknown => explained_of_offends (.missing nofun hk hunknown)
  | primitive p => exact (accepts_pure _).blames
  | object =>
    apply Blames.then
    · apply blames_structWith
      exact (blames_fields name s.required h).imp fun _ hbelow => hbelow.explained (.inl hk)
    · exact fun _ => (accepts_pure _).blames
  | array => exact blames_fail (explained_of_offends (.nested hk))
  | unhandled => exact blames_fail (explained_of_offends (.unhandled nofun hk nofun))

/-- An array is explained by itself or by its items. -/
theorem blames_elementType (name : String) (huse : use.AllowsArray) (hk : s.kind = .array)
    (h : ∀ item, s.singleItems = some item → ∀ p ∈ item.properties, FieldBlamed d p.2) :
    Blames (elementType d name s.items) (Explained (Known d) use s) := by
  rw [elementType_eq]
  cases hi : s.singleItems with
  | none => exact blames_fail (explained_of_offends (.malformed huse hk hi))
  | some item =>
    exact (blames_elementOf name (h item hi)).imp fun _ hitem => hitem.of_items huse hk hi

theorem fieldBlamed (d : Document) (s : Schema) : FieldBlamed d s := by
  induction s using Schema.induction with
  | step s hproperties hitems =>
    intro parent property isRequired
    rw [fieldType_eq]
    cases hk : s.kind with
    | reference reference =>
      apply Blames.then
      · apply blames_definitionType
        exact fun hunknown => explained_of_offends (.missing nofun hk hunknown)
      · exact fun _ => (accepts_pure _).blames
    | primitive p => exact (accepts_pure _).blames
    | object =>
      apply Blames.then
      · apply blames_structWith
        refine (blames_fields _ s.required hproperties).imp ?_
        exact fun _ hbelow => hbelow.explained (.inl hk)
      · exact fun _ => (accepts_pure _).blames
    | array =>
      apply Blames.then
      · exact blames_elementType _ trivial hk fun item hi => (hitems item hi).2
      · intro element
        split <;> exact (accepts_pure _).blames
    | unhandled => exact blames_fail (explained_of_offends (.unhandled nofun hk nofun))

theorem blames_emitStruct (d : Document) (name : String) (s : Schema) (embeds : Bool) :
    Blames (emitStruct d name s embeds) (ExplainedBelow (Known d) s.properties) :=
  blames_structWith (blames_fields name s.required fun p _ => fieldBlamed d p.2) name _ embeds

theorem blames_emitNamed (d : Document) (name : String) (s : Schema) :
    Blames (emitNamed d name s) (Explained (Known d) .type s) := by
  refine (accepts_requireFree name).blames.then fun _ => ?_
  cases hk : s.kind with
  | object =>
    exact (blames_emitStruct d name s false).imp fun _ hbelow => hbelow.explained (.inl hk)
  | reference reference =>
    apply Blames.then
    · apply blames_definitionType
      exact fun hunknown => explained_of_offends (.missing nofun hk hunknown)
    · exact fun _ => (accepts_declare _ _).blames
  | array =>
    apply Blames.then
    · exact blames_elementType _ trivial hk fun item _ p _ => fieldBlamed d p.2
    · exact fun _ => (accepts_declare _ _).blames
  | primitive p => exact (accepts_declare _ _).blames
  | unhandled =>
    dsimp only
    split
    · exact (accepts_declare _ _).blames
    · rename_i htypes
      exact blames_fail (explained_of_offends (.unhandled nofun hk fun _ => htypes))

theorem blames_emitSuccessType (d : Document) (name : String) (s : Option Schema) :
    Blames (emitSuccessType d name s) fun fault =>
      ∃ t, s = some t ∧ Explained (Known d) .type t fault := by
  cases s with
  | none => exact (accepts_declare _ _).blames
  | some s => exact (blames_emitNamed d name s).imp fun _ h => ⟨s, rfl, h⟩

theorem blames_emitErrorType (d : Document) (name : String) (s : Option Schema) :
    Blames (emitErrorType d name s) fun fault =>
      ∃ t, s = some t ∧ Explained (Known d) .failure t fault := by
  cases s with
  | none => exact (accepts_declare _ _).blames
  | some s =>
    have hfail : Offends (Known d) .failure s .unhandledType → Blames
        (fail .unhandledType : Emit Unit) fun fault =>
          ∃ t, some s = some t ∧ Explained (Known d) .failure t fault :=
      fun h => blames_fail ⟨s, rfl, explained_of_offends h⟩
    unfold emitErrorType
    dsimp only
    cases hk : s.kind with
    | reference reference => exact (accepts_declare _ _).blames
    | object =>
      refine (blames_emitStruct d name s true).imp ?_
      exact fun _ hbelow => ⟨s, rfl, hbelow.explained (.inl hk)⟩
    | array => exact hfail (.array hk)
    | primitive p => exact hfail (.primitive hk)
    | unhandled => exact hfail (.unhandled nofun hk nofun)

end ApiContract.GoClient
