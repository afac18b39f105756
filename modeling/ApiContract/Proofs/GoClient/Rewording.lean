import ApiContract.Proofs.GoClient.DeclarationOrder
import Mathlib.Data.List.Forall2

namespace ApiContract.GoClient

open Naming

namespace File

variable {α β : Type}

/-- The file with every declaration changed. -/
def map (r : α → β) (f : File α) : File β :=
  { f with declarations := f.declarations.map fun p => (p.1, r p.2) }

@[simp] theorem map_id (f : File α) : f.map id = f := by
  simp [map]

@[simp] theorem declares_map (r : α → β) (f : File α) (name : String) :
    (f.map r).declares name = f.declares name := by
  simp [declares, names, map, Members.names]

theorem push_map (r : α → β) (f : File α) (name : String) (declaration : α) :
    (f.map r).push name (r declaration) = (f.push name declaration).map (map r) := by
  unfold push
  rw [declares_map]
  split
  · rfl
  · simp [Except.map, map]

end File

namespace Emit

variable {α β α' β' : Type} {r : Declaration → Declaration} {f : α → α'} {g : β → β'}
  {m : Emit α} {m' : Emit α'} {k : α → Emit β} {k' : α' → Emit β'}

/-- From files whose declarations correspond the second step comes to the result of the first and
leaves a file whose declarations correspond. What is told on the way may differ. -/
def Mirrors (r : Declaration → Declaration) (f : α → α') (m : Emit α) (m' : Emit α') : Prop :=
  ∀ draft draft', draft'.file = draft.file.map r →
    (m' draft').1 = (m draft).1.map f ∧ (m' draft').2.file = (m draft).2.file.map r

theorem mirrors_pure (a : α) : Mirrors r f (Pure.pure a) (Pure.pure (f a)) := fun _ _ h => ⟨rfl, h⟩

theorem mirrors_fail (cause : Cause) : Mirrors r f (fail cause) (fail cause) :=
  fun _ _ h => ⟨rfl, h⟩

theorem mirrors_tell (lines lines' : List LogLine) : Mirrors r id (tell lines) (tell lines') :=
  fun _ _ h => ⟨rfl, h⟩

/-- What a result that is given away says does not depend on the draft. -/
theorem mirrors_constant (x : Except Fault α) :
    Mirrors r f (fun draft => (x, draft)) (fun draft => (x.map f, draft)) :=
  fun _ _ h => ⟨rfl, h⟩

theorem Mirrors.bind (hm : Mirrors r f m m') (hk : ∀ a, Mirrors r g (k a) (k' (f a))) :
    Mirrors r g (m >>= k) (m' >>= k') := by
  intro draft draft' h
  obtain ⟨hresult, hfile⟩ := hm draft draft' h
  rw [bind_apply, bind_apply]
  cases he : m draft with
  | mk result next =>
    cases he' : m' draft' with
    | mk result' next' =>
      rw [he, he'] at hresult hfile
      obtain rfl : result' = result.map f := hresult
      cases result with
      | ok a => exact hk a next next' hfile
      | error fault => exact ⟨rfl, hfile⟩

theorem Mirrors.within (hm : Mirrors r f m m') (layer : Layer) :
    Mirrors r f (within layer m) (within layer m') := by
  intro draft draft' h
  obtain ⟨hresult, hfile⟩ := hm draft draft' h
  unfold Emit.within
  cases he : m draft with
  | mk result next =>
    cases he' : m' draft' with
    | mk result' next' =>
      rw [he, he'] at hresult hfile
      obtain rfl : result' = result.map f := hresult
      cases result with
      | ok a => exact ⟨rfl, hfile⟩
      | error fault => exact ⟨rfl, hfile⟩

theorem mirrors_addImport (path : String) : Mirrors r id (addImport path) (addImport path) := by
  intro draft draft' h
  refine ⟨rfl, ?_⟩
  unfold addImport
  rw [h]
  rfl

theorem mirrors_addImports (paths : List String) :
    Mirrors r id (addImports paths) (addImports paths) := by
  induction paths with
  | nil => exact mirrors_pure ()
  | cons path rest ih => exact (mirrors_addImport path).bind fun _ => ih

theorem mirrors_requireFree (name : String) :
    Mirrors r id (requireFree name) (requireFree name) := by
  intro draft draft' h
  unfold requireFree
  rw [h, File.declares_map]
  split
  · exact ⟨rfl, h⟩
  · exact ⟨rfl, h⟩

theorem mirrors_declare {name : String} {declaration declaration' : Declaration}
    (hr : r declaration = declaration') :
    Mirrors r id (declare name declaration) (declare name declaration') := by
  intro draft draft' h
  unfold declare
  rw [h, ← hr, File.push_map]
  cases draft.file.push name declaration with
  | ok file => exact ⟨rfl, rfl⟩
  | error fault => exact ⟨rfl, h⟩

theorem mirrors_ofResolved (x : Except ResolveFault α) :
    Mirrors r f (ofResolved x) (ofResolved (x.map f)) := by
  cases x with
  | ok a => exact mirrors_pure a
  | error fault => exact mirrors_fail _

end Emit

open Emit

/-- Schemas and declarations in other words: nothing but the descriptions of schemas may change, and
a declaration with the description of a schema becomes the one with the description of the schema in
other words. -/
structure Rewording (t : Schema → Schema) (r : Declaration → Declaration) : Prop where
  reference : ∀ s, (t s).reference = s.reference
  types : ∀ s, (t s).types = s.types
  required : ∀ s, (t s).required = s.required
  properties : ∀ s, (t s).properties = s.properties.map fun p => (p.1, t p.2)
  singleItems : ∀ s, (t s).singleItems = s.singleItems.map t
  struct : ∀ s name embeds fields,
    r (.struct ⟨name, s.description, embeds, fields⟩) =
      .struct ⟨name, (t s).description, embeds, fields⟩
  plainStruct : ∀ name embeds fields,
    r (.struct ⟨name, none, embeds, fields⟩) = .struct ⟨name, none, embeds, fields⟩
  named : ∀ s name target isAlias,
    r (.named ⟨name, s.description, target, isAlias⟩) =
      .named ⟨name, (t s).description, target, isAlias⟩

/-- The same words. -/
theorem Rewording.refl : Rewording id id where
  reference _ := rfl
  types _ := rfl
  required _ := rfl
  properties _ := by simp
  singleItems _ := by simp
  struct _ _ _ _ := rfl
  plainStruct _ _ _ := rfl
  named _ _ _ _ := rfl

variable {d d' : Document} {s : Schema} {properties : List (String × Schema)}
  {t : Schema → Schema} {r : Declaration → Declaration}

theorem Rewording.kind (h : Rewording t r) (s : Schema) : (t s).kind = s.kind := by
  simp [Schema.kind, h.reference, h.types, h.properties]

theorem mirrors_pathArgument (p : Parameter) :
    Mirrors r id (pathArgument p) (pathArgument p) := by
  unfold pathArgument
  split
  · exact mirrors_pure _
  · exact (mirrors_addImport _).bind fun _ => mirrors_pure _
  · exact (mirrors_addImport _).bind fun _ => mirrors_pure _
  · exact mirrors_fail _

theorem mirrors_queryArgument (p : Parameter) :
    Mirrors r id (queryArgument p) (queryArgument p) := by
  unfold queryArgument
  split
  · exact mirrors_fail _
  · exact mirrors_pure _
  · exact (mirrors_addImport _).bind fun _ => mirrors_pure _
  · exact (mirrors_addImport _).bind fun _ => mirrors_pure _
  · exact (mirrors_addImport _).bind fun _ => mirrors_pure _

theorem mirrors_emitUrl (parameters : List Parameter) (pieces : List Piece) :
    Mirrors r id (emitUrl parameters pieces) (emitUrl parameters pieces) := by
  induction pieces with
  | nil =>
    rw [emitUrl]
    exact mirrors_pure _
  | cons piece rest ih =>
    cases piece with
    | literal text =>
      rw [emitUrl]
      exact ih.bind fun _ => mirrors_pure _
    | parameter name =>
      rw [emitUrl.eq_def]
      dsimp only
      cases parameters.find? (·.name = name) with
      | none => exact ih
      | some p =>
        apply ((mirrors_pathArgument p).within _).bind
        intro _
        exact ih.bind fun _ => mirrors_pure _

theorem mirrors_emitQuery (parameters : List Parameter) :
    Mirrors r id (emitQuery parameters) (emitQuery parameters) := by
  induction parameters with
  | nil =>
    rw [emitQuery]
    exact mirrors_pure _
  | cons p rest ih =>
    rw [emitQuery]
    apply ((mirrors_queryArgument p).within _).bind
    intro _
    exact ih.bind fun _ => mirrors_pure _

theorem Emit.Mirrors.structWith {m m' : Emit (List Field)} {name : String}
    {description description' : Option String} {embeds : Bool} (hm : Mirrors r id m m')
    (hr : ∀ fields, r (.struct ⟨name, description, embeds, fields⟩) =
      .struct ⟨name, description', embeds, fields⟩) :
    Mirrors r id (structWith name description embeds m) (structWith name description' embeds m') :=
  (mirrors_requireFree name).bind fun _ => hm.bind fun fields => mirrors_declare (hr fields)

section Definitions

variable
  (hd : ∀ reference, d'.definition reference = (d.definition reference).map fun p => (p.1, t p.2))
  (h : Rewording t r)

include hd

theorem mirrors_definitionType (reference : String) :
    Mirrors r id (definitionType d reference) (definitionType d' reference) := by
  unfold definitionType
  rw [hd reference]
  exact (mirrors_ofResolved _).bind fun _ => mirrors_pure _

omit hd in
theorem mirrors_fields (parent : String) (required : List String)
    (hp : ∀ p ∈ properties, ∀ isRequired,
      Mirrors r id (fieldType d parent p.1 isRequired p.2)
        (fieldType d' parent p.1 isRequired (t p.2))) :
    Mirrors r id (fieldsOf d parent required properties)
      (fieldsOf d' parent required (properties.map fun p => (p.1, t p.2))) := by
  induction properties with
  | nil =>
    rw [fieldsOf, List.map_nil, fieldsOf]
    exact mirrors_pure _
  | cons p rest ih =>
    obtain ⟨property, s⟩ := p
    obtain ⟨hs, hrest⟩ := List.forall_mem_cons.mp hp
    rw [fieldsOf, List.map_cons, fieldsOf]
    apply ((hs _).within _).bind
    intro _
    exact (ih hrest).bind fun _ => mirrors_pure _

include h

omit hd in
theorem mirrors_struct (name : String) (embeds : Bool)
    (hp : ∀ p ∈ s.properties, ∀ isRequired,
      Mirrors r id (fieldType d name p.1 isRequired p.2)
        (fieldType d' name p.1 isRequired (t p.2))) :
    Mirrors r id (structWith name s.description embeds (fieldsOf d name s.required s.properties))
      (structWith name (t s).description embeds
        (fieldsOf d' name (t s).required (t s).properties)) := by
  rw [h.required, h.properties]
  exact (mirrors_fields name s.required hp).structWith fun _ => h.struct s _ _ _

theorem mirrors_elementOf (name : String)
    (hp : ∀ p ∈ s.properties, ∀ parent property isRequired,
      Mirrors r id (fieldType d parent property isRequired p.2)
        (fieldType d' parent property isRequired (t p.2))) :
    Mirrors r id (elementOf d name s) (elementOf d' name (t s)) := by
  rw [elementOf_eq, elementOf_eq, h.kind]
  cases s.kind with
  | reference reference => exact mirrors_definitionType hd reference
  | primitive p => exact mirrors_pure _
  | object =>
    have hstruct := mirrors_struct h name false fun p hm => hp p hm name p.1
    exact hstruct.bind fun _ => mirrors_pure _
  | array | unhandled => exact mirrors_fail _

omit hd in
theorem mirrors_elementType (s : Schema) (name : String)
    (hitem : ∀ item, s.singleItems = some item →
      Mirrors r id (elementOf d name item) (elementOf d' name (t item))) :
    Mirrors r id (elementType d name s.items) (elementType d' name (t s).items) := by
  rw [elementType_eq, elementType_eq, h.singleItems]
  cases hi : s.singleItems with
  | none => exact mirrors_fail _
  | some item => exact hitem item hi

theorem mirrors_fieldType (s : Schema) : ∀ parent property isRequired,
    Mirrors r id (fieldType d parent property isRequired s)
      (fieldType d' parent property isRequired (t s)) := by
  induction s using Schema.induction with
  | step s hproperties hitems =>
    intro parent property isRequired
    rw [fieldType_eq, fieldType_eq, h.kind]
    cases s.kind with
    | reference reference =>
      exact (mirrors_definitionType hd reference).bind fun _ => mirrors_pure _
    | primitive p => exact mirrors_pure _
    | object =>
      have hstruct := mirrors_struct h (nestedTypeName parent property) false
        fun p hm => hproperties p hm _ p.1
      exact hstruct.bind fun _ => mirrors_pure _
    | array =>
      have hitem := mirrors_elementType h s (elementTypeName parent property)
        fun item hi => mirrors_elementOf hd h _ (hitems item hi).2
      apply hitem.bind
      intro element
      dsimp only [id]
      split
      · exact mirrors_pure _
      · exact mirrors_pure _
    | unhandled => exact mirrors_fail _

theorem mirrors_emitStruct (name : String) (s : Schema) (embeds : Bool) :
    Mirrors r id (emitStruct d name s embeds) (emitStruct d' name (t s) embeds) :=
  mirrors_struct h name embeds fun p _ => mirrors_fieldType hd h p.2 name p.1

theorem mirrors_emitNamed (name : String) (s : Schema) :
    Mirrors r id (emitNamed d name s) (emitNamed d' name (t s)) := by
  apply (mirrors_requireFree name).bind
  intro _
  rw [h.kind]
  cases s.kind with
  | object => exact mirrors_emitStruct hd h name s false
  | reference reference =>
    exact (mirrors_definitionType hd reference).bind fun _ => mirrors_declare (h.named s _ _ _)
  | array =>
    have hitem := mirrors_elementType h s (name ++ "Item")
      fun item _ => mirrors_elementOf hd h _ fun p _ => mirrors_fieldType hd h p.2
    exact hitem.bind fun _ => mirrors_declare (h.named s _ _ _)
  | primitive p => exact mirrors_declare (h.named s _ _ _)
  | unhandled =>
    dsimp only
    rw [h.types]
    split
    · exact mirrors_declare (h.struct s _ _ _)
    · exact mirrors_fail _

theorem mirrors_emitErrorType (name : String) (s : Option Schema) :
    Mirrors r id (emitErrorType d name s) (emitErrorType d' name (s.map t)) := by
  cases s with
  | none => exact mirrors_declare (h.plainStruct _ _ _)
  | some s =>
    unfold emitErrorType
    dsimp only [Option.map]
    rw [h.kind]
    cases s.kind with
    | object => exact mirrors_emitStruct hd h name s true
    | reference reference => exact mirrors_declare (h.plainStruct _ _ _)
    | array | primitive | unhandled => exact mirrors_fail _

theorem mirrors_emitSuccessType (name : String) (s : Option Schema) :
    Mirrors r id (emitSuccessType d name s) (emitSuccessType d' name (s.map t)) := by
  cases s with
  | none => exact mirrors_declare (h.plainStruct _ _ _)
  | some s => exact mirrors_emitNamed hd h name s

theorem mirrors_emitDefinitions (definitions : Members Schema) :
    Mirrors r id (emitDefinitions d definitions)
      (emitDefinitions d' (definitions.map fun p => (p.1, t p.2))) := by
  induction definitions with
  | nil =>
    rw [emitDefinitions, List.map_nil, emitDefinitions]
    exact mirrors_pure _
  | cons p rest ih =>
    obtain ⟨name, s⟩ := p
    rw [emitDefinitions, List.map_cons, emitDefinitions]
    exact ((mirrors_emitNamed hd h _ s).within _).bind fun _ => ih

theorem mirrors_bodyType (operation : String) {p p' : Parameter}
    (hp : p'.schema = p.schema.map t) :
    Mirrors r id (bodyType d operation p) (bodyType d' operation p') := by
  unfold bodyType
  rw [hp]
  cases p.schema with
  | none => exact mirrors_fail _
  | some s =>
    have hreference : (t s).referenceName = s.referenceName := by
      simp [Schema.referenceName, h.reference]
    have htype : (t s).hasType .object = s.hasType .object := by
      simp [Schema.hasType, h.types]
    dsimp only [Option.map]
    rw [hreference, htype, h.properties, List.isEmpty_map]
    cases s.referenceName with
    | some reference => exact (mirrors_definitionType hd reference).bind fun _ => mirrors_pure _
    | none =>
      dsimp only
      split
      · exact mirrors_fail _
      · exact (mirrors_emitStruct hd h _ s false).bind fun _ => mirrors_pure _

theorem mirrors_emitBody (operation : String) {body body' : Option Parameter}
    (hbody : Option.Rel (fun p p' => p'.name = p.name ∧ p'.schema = p.schema.map t) body body') :
    Mirrors r id (emitBody d operation body) (emitBody d' operation body') := by
  cases hbody with
  | none => exact mirrors_pure _
  | some hp =>
    unfold emitBody
    dsimp only
    rw [hp.1]
    apply ((mirrors_bodyType hd h operation hp.2).within _).bind
    intro _
    exact (mirrors_addImport _).bind fun _ => mirrors_pure _

theorem mirrors_emitResponses (operation : String) (successes : Nat)
    {responses responses' : List (Nat × Response)}
    (hr : List.Forall₂ (fun q q' => q'.1 = q.1 ∧ q'.2.schema = q.2.schema.map t)
      responses responses') :
    Mirrors r id (emitResponses d operation successes responses)
      (emitResponses d' operation successes responses') := by
  induction hr with
  | nil =>
    rw [emitResponses, emitResponses]
    exact mirrors_pure _
  | @cons q q' rest rest' hq _ ih =>
    obtain ⟨code, response⟩ := q
    obtain ⟨code', response'⟩ := q'
    obtain ⟨rfl, hschema⟩ := hq
    dsimp only at hschema
    rw [emitResponses, emitResponses, hschema]
    apply Mirrors.bind
    · apply Mirrors.within
      split
      · exact mirrors_emitSuccessType hd h _ _
      · exact mirrors_emitErrorType hd h _ _
    · intro _
      exact ih.bind fun _ => mirrors_pure _

end Definitions

end ApiContract.GoClient
