import ApiContract.Proofs.Json.Tokens

namespace ApiContract

/-- What a place of a document is for. -/
inductive Shape where
  /-- Nothing that needs more than its own type: a text, a flag, or what is not interpreted. -/
  | value
  /-- One of several names. -/
  | name
  | types
  | items
  | schema
  | parameter
  /-- A parameter of an operation, inline or by reference. -/
  | entry
  | response
  | operation
  | pathItem
  | info
  | document
  | list (item : Shape)
  | map (item : Shape)

/-- A member that a part of a document knows. -/
structure Field where
  name : String
  shape : Shape
  /-- The values for which the field may be left out. -/
  blank : List Json
  /-- What is written for the field where it is missing. -/
  filled : Option Json

namespace Field

@[simp] def required (name : String) (shape : Shape) : Field := ⟨name, shape, [], none⟩

@[simp] def filledIn (name : String) (value : Json) : Field := ⟨name, .value, [], some value⟩

@[simp] def optional (name : String) (shape : Shape) : Field := ⟨name, shape, [.null], none⟩

@[simp] def listed (name : String) (item : Shape) : Field := ⟨name, .list item, [.array []], none⟩

@[simp] def mapped (name : String) (item : Shape) : Field := ⟨name, .map item, [.object []], none⟩

end Field

/-- The fields of each part of a document. -/
def Shape.fields : Shape → Option (List Field)
  | schema => some [
    .optional "$ref" .value, .optional "type" .types, .optional "format" .value,
    .optional "description" .value, .optional "nullable" .value, .mapped "properties" .schema,
    .listed "required" .value, .optional "items" .items]
  | parameter => some [
    .required "name" .value, .required "in" .name, .optional "description" .value,
    .filledIn "required" (.bool false), .optional "type" .name, .optional "format" .value,
    .optional "schema" .schema]
  | response => some [⟨"description", .value, [.string ""], none⟩, .optional "schema" .schema]
  | operation => some [
    .optional "operationId" .value, .optional "summary" .value, .optional "description" .value,
    .listed "tags" .value, .listed "parameters" .entry, .mapped "responses" .response,
    .optional "deprecated" .value]
  | pathItem => some (.listed "parameters" .entry ::
    ["get", "put", "post", "delete", "options", "head", "patch"].map (.optional · .operation))
  | info => some [
    .filledIn "title" (.string ""), .optional "description" .value,
    .filledIn "version" (.string "")]
  | document => some [
    .required "swagger" .value, .optional "info" .info, .optional "host" .value,
    .optional "basePath" .value, .mapped "paths" .pathItem, .mapped "definitions" .schema,
    .mapped "parameters" .parameter]
  | _ => none

/-- What stands in a place after writing, and what stood there before. Members have their names to
themselves on both sides; their order may change. -/
inductive Carried : Shape → Json → Json → Prop
  | value (v : Json) : Carried .value v v
  | list {item : Shape} {vs ws : List Json} (length : vs.length = ws.length)
    (items : ∀ (i : Nat) (v w : Json), vs[i]? = some v → ws[i]? = some w → Carried item v w) :
    Carried (.list item) (.array vs) (.array ws)
  | map {item : Shape} {ms ns : Members Json} (nodup : ms.names.Nodup) (names : ns.names = ms.names)
    (values : ∀ (name : String) (v w : Json),
      ms.find? name = some v → ns.find? name = some w → Carried item v w) :
    Carried (.map item) (.object ms) (.object ns)
  /-- Members that are no fields are kept as they are. A field is carried, or left out for a blank
  value; one that is missing stays so or is filled in. -/
  | record {part : Shape} {fields : List Field} {ms ns : Members Json}
    (known : part.fields = some fields) (before : ms.names.Nodup) (after : ns.names.Nodup)
    (unknown : ∀ name, name ∉ fields.map Field.name → ns.find? name = ms.find? name)
    (missing : ∀ field ∈ fields, ms.find? field.name = none → ns.find? field.name = field.filled)
    (left : ∀ field ∈ fields, ∀ v,
      ms.find? field.name = some v → ns.find? field.name = none → v ∈ field.blank)
    (given : ∀ field ∈ fields, ∀ v w,
      ms.find? field.name = some v → ns.find? field.name = some w → Carried field.shape v w) :
    Carried part (.object ms) (.object ns)
  | name (s : String) : Carried .name (.string s) (.string s)
  /-- A name may be given as the only member of an object. -/
  | nameAlone (s : String) : Carried .name (.object [(s, .null)]) (.string s)
  | oneType {v w : Json} (type : Carried .name v w) : Carried .types v w
  | severalTypes {v w : Json} (types : Carried (.list .name) v w) : Carried .types v w
  | oneForAll {v w : Json} (schema : Carried .schema v w) : Carried .items v w
  | oneForEach {v w : Json} (schemas : Carried (.list .schema) v w) : Carried .items v w
  | inline {v w : Json} (parameter : Carried .parameter v w) : Carried .entry v w
  /-- Of a parameter by reference only the reference is kept. -/
  | reference {ms : Members Json} {path : String} (given : ms.find? "$ref" = some (.string path)) :
    Carried .entry (.object ms) (.object [("$ref", .string path)])

namespace Carried

variable {shape part : Shape} {v w : Json}

theorem eq_of_filled {fields : List Field} (h : part.fields = some fields) :
    ∀ field ∈ fields, ∀ w, field.filled = some w → w = .bool false ∨ w = .string "" := by
  unfold Shape.fields at h
  split at h <;> cases h <;>
    simp [Field.required, Field.filledIn, Field.optional, Field.listed, Field.mapped]

theorem exists_item {vs ws : List Json} (length : vs.length = ws.length) (hw : w ∈ ws) :
    ∃ i : Nat, ∃ v ∈ vs, vs[i]? = some v ∧ ws[i]? = some w := by
  obtain ⟨i, hi⟩ := List.mem_iff_getElem?.mp hw
  obtain ⟨hlt, -⟩ := List.getElem?_eq_some_iff.mp hi
  have hv : vs[i]? = some vs[i] := List.getElem?_eq_getElem (length ▸ hlt)
  exact ⟨i, vs[i], List.getElem_mem _, hv, hi⟩

theorem exists_value {ms ns : Members Json} (nodup : ms.names.Nodup) (names : ns.names = ms.names)
    {p : String × Json} (hp : p ∈ ns) :
    ∃ v, (p.1, v) ∈ ms ∧ ms.find? p.1 = some v ∧ ns.find? p.1 = some p.2 := by
  obtain ⟨v, hv⟩ : ∃ v, ms.find? p.1 = some v := by
    rw [← Option.isSome_iff_exists, ← Members.mem_names_iff, ← names]
    exact List.mem_map_of_mem hp
  exact ⟨v, Members.mem_of_find? hv, hv, Members.find?_of_mem (names ▸ nodup) hp⟩

/-- A member of a part that was written was there before, is filled in, or is written for a
field. -/
theorem of_mem_record {fields : List Field} {ms ns : Members Json} (after : ns.names.Nodup)
    (unknown : ∀ name, name ∉ fields.map Field.name → ns.find? name = ms.find? name)
    (missing : ∀ field ∈ fields, ms.find? field.name = none → ns.find? field.name = field.filled)
    {p : String × Json} (hp : p ∈ ns) :
    p ∈ ms ∨ (∃ field ∈ fields, field.filled = some p.2) ∨
      ∃ field ∈ fields, ∃ v, (field.name, v) ∈ ms ∧ ms.find? field.name = some v ∧
        ns.find? field.name = some p.2 := by
  have hn := Members.find?_of_mem after hp
  by_cases hf : p.1 ∈ fields.map Field.name
  · obtain ⟨field, hfield, hname⟩ := List.mem_map.mp hf
    rw [← hname] at hn
    cases hv : ms.find? field.name with
    | none => exact .inr (.inl ⟨field, hfield, missing field hfield hv ▸ hn⟩)
    | some v => exact .inr (.inr ⟨field, hfield, v, Members.mem_of_find? hv, hv, hn⟩)
  · exact .inl (Members.mem_of_find? (unknown p.1 hf ▸ hn))

/-- What is written is no deeper than what was there. -/
theorem depth_le (h : Carried shape v w) : w.depth ≤ v.depth := by
  induction h with
  | value v => exact Nat.le_refl _
  | @list _ vs ws length _ ih =>
    refine Nat.succ_le_succ (Json.depthOfList_le_iff.mpr fun w hw => ?_)
    obtain ⟨i, v, hmem, hv, hw⟩ := exists_item length hw
    exact Nat.le_trans (ih i v w hv hw) (Json.depthOfList_le_iff.mp (Nat.le_refl _) v hmem)
  | @map _ ms ns nodup names _ ih =>
    refine Nat.succ_le_succ (Json.depthOfMembers_le_iff.mpr fun p hp => ?_)
    obtain ⟨v, hmem, hv, hw⟩ := exists_value nodup names hp
    exact Nat.le_trans (ih p.1 v p.2 hv hw) (Json.depthOfMembers_le_iff.mp (Nat.le_refl _) _ hmem)
  | @record _ fields ms ns known _ after unknown missing _ _ ih =>
    have hle := Json.depthOfMembers_le_iff.mp (Nat.le_refl (Json.depthOfMembers ms))
    refine Nat.succ_le_succ (Json.depthOfMembers_le_iff.mpr fun p hp => ?_)
    rcases of_mem_record after unknown missing hp with
      hmem | ⟨field, hfield, hw⟩ | ⟨field, hfield, v, hmem, hv, hw⟩
    · exact hle p hmem
    · rcases eq_of_filled known field hfield _ hw with he | he <;>
        rw [he] <;> exact Nat.zero_le _
    · exact Nat.le_trans (ih field hfield v p.2 hv hw) (hle _ hmem)
  | name s => exact Nat.le_refl _
  | nameAlone s => exact Nat.zero_le _
  | oneType _ ih | severalTypes _ ih | oneForAll _ ih | oneForEach _ ih | inline _ ih => exact ih
  | reference => simp [Json.depth, Json.depthOfMembers]

/-- No number is written that was not there before. -/
theorem mem_numbers (h : Carried shape v w) {n : Number} (hn : n ∈ w.numbers) : n ∈ v.numbers := by
  induction h with
  | value v => exact hn
  | list length _ ih =>
    obtain ⟨w, hw, hn⟩ := Json.mem_numbersOfList.mp hn
    obtain ⟨i, v, hmem, hv, hw⟩ := exists_item length hw
    exact Json.mem_numbersOfList.mpr ⟨v, hmem, ih i v w hv hw hn⟩
  | map nodup names _ ih =>
    obtain ⟨p, hp, hn⟩ := Json.mem_numbersOfMembers.mp hn
    obtain ⟨v, hmem, hv, hw⟩ := exists_value nodup names hp
    exact Json.mem_numbersOfMembers.mpr ⟨_, hmem, ih p.1 v p.2 hv hw hn⟩
  | record known _ after unknown missing _ _ ih =>
    obtain ⟨p, hp, hn⟩ := Json.mem_numbersOfMembers.mp hn
    rcases of_mem_record after unknown missing hp with
      hmem | ⟨field, hfield, hw⟩ | ⟨field, hfield, v, hmem, hv, hw⟩
    · exact Json.mem_numbersOfMembers.mpr ⟨p, hmem, hn⟩
    · rcases eq_of_filled known field hfield _ hw with he | he <;> rw [he] at hn <;> cases hn
    · exact Json.mem_numbersOfMembers.mpr ⟨_, hmem, ih field hfield v p.2 hv hw hn⟩
  | name | nameAlone | reference => cases hn
  | oneType _ ih | severalTypes _ ih | oneForAll _ ih | oneForEach _ ih | inline _ ih => exact ih hn

end Carried

end ApiContract
