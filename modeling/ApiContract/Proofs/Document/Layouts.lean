import ApiContract.Proofs.Source.Layout
import ApiContract.Proofs.Schema.SortedText

namespace ApiContract

open Source

variable {n : Nat} {access : Access}

theorem present_map {α : Type} (name : String) (write : α → Json) (a : Option α) :
    present name id (a.map write) = present name write a := by
  cases a <;> rfl

theorem present_some (name : String) (j : Json) : present name id (some j) = [(name, j)] := rfl

theorem present_ite {p : Prop} [Decidable p] (name : String) (j : Json) :
    present name id (if p then none else some j) = if p then [] else [(name, j)] := by
  split <;> rfl

theorem map_id_symm {α : Type} (a : Option α) : a = a.map id :=
  (congrFun Option.map_id a).symm

namespace Parameter

def layout (ha : access ≠ .yaml) : (reader access).Layout where
  fields := [
    .always (.required "name" .value) (·.name) (fun p x => { p with name := x }) (fun _ _ => rfl)
      (Source.text access) .string "" rfl,
    .always (.required "in" .name) (·.location) (fun p x => { p with location := x })
      (fun _ _ => rfl) (Location.read access) (fun l => .string l.label) .path
      (by cases access <;> first | rfl | exact absurd rfl ha),
    .optional "description" .value (·.description) (fun p x => { p with description := x })
      (fun _ _ => rfl) access (Source.text access) .string id,
    .always (.filledIn "required" (.bool false)) (·.required) (fun p x => { p with required := x })
      (fun _ _ => rfl) (Source.flag access) .bool false rfl,
    .optional "type" .name (·.type) (fun p x => { p with type := x }) (fun _ _ => rfl) access
      (TypeName.read access) TypeName.json id,
    .optional "format" .value (·.format) (fun p x => { p with format := x }) (fun _ _ => rfl) access
      (Source.text access) .string id,
    .optional "schema" .schema (·.schema) (fun p x => { p with schema := x }) (fun _ _ => rfl)
      access
      (Schema.read access) Schema.json id]
  extra := (·.extra)
  keep p name j := { p with extra := Members.insert p.extra name j }
  write := json
  again := id
  known := rfl
  nodup := by simp [reader]
  within := by
    simp only [List.forall_mem_cons]
    exact ⟨{ filled := fun h => absurd (by simp [reader]) h },
      { filled := fun h => absurd (by simp [reader]) h },
      { get_again := fun _ => map_id_symm _ }, {},
      { get_again := fun _ => map_id_symm _ }, { get_again := fun _ => map_id_symm _ },
      { get_again := fun _ => map_id_symm _ }, nofun⟩
  get_put_of_ne := by simp
  keep_eq := rfl
  extra_keep _ _ _ := rfl
  extra_start := rfl
  extra_again _ := rfl
  required := by simp [reader]
  write_eq p := by simp [json, FieldOf.member, present_map, present_some]
  ext := by
    rintro ⟨_, _, _, _, _, _, _, _⟩ ⟨_, _, _, _, _, _, _, _⟩
    simp +contextual

end Parameter

namespace Response

def layout (access : Access) : (reader access).Layout where
  fields := [
    .skipping ⟨"description", .value, [.string ""], none⟩ (·.description)
      (fun r x => { r with description := x }) (fun _ _ => rfl) (Source.text access) .string
      (· = "") id "" rfl rfl,
    .optional "schema" .schema (·.schema) (fun r x => { r with schema := x }) (fun _ _ => rfl)
      access
      (Schema.read access) Schema.json id]
  extra := (·.extra)
  keep r name j := { r with extra := Members.insert r.extra name j }
  write := json
  again := id
  known := rfl
  nodup := by simp [reader]
  within := by
    simp only [List.forall_mem_cons]
    exact ⟨{}, { get_again := fun _ => map_id_symm _ }, nofun⟩
  get_put_of_ne := by simp
  keep_eq := rfl
  extra_keep _ _ _ := rfl
  extra_start := rfl
  extra_again _ := rfl
  required := nofun
  write_eq r := by simp [json, FieldOf.member, present_map, present_ite]
  ext := by
    rintro ⟨_, _, _⟩ ⟨_, _, _⟩
    simp +contextual

end Response

/-- The reference that an inline parameter keeps without being one, as it does if the name of the
reference was given more than once. -/
def Parameter.hiddenReference (p : Parameter) : Option String :=
  match p.extra.find? "$ref" with
  | some (.string path) => some path
  | _ => none

/-- The entry after it was written and read again. -/
def ParameterEntry.reread : ParameterEntry → ParameterEntry
  | reference path => .reference path
  | inline p =>
    match p.hiddenReference with
    | some path => .reference path
    | none => .inline p

namespace Operation

def reread (op : Operation) : Operation :=
  { op with parameters := op.parameters.map ParameterEntry.reread }

def layout (access : Access) : (reader access).Layout where
  fields := [
    .optional "operationId" .value (·.identifier) (fun op x => { op with identifier := x })
      (fun _ _ => rfl) access (Source.text access) .string id,
    .optional "summary" .value (·.summary) (fun op x => { op with summary := x }) (fun _ _ => rfl)
      access (Source.text access) .string id,
    .optional "description" .value (·.description) (fun op x => { op with description := x })
      (fun _ _ => rfl) access (Source.text access) .string id,
    .listed "tags" .value (·.tags) (fun op x => { op with tags := x }) (fun _ _ => rfl) access
      (Source.text access) .string id,
    .listed "parameters" .entry (·.parameters) (fun op x => { op with parameters := x })
      (fun _ _ => rfl) access ParameterEntry.read ParameterEntry.json ParameterEntry.reread,
    .mapped "responses" .response (·.responses) (fun op x => { op with responses := x })
      (fun _ _ => rfl) access (Response.read access) Response.json id,
    .optional "deprecated" .value (·.deprecated) (fun op x => { op with deprecated := x })
      (fun _ _ => rfl) access (Source.flag access) .bool id]
  extra := (·.extra)
  keep op name j := { op with extra := Members.insert op.extra name j }
  write := json
  again := reread
  known := rfl
  nodup := by simp [reader]
  within := by
    simp only [List.forall_mem_cons]
    exact ⟨{ get_again := fun _ => map_id_symm _ }, { get_again := fun _ => map_id_symm _ },
      { get_again := fun _ => map_id_symm _ }, { get_again := fun _ => (List.map_id _).symm }, {},
      { get_again := fun _ => (List.map_id _).symm }, { get_again := fun _ => map_id_symm _ },
      nofun⟩
  get_put_of_ne := by simp
  keep_eq := rfl
  extra_keep _ _ _ := rfl
  extra_start := rfl
  extra_again _ := rfl
  required := nofun
  write_eq op := by
    simp [json, FieldOf.member, present_map, present_ite, listMember, mapMember]
  ext := by
    rintro ⟨_, _, _, _, _, _, _, _⟩ ⟨_, _, _, _, _, _, _, _⟩
    simp +contextual

end Operation

namespace PathItem

def reread (item : PathItem) : PathItem :=
  { parameters := item.parameters.map ParameterEntry.reread
    get := item.get.map Operation.reread
    put := item.put.map Operation.reread
    post := item.post.map Operation.reread
    delete := item.delete.map Operation.reread
    options := item.options.map Operation.reread
    head := item.head.map Operation.reread
    patch := item.patch.map Operation.reread
    extra := item.extra }

/-- The field of a method. -/
@[simp] def fieldOf (access : Access) (m : Method) : FieldOf PathItem :=
  .optional m.key .operation (·.operation m) (·.setOperation m)
    (fun item => operation_setOperation item m) access (Operation.read access) Operation.json
    Operation.reread

theorem within_fieldOf (m : Method) :
    (fieldOf access m).Within (reader access) (·.extra)
      (fun item name j => { item with extra := Members.insert item.extra name j }) reread := by
  cases m <;> exact {}

def layout (access : Access) : (reader access).Layout where
  fields := .listed "parameters" .entry (·.parameters) (fun item x => { item with parameters := x })
      (fun _ _ => rfl) access ParameterEntry.read ParameterEntry.json ParameterEntry.reread ::
    Method.all.map (fieldOf access)
  extra := (·.extra)
  keep item name j := { item with extra := Members.insert item.extra name j }
  write := json
  again := reread
  known := rfl
  nodup := by simp [reader, Method.all, Method.key]
  within := by
    rw [List.forall_mem_cons, List.forall_mem_map]
    exact ⟨{}, fun m _ => within_fieldOf m⟩
  get_put_of_ne := by
    simp [Method.all, Method.key, operation, setOperation]
  keep_eq := rfl
  extra_keep _ _ _ := rfl
  extra_start := rfl
  extra_again _ := rfl
  required := nofun
  write_eq item := by
    simp [json, FieldOf.member, present_map, present_ite, listMember, Method.all]
  ext := by
    rintro ⟨_, _, _, _, _, _, _, _, _⟩ ⟨_, _, _, _, _, _, _, _, _⟩
    simp +contextual [Method.all, operation]

end PathItem

namespace Info

def layout (access : Access) : (reader access).Layout where
  fields := [
    .always (.filledIn "title" (.string "")) (·.title) (fun i x => { i with title := x })
      (fun _ _ => rfl) (Source.text access) .string "" rfl,
    .optional "description" .value (·.description) (fun i x => { i with description := x })
      (fun _ _ => rfl) access (Source.text access) .string id,
    .always (.filledIn "version" (.string "")) (·.version) (fun i x => { i with version := x })
      (fun _ _ => rfl) (Source.text access) .string "" rfl]
  extra := (·.extra)
  keep i name j := { i with extra := Members.insert i.extra name j }
  write := json
  again := id
  known := rfl
  nodup := by simp [reader]
  within := by
    simp only [List.forall_mem_cons]
    exact ⟨{}, { get_again := fun _ => map_id_symm _ }, {}, nofun⟩
  get_put_of_ne := by simp
  keep_eq := rfl
  extra_keep _ _ _ := rfl
  extra_start := rfl
  extra_again _ := rfl
  required := nofun
  write_eq i := by simp [json, FieldOf.member, present_map, present_some]
  ext := by
    rintro ⟨_, _, _, _⟩ ⟨_, _, _, _⟩
    simp +contextual

end Info

namespace Document

def reread (d : Document) : Document :=
  { d with paths := d.paths.map fun p => (p.1, p.2.reread) }

def layout (access : Access) : (reader access).Layout where
  fields := [
    .always (.required "swagger" .value) (·.swagger) (fun d x => { d with swagger := x })
      (fun _ _ => rfl) (Source.text access) .string "" rfl,
    .optional "info" .info (·.info) (fun d x => { d with info := x }) (fun _ _ => rfl) access
      (Info.read access) Info.json id,
    .optional "host" .value (·.host) (fun d x => { d with host := x }) (fun _ _ => rfl) access
      (Source.text access) .string id,
    .optional "basePath" .value (·.basePath) (fun d x => { d with basePath := x }) (fun _ _ => rfl)
      access (Source.text access) .string id,
    .mapped "paths" .pathItem (·.paths) (fun d x => { d with paths := x }) (fun _ _ => rfl) access
      (PathItem.read access) PathItem.json PathItem.reread,
    .mapped "definitions" .schema (·.definitions) (fun d x => { d with definitions := x })
      (fun _ _ => rfl) access (Schema.read access) Schema.json id,
    .mapped "parameters" .parameter (·.parameters) (fun d x => { d with parameters := x })
      (fun _ _ => rfl) access (Parameter.read access) Parameter.json id]
  extra := (·.extra)
  keep d name j := { d with extra := Members.insert d.extra name j }
  write := json
  again := reread
  known := rfl
  nodup := by simp [reader]
  within := by
    simp only [List.forall_mem_cons]
    exact ⟨{ filled := fun h => absurd (by simp [reader]) h },
      { get_again := fun _ => map_id_symm _ }, { get_again := fun _ => map_id_symm _ },
      { get_again := fun _ => map_id_symm _ }, {}, { get_again := fun _ => (List.map_id _).symm },
      { get_again := fun _ => (List.map_id _).symm }, nofun⟩
  get_put_of_ne := by simp
  keep_eq := rfl
  extra_keep _ _ _ := rfl
  extra_start := rfl
  extra_again _ := rfl
  required := by simp [reader]
  write_eq d := by
    simp [json, FieldOf.member, present_map, present_ite, present_some, mapMember]
  ext := by
    rintro ⟨_, _, _, _, _, _, _, _⟩ ⟨_, _, _, _, _, _, _, _⟩
    simp +contextual

end Document

end ApiContract
