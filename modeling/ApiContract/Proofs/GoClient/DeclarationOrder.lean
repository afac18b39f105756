import ApiContract.Proofs.Document.StatusCodes
import ApiContract.Proofs.GoClient.Declarations
import ApiContract.Proofs.Text.ByteOrder

namespace ApiContract.GoClient

open Emit Naming

/-- What a name is declared as. -/
inductive Role where
  | type
  | method
deriving DecidableEq

def Declaration.role : Declaration → Role
  | .method _ => .method
  | _ => .type

def roles (declarations : Members Declaration) : Members Role :=
  declarations.map fun p => (p.1, p.2.role)

/-- The type of a schema after the types of the objects within it. -/
def typeRoles (objects : Members Schema) (name : String) : Members Role :=
  (objects.names ++ [name]).map (·, .type)

def definitionRoles (p : String × Schema) : Members Role :=
  typeRoles (objectsWithin (camelCase p.1) p.2) (camelCase p.1)

/-- The parameter of an operation that is its body. -/
def bodyOf (d : Document) (item : PathItem) (op : Operation) : Option Parameter :=
  (d.operationParameters item op).toOption.bind fun ps => ps.find? (·.location = .body)

def requestRoles (operation : String) (body : Option Parameter) : Members Role :=
  (inlineBody body).toList.flatMap fun s =>
    typeRoles (objectsOfProperties (requestTypeName operation) s.properties)
      (requestTypeName operation)

def responseRoles (operation : String) (successes : Nat) (q : Nat × Response) : Members Role :=
  let name := responseTypeName operation successes q.1
  typeRoles ((q.2.schema.map (objectsWithin name)).getD []) name

def operationRoles (d : Document) (path : String) (item : PathItem) (method : Method)
    (op : Operation) : Members Role :=
  let name := operationName op.identifier method.name path
  requestRoles name (bodyOf d item op) ++
    op.statusCodes.flatMap (responseRoles name (successesOf op)) ++ [(name, .method)]

def pathRoles (d : Document) (p : String × PathItem) : Members Role :=
  [Method.get, .put, .post, .delete, .options, .head, .patch].flatMap fun method =>
    (p.2.operation method).toList.flatMap (operationRoles d p.1 p.2 method)

/-- All that is called for, definitions and paths by name. -/
def calledFor (d : Document) : Members Role :=
  [("Client", .type), ("ErrorResponse", .type)] ++ d.sortedDefinitions.flatMap definitionRoles ++
    d.sortedPaths.flatMap (pathRoles d)

variable {d : Document} {operation path name : String} {options : Options} {item : PathItem}
  {method : Method} {op : Operation} {added : Members Declaration} {file : File Declaration}

@[simp] theorem roles_append (first second : Members Declaration) :
    roles (first ++ second) = roles first ++ roles second :=
  List.map_append

theorem names_roles (declarations : Members Declaration) :
    (roles declarations).names = declarations.names := by
  simp [roles, Members.names]

theorem role_typeDeclaration (name : String) (s : Schema) :
    (typeDeclaration name s).role = .type := by
  unfold typeDeclaration
  cases s.kind <;> rfl

theorem role_successDeclaration (name : String) (s : Option Schema) :
    (successDeclaration name s).role = .type := by
  cases s with
  | none => rfl
  | some s => exact role_typeDeclaration name s

theorem role_failureDeclaration (name : String) (s : Option Schema) :
    (failureDeclaration name s).role = .type := by
  cases s <;> rfl

theorem roles_structs {declaration : Declaration} (objects : Members Schema)
    (h : declaration.role = .type) :
    roles (structs objects ++ [(name, declaration)]) = typeRoles objects name := by
  have hstruct : ∀ s, (Declaration.struct s).role = .type := fun _ => rfl
  simp [roles, structs, typeRoles, Members.names, h, hstruct]

theorem roles_definitionTypes (p : String × Schema) :
    roles (definitionTypes p) = definitionRoles p :=
  roles_structs _ (role_typeDeclaration _ _)

theorem roles_requestTypes (operation : String) (body : Option Parameter) :
    roles (requestTypes operation body) = requestRoles operation body := by
  unfold requestTypes requestRoles
  cases inlineBody body with
  | none => rfl
  | some s =>
    simp only [Option.toList_some, List.flatMap_cons, List.flatMap_nil, List.append_nil]
    exact roles_structs _ rfl

theorem roles_responseTypes (operation : String) (successes : Nat) (q : Nat × Response) :
    roles (responseTypes operation successes q) = responseRoles operation successes q := by
  apply roles_structs
  split
  · exact role_successDeclaration _ _
  · exact role_failureDeclaration _ _

theorem roles_flatMap {α : Type} {f : α → Members Declaration} {g : α → Members Role}
    (h : ∀ a, roles (f a) = g a) (as : List α) : roles (as.flatMap f) = as.flatMap g := by
  induction as with
  | nil => rfl
  | cons a rest ih => simp [List.flatMap_cons, h, ih]

theorem body_of_sortInputs {sorted : Inputs} {parameters : List Parameter}
    (h : sortInputs {} parameters = .ok sorted) :
    sorted.body = parameters.find? (·.location = .body) := by
  have hbody : sorted.body.toList = parameters.filter (·.location = .body) :=
    (filters_of_sortInputs h).2.2
  rw [← List.head?_filter, ← hbody]
  simp

theorem body_eq_bodyOf {inputs : Inputs} {parameters : List Parameter}
    (hp : d.operationParameters item op = .ok parameters)
    (hi : sortInputs {} parameters = .ok inputs) : inputs.body = bodyOf d item op := by
  rw [body_of_sortInputs hi, bodyOf, hp]
  rfl

theorem OperationDeclared.roles_eq (h : OperationDeclared d path method item op added) :
    roles added = operationRoles d path item method op := by
  cases h with
  | @intro parameters inputs _ _ name hname hp hi _ _ =>
    have hbody := body_eq_bodyOf hp hi
    rw [roles_append, roles_append, roles_requestTypes, responsesTypes,
      roles_flatMap (roles_responseTypes name (successesOf op)), hbody, hname]
    rfl

theorem OperationsDeclared.roles_eq {operations : List (String × PathItem × Method × Operation)}
    (h : OperationsDeclared d operations added) :
    roles added = operations.flatMap fun q => operationRoles d q.1 q.2.1 q.2.2.1 q.2.2.2 := by
  induction h with
  | nil => rfl
  | cons hq _ ih => rw [roles_append, hq.roles_eq, ih, List.flatMap_cons]

theorem roles_path (d : Document) (p : String × PathItem) :
    (p.2.operations.flatMap fun q => operationRoles d p.1 p.2 q.1 q.2) = pathRoles d p := by
  have hmethods : ∀ methods : List Method,
      ((methods.filterMap fun m => (p.2.operation m).map (m, ·)).flatMap
        fun q => operationRoles d p.1 p.2 q.1 q.2) =
      methods.flatMap fun method =>
        (p.2.operation method).toList.flatMap (operationRoles d p.1 p.2 method) := by
    intro methods
    induction methods with
    | nil => rfl
    | cons method rest ih =>
      rw [List.filterMap_cons, List.flatMap_cons, ← ih]
      cases p.2.operation method <;> simp
  exact hmethods Method.all

theorem roles_operations (d : Document) :
    (d.operations.flatMap fun q => operationRoles d q.1 q.2.1 q.2.2.1 q.2.2.2) =
      d.sortedPaths.flatMap (pathRoles d) := by
  unfold Document.operations
  rw [List.flatMap_assoc]
  congr 1
  funext p
  rw [← roles_path, List.flatMap_map]

theorem roles_of_generate (h : (generate d options).1 = .ok file) :
    roles file.declarations = calledFor d := by
  obtain ⟨operations, hoperations, hdeclarations, -⟩ := declarations_of_generate h
  rw [hdeclarations, roles_append, roles_append, roles_flatMap roles_definitionTypes,
    hoperations.roles_eq, roles_operations]
  rfl

/-- Responses of one code would have types of one name. -/
theorem codes_nodup_of_names {successes : Nat} {responses : List (Nat × Response)}
    (h : (Members.names (responses.flatMap (responseTypes operation successes))).Nodup) :
    (responses.map Prod.fst).Nodup := by
  induction responses with
  | nil => exact .nil
  | cons q rest ih =>
    rw [List.flatMap_cons, Members.names, List.map_append] at h
    obtain ⟨-, hrest, hne⟩ := List.nodup_append.mp h
    refine List.nodup_cons.mpr ⟨?_, ih hrest⟩
    intro hm
    obtain ⟨r, hr, hcode⟩ := List.mem_map.mp hm
    have hlast : ∀ q : Nat × Response, responseTypeName operation successes q.1 ∈
        (responseTypes operation successes q).map Prod.fst := by
      intro q
      simp [responseTypes]
    apply hne _ (hlast q) _ _ rfl
    rw [← hcode]
    obtain ⟨p, hp, hname⟩ := List.mem_map.mp (hlast r)
    exact List.mem_map.mpr ⟨p, List.mem_flatMap.mpr ⟨r, hr, hp⟩, hname⟩

theorem OperationDeclared.codes_nodup (h : OperationDeclared d path method item op added)
    (hn : added.names.Nodup) : (op.statusCodes.map Prod.fst).Nodup := by
  cases h
  rw [Members.names, List.map_append, List.map_append, List.append_assoc] at hn
  have hresponses := (List.nodup_append.mp hn).2.1
  exact codes_nodup_of_names (List.nodup_append.mp hresponses).1

theorem OperationsDeclared.codes_nodup
    {operations : List (String × PathItem × Method × Operation)}
    (h : OperationsDeclared d operations added) (hn : added.names.Nodup) :
    ∀ q ∈ operations, (q.2.2.2.statusCodes.map Prod.fst).Nodup := by
  induction h with
  | nil => simp
  | cons hq _ ih =>
    rw [Members.names, List.map_append] at hn
    obtain ⟨hfirst, hrest, -⟩ := List.nodup_append.mp hn
    exact List.forall_mem_cons.mpr ⟨hq.codes_nodup hfirst, ih hrest⟩

/-- If a client is generated, no two responses of an operation have one status code. -/
theorem ascending_of_generate (h : (generate d options).1 = .ok file)
    {q : String × PathItem × Method × Operation} (hq : q ∈ d.operations) :
    q.2.2.2.statusCodes.Pairwise fun r t => r.1 < t.1 := by
  obtain ⟨operations, hoperations, hdeclarations, hdistinct⟩ := declarations_of_generate h
  have hnames : operations.names.Nodup := by
    rw [File.names, hdeclarations, Members.names, List.map_append] at hdistinct
    exact (List.nodup_append.mp hdistinct).2.1
  exact Operation.ascending_of_nodup (hoperations.codes_nodup hnames q hq)

/-- A file declares what a document calls for and no name twice. Definitions and paths come by the
bytes of their names, responses by status code. -/
structure InOrder (d : Document) (definitions : Members Schema) (paths : Members PathItem)
    (file : File Declaration) : Prop where
  definitions_perm : definitions.Perm d.definitions
  definitions_ascend : definitions.Pairwise fun p q => Text.bytes p.1 ≤ Text.bytes q.1
  paths_perm : paths.Perm d.paths
  paths_ascend : paths.Pairwise fun p q => Text.bytes p.1 ≤ Text.bytes q.1
  codes_perm : ∀ p ∈ paths, ∀ method op, p.2.operation method = some op →
    op.statusCodes.Perm op.numbered
  codes_ascend : ∀ p ∈ paths, ∀ method op, p.2.operation method = some op →
    op.statusCodes.Pairwise fun q r => q.1 < r.1
  roles_eq : roles file.declarations =
    [("Client", .type), ("ErrorResponse", .type)] ++ definitions.flatMap definitionRoles ++
      paths.flatMap (pathRoles d)
  distinct : file.names.Nodup

theorem generate_in_order (h : (generate d options).1 = .ok file) :
    ∃ definitions paths, InOrder d definitions paths file := by
  obtain ⟨_, -, -, hdistinct⟩ := declarations_of_generate h
  refine ⟨d.sortedDefinitions, d.sortedPaths, ?_⟩
  constructor
  case definitions_perm => exact Members.sorted_perm _
  case definitions_ascend => exact Members.pairwise_bytes_sorted _
  case paths_perm => exact Members.sorted_perm _
  case paths_ascend => exact Members.pairwise_bytes_sorted _
  case codes_perm => exact fun _ _ _ op _ => op.statusCodes_perm
  case codes_ascend =>
    intro p hp method op hop
    have hmem := (Members.sorted_perm d.paths).mem_iff.mp hp
    have hq : (p.1, p.2, method, op) ∈ d.operations := mem_operations.mpr ⟨hmem, hop⟩
    exact ascending_of_generate h hq
  case roles_eq => exact roles_of_generate h
  case distinct => exact hdistinct

/-- The types of the objects within a definition come before it, and a path with two operations has
that of the method GET first. -/
theorem fleet_in_order :
    ∃ file, (generate Fleet.document {}).1 = .ok file ∧
      ∃ definitions paths, InOrder Fleet.document definitions paths file := by
  obtain ⟨file, hfile⟩ := exists_file Fleet.generates
  exact ⟨file, hfile, generate_in_order hfile⟩

end ApiContract.GoClient
