import ApiContract.Proofs.GoClient.Generatable

namespace ApiContract.GoClient

open Emit Naming

variable {d : Document} {operation path : String} {p : Parameter} {parameters : List Parameter}
  {options : Options} {item : PathItem} {method : Method} {op : Operation}

def bodyArguments (operation : String) (body : Option Parameter) : List Argument :=
  (body.bind Parameter.schema).toList.map fun s =>
    ⟨"req", .pointer (.named (bodyTypeName operation s))⟩

theorem importsOnly_pathArgument (p : Parameter) : ImportsOnly (pathArgument p) := by
  unfold pathArgument
  split
  · exact importsOnly_pure _
  · exact (importsOnly_addImport _).bind fun _ => importsOnly_pure _
  · exact (importsOnly_addImport _).bind fun _ => importsOnly_pure _
  · exact importsOnly_fail _

theorem importsOnly_queryArgument (p : Parameter) : ImportsOnly (queryArgument p) := by
  unfold queryArgument
  split
  · exact importsOnly_fail _
  · exact importsOnly_pure _
  · exact (importsOnly_addImport _).bind fun _ => importsOnly_pure _
  · exact (importsOnly_addImport _).bind fun _ => importsOnly_pure _
  · exact (importsOnly_addImport _).bind fun _ => importsOnly_pure _

theorem importsOnly_emitUrl (parameters : List Parameter) (pieces : List Piece) :
    ImportsOnly (emitUrl parameters pieces) := by
  induction pieces with
  | nil =>
    rw [emitUrl]
    exact importsOnly_pure _
  | cons piece rest ih =>
    cases piece with
    | literal text =>
      rw [emitUrl]
      exact ih.bind fun _ => importsOnly_pure _
    | parameter name =>
      rw [emitUrl.eq_def]
      dsimp only
      cases parameters.find? (·.name = name) with
      | none => exact ih
      | some p =>
        apply ((importsOnly_pathArgument p).within _).bind
        intro _
        exact ih.bind fun _ => importsOnly_pure _

theorem importsOnly_emitQuery (parameters : List Parameter) :
    ImportsOnly (emitQuery parameters) := by
  induction parameters with
  | nil =>
    rw [emitQuery]
    exact importsOnly_pure _
  | cons p rest ih =>
    rw [emitQuery]
    apply ((importsOnly_queryArgument p).within _).bind
    intro _
    exact ih.bind fun _ => importsOnly_pure _

theorem importsOnly_sortInputs (parameters : List Parameter) :
    ImportsOnly fun draft => (sortInputs {} parameters, draft) := by
  intro draft inputs draft' h
  obtain rfl : draft = draft' := congrArg Prod.snd h
  exact ⟨rfl, rfl⟩

theorem ensures_emitBody (d : Document) (operation : String) (body : Option Parameter) :
    Ensures (emitBody d operation body) fun arguments added =>
      arguments = bodyArguments operation body ∧ added = requestTypes operation body := by
  cases body with
  | none => exact ensures_pure ⟨rfl, rfl⟩
  | some p =>
    apply ((declares_bodyType d operation p).ensures.within _).bind
    rintro _ _ ⟨⟨s, hs, -⟩, rfl, rfl⟩
    apply (importsOnly_addImport _).quiet.then
    intro _ _
    apply ensures_pure
    refine ⟨?_, List.append_nil _⟩
    simp [bodyArguments, hs]

def successesOf (op : Operation) : Nat := op.statusCodes.countP fun q => isSuccess q.1

/-- The types of all responses of an operation, by status code. -/
def responsesTypes (operation : String) (op : Operation) : Members Declaration :=
  op.statusCodes.flatMap (responseTypes operation (successesOf op))

/-- The declarations of an operation: its request, its responses and its method. -/
inductive OperationDeclared (d : Document) (path : String) (method : Method) (item : PathItem)
    (op : Operation) : Members Declaration → Prop
  | intro {parameters : List Parameter} {inputs : Inputs} {url : List UrlPart × List Argument}
      {query : List QueryItem × List Argument} (name : String) :
      name = operationName op.identifier method.name path →
      d.operationParameters item op = .ok parameters → sortInputs {} parameters = .ok inputs →
      Yields (emitUrl inputs.path
        (PathTemplate.interpolate path (inputs.path.map Parameter.name)).pieces) url →
      Yields (emitQuery inputs.query) query →
      OperationDeclared d path method item op
        (requestTypes name inputs.body ++ responsesTypes name op ++
          [(name, .method {
            name, method
            url := url.1
            query := query.1
            arms := op.statusCodes.map (armOf name (successesOf op))
            description := op.summary.or op.description
            deprecated := op.deprecated.getD false
            arguments := url.2 ++ bodyArguments name inputs.body ++ query.2
            hasBody := inputs.body.isSome })])

theorem ensures_emitOperation (d : Document) (path : String) (method : Method) (item : PathItem)
    (op : Operation) :
    Ensures (emitOperation d path method item op) fun _ added =>
      OperationDeclared d path method item op added := by
  apply (quiet_tell _).then
  intro _ _
  apply (importsOnly_ofResolved _).quiet.then
  intro parameters hp
  apply (importsOnly_sortInputs parameters).quiet.then
  rintro inputs ⟨_, _, hi⟩
  apply (importsOnly_addImports _).quiet.then
  intro _ _
  apply (quiet_tell _).then
  intro _ _
  apply (importsOnly_emitUrl _ _).quiet.then
  rintro ⟨url, pathArguments⟩ hurl
  apply (ensures_emitBody d _ inputs.body).bind
  rintro _ request ⟨rfl, rfl⟩
  apply (importsOnly_emitQuery _).quiet.then
  rintro ⟨query, queryArguments⟩ hquery
  apply (quiet_tell _).then
  intro _ _
  apply (declares_emitResponses d _ _ _).ensures.bind
  rintro _ _ ⟨-, rfl, rfl⟩
  apply ensures_declare
  rw [← List.append_assoc]
  exact .intro _ rfl (yields_ofResolved hp) (congrArg Prod.fst hi) hurl hquery

/-- The declarations of operations, one operation after the other. -/
inductive OperationsDeclared (d : Document) :
    List (String × PathItem × Method × Operation) → Members Declaration → Prop
  | nil : OperationsDeclared d [] []
  | cons {q : String × PathItem × Method × Operation}
      {rest : List (String × PathItem × Method × Operation)} {first second : Members Declaration} :
      OperationDeclared d q.1 q.2.2.1 q.2.1 q.2.2.2 first → OperationsDeclared d rest second →
      OperationsDeclared d (q :: rest) (first ++ second)

/-- The declarations that every client has. -/
def surface (d : Document) (options : Options) : Members Declaration :=
  [("Client", .client ((d.info.map Info.title).getD "")
    ((options.baseUrl.or d.defaultBaseUrl).getD "")), ("ErrorResponse", .errorResponse)]

/-- The type of a definition and the types of the objects within it. -/
def definitionTypes (p : String × Schema) : Members Declaration :=
  structs (objectsWithin (camelCase p.1) p.2) ++
    [(camelCase p.1, typeDeclaration (camelCase p.1) p.2)]

theorem ensures_emitSurface (d : Document) (options : Options) :
    Ensures (emitSurface d options) fun _ added => added = surface d options := by
  have hrest : Ensures (do
      Emit.addImports surfaceImports
      Emit.declare "Client" (.client ((d.info.map Info.title).getD "")
        ((options.baseUrl.or d.defaultBaseUrl).getD ""))
      Emit.declare "ErrorResponse" .errorResponse) fun _ added => added = surface d options := by
    apply (importsOnly_addImports _).quiet.then
    intro _ _
    have hclient : ∀ declaration, Ensures (Emit.declare "Client" declaration)
        fun _ added => added = [("Client", declaration)] := fun _ => ensures_declare rfl
    apply (hclient _).bind
    rintro _ first rfl
    exact ensures_declare rfl
  unfold emitSurface
  dsimp only
  split
  · apply (quiet_tell _).then
    intro _ _
    exact hrest
  · exact hrest

theorem ensures_emitDefinitions (d : Document) (definitions : Members Schema) :
    Ensures (emitDefinitions d definitions) fun _ added =>
      added = definitions.flatMap definitionTypes := by
  induction definitions with
  | nil =>
    rw [emitDefinitions]
    exact ensures_pure rfl
  | cons p rest ih =>
    obtain ⟨name, s⟩ := p
    rw [emitDefinitions]
    apply ((declares_emitNamed d (camelCase name) s).ensures.within _).bind
    rintro _ _ ⟨-, -, rfl⟩
    apply ih.mono
    rintro _ second rfl
    rfl

theorem ensures_emitOperations (d : Document)
    (operations : List (String × PathItem × Method × Operation)) :
    Ensures (emitOperations d operations) fun _ added =>
      OperationsDeclared d operations added := by
  induction operations with
  | nil =>
    rw [emitOperations]
    exact ensures_pure .nil
  | cons q rest ih =>
    obtain ⟨path, item, method, op⟩ := q
    rw [emitOperations]
    apply ((ensures_emitOperation d path method item op).within _).bind
    intro _ first hfirst
    apply ih.mono
    intro _ second hsecond
    exact .cons hfirst hsecond

/-- What a client that is generated holds. -/
theorem declarations_of_generate {file : File Declaration}
    (h : (generate d options).1 = .ok file) :
    ∃ operations, OperationsDeclared d d.operations operations ∧
      file.declarations = surface d options ++ d.sortedDefinitions.flatMap definitionTypes ++
        operations ∧ file.names.Nodup := by
  have hclient : Ensures (emitClient d options) fun _ added =>
      ∃ operations, OperationsDeclared d d.operations operations ∧
        added = surface d options ++ d.sortedDefinitions.flatMap definitionTypes ++
          operations := by
    apply (ensures_emitSurface d options).bind
    rintro _ first rfl
    apply (ensures_emitDefinitions d _).bind
    rintro _ second rfl
    apply (ensures_emitOperations d _).bind
    intro _ operations hoperations
    apply (quiet_tell _).ensures
    intro _ _
    exact ⟨operations, hoperations, by simp⟩
  unfold generate at h
  split at h
  · rename_i draft heq
    cases h
    obtain ⟨added, hfile, operations, hoperations, rfl⟩ := hclient _ _ _ heq
    refine ⟨operations, hoperations, ?_, hfile.distinct List.nodup_nil⟩
    have hnone : (start options).file.declarations = [] := rfl
    rw [hfile.declarations, hnone, List.nil_append]
  · cases h

theorem exists_file (h : (generate d options).1.toOption.isSome) :
    ∃ file, (generate d options).1 = .ok file := by
  cases hg : (generate d options).1 with
  | ok file => exact ⟨file, rfl⟩
  | error fault =>
    rw [hg] at h
    cases h

namespace Fleet

/-- Schemas within schemas: an object as a property and objects as the items of an array. -/
def vessel : Schema :=
  { properties := [
      ("berth", { properties := [("depth", { types := some (.single .number) })] }),
      ("crew", {
        types := some (.single .array)
        items := some (.single
          { properties := [("name", { types := some (.single .string) })] }) }),
      ("owner", .referTo "agent")] }

def registration : Parameter :=
  { name := "registration", location := .body
    schema := some
      { properties := [("home_port", { properties := [("agent", .referTo "agent")] })] } }

def get : Operation :=
  { responses := [("404", {}), ("200", { schema := some (.referTo "vessel") })] }

def list : Operation :=
  { parameters := [.reference "#/parameters/limit"]
    responses := [
      ("400", { schema := some { properties := [("hint", { types := some (.single .string) })] } }),
      ("206", {}),
      ("200", {
        schema := some {
          types := some (.single .array)
          items := some (.single (.referTo "vessel")) } })] }

def create : Operation :=
  { parameters := [.inline registration]
    responses := [("201", { schema := some (.referTo "vessel") })] }

/-- Paths, definitions and responses out of order, and a path that has two operations. -/
def document : Document :=
  { swagger := "2.0"
    host := some "fleet.example"
    paths := [
      ("/vessels/{name}", { parameters := [.reference "#/parameters/name"], get := some get }),
      ("/vessels", { get := some list, post := some create })]
    definitions := [("vessel", vessel), ("agent", { types := some (.single .string) })]
    parameters := [
      ("name", { name := "name", location := .path, type := some .string }),
      ("limit", { name := "limit", location := .query, type := some .integer })] }

def empty : Draft := { file := { package := "fleet" } }

theorem generates : (generate document {}).1.toOption.isSome := by decide +kernel

end Fleet

end ApiContract.GoClient
