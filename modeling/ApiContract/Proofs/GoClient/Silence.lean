import ApiContract.Proofs.GoClient.Rewording

namespace ApiContract

namespace Schema

mutual

/-- The schema without descriptions, its own and those of the schemas within it. -/
def silent : Schema → Schema
  | ⟨reference, types, format, _, nullable, properties, required, items, extra⟩ =>
    ⟨reference, types, format, none, nullable, silentMembers properties, required,
      silentItems items, extra⟩

def silentMembers : List (String × Schema) → List (String × Schema)
  | [] => []
  | (name, s) :: rest => (name, silent s) :: silentMembers rest

def silentItems : Option (Items Schema) → Option (Items Schema)
  | none => none
  | some (.single item) => some (.single (silent item))
  | some (.tuple items) => some (.tuple (silentList items))

def silentList : List Schema → List Schema
  | [] => []
  | s :: rest => silent s :: silentList rest

end

theorem silentMembers_eq (properties : List (String × Schema)) :
    silentMembers properties = properties.map fun p => (p.1, p.2.silent) := by
  induction properties with
  | nil => rw [silentMembers, List.map_nil]
  | cons p rest ih => rw [silentMembers, ih, List.map_cons]

theorem silent_properties (s : Schema) :
    s.silent.properties = s.properties.map fun p => (p.1, p.2.silent) := by
  obtain ⟨_, _, _, _, _, properties, _, _, _⟩ := s
  rw [silent]
  exact silentMembers_eq properties

theorem silent_singleItems (s : Schema) : s.silent.singleItems = s.singleItems.map silent := by
  obtain ⟨_, _, _, _, _, _, _, items, _⟩ := s
  rw [silent]
  match items with
  | none | some (.single _) | some (.tuple _) => simp [singleItems, silentItems]

end Schema

def Parameter.silent (p : Parameter) : Parameter :=
  { p with description := none, schema := p.schema.map Schema.silent }

def ParameterEntry.silent : ParameterEntry → ParameterEntry
  | reference path => reference path
  | inline p => inline p.silent

def Response.silent (r : Response) : Response :=
  { r with description := "", schema := r.schema.map Schema.silent }

def Operation.silent (op : Operation) : Operation :=
  { op with
    summary := none
    description := none
    parameters := op.parameters.map ParameterEntry.silent
    responses := op.responses.map fun p => (p.1, p.2.silent) }

def PathItem.silent (item : PathItem) : PathItem :=
  { item with
    parameters := item.parameters.map ParameterEntry.silent
    get := item.get.map Operation.silent
    put := item.put.map Operation.silent
    post := item.post.map Operation.silent
    delete := item.delete.map Operation.silent
    options := item.options.map Operation.silent
    head := item.head.map Operation.silent
    patch := item.patch.map Operation.silent }

namespace Document

/-- The document without the texts that are written for its readers. -/
def silent (d : Document) : Document :=
  { d with
    info := none
    paths := d.paths.map fun p => (p.1, p.2.silent)
    definitions := d.definitions.map fun p => (p.1, p.2.silent)
    parameters := d.parameters.map fun p => (p.1, p.2.silent) }

variable (d : Document)

theorem silent_definition (reference : String) :
    d.silent.definition reference =
      (d.definition reference).map fun p => (p.1, p.2.silent) := by
  unfold definition silent
  dsimp only
  rw [Members.find?_map]
  cases d.definitions.find? (withoutStart definitionsRoot reference) <;> rfl

theorem silent_sortedDefinitions :
    d.silent.sortedDefinitions = d.sortedDefinitions.map fun p => (p.1, p.2.silent) :=
  (Members.sorted_map _ _).symm

theorem silent_defaultBaseUrl : d.silent.defaultBaseUrl = d.defaultBaseUrl := rfl

end Document

theorem ParameterEntry.silent_resolve (entry : ParameterEntry) (shared : Members Parameter) :
    entry.silent.resolve (shared.map fun p => (p.1, p.2.silent)) =
      (entry.resolve shared).map Parameter.silent := by
  cases entry with
  | inline p => rfl
  | reference path =>
    rw [silent, resolve.eq_def, resolve.eq_def]
    dsimp only
    cases Text.dropStart? parametersRoot.toList path.toList with
    | none => rfl
    | some rest =>
      dsimp only
      rw [Members.find?_map]
      cases shared.find? (String.ofList rest) <;> rfl

theorem silent_resolveAll (entries : List ParameterEntry) (shared : Members Parameter) :
    (entries.map ParameterEntry.silent).mapM
        (fun entry : ParameterEntry => entry.resolve (shared.map fun p => (p.1, p.2.silent))) =
      (entries.mapM fun entry : ParameterEntry => entry.resolve shared).map
        (List.map Parameter.silent) := by
  induction entries with
  | nil => rfl
  | cons entry rest ih =>
    rw [List.map_cons, List.mapM_cons, List.mapM_cons, ih, ParameterEntry.silent_resolve]
    cases entry.resolve shared with
    | error fault => rfl
    | ok p => cases rest.mapM fun entry : ParameterEntry => entry.resolve shared <;> rfl

namespace Document

theorem silent_override (parameters : List Parameter) (p : Parameter) :
    override (parameters.map Parameter.silent) p.silent =
      (override parameters p).map Parameter.silent := by
  induction parameters with
  | nil => rfl
  | cons q rest ih =>
    have hsame : sameParameter q.silent p.silent = sameParameter q p := rfl
    rw [List.map_cons, override, override, hsame, ih]
    split <;> rfl

theorem silent_overrides (parameters own : List Parameter) :
    (own.map Parameter.silent).foldl override (parameters.map Parameter.silent) =
      (own.foldl override parameters).map Parameter.silent := by
  induction own generalizing parameters with
  | nil => rfl
  | cons p rest ih => rw [List.map_cons, List.foldl_cons, silent_override, ih, List.foldl_cons]

theorem silent_operationParameters (d : Document) (item : PathItem) (op : Operation) :
    d.silent.operationParameters item.silent op.silent =
      (d.operationParameters item op).map (List.map Parameter.silent) := by
  have hitem := silent_resolveAll item.parameters d.parameters
  have hop := silent_resolveAll op.parameters d.parameters
  unfold operationParameters
  dsimp only [silent, PathItem.silent, Operation.silent]
  rw [hitem, hop]
  cases item.parameters.mapM (·.resolve d.parameters) with
  | error fault => rfl
  | ok shared =>
    cases op.parameters.mapM (·.resolve d.parameters) with
    | error fault => rfl
    | ok own => exact congrArg Except.ok (silent_overrides shared own)

end Document

theorem PathItem.silent_operation (item : PathItem) (method : Method) :
    item.silent.operation method = (item.operation method).map Operation.silent := by
  cases method <;> rfl

theorem PathItem.silent_operations (item : PathItem) :
    item.silent.operations = item.operations.map fun q => (q.1, q.2.silent) := by
  simp only [operations, silent_operation, List.map_filterMap, Option.map_map]
  rfl

theorem Document.silent_operations (d : Document) :
    d.silent.operations =
      d.operations.map fun q => (q.1, q.2.1.silent, q.2.2.1, q.2.2.2.silent) := by
  have hpaths : d.silent.sortedPaths = d.sortedPaths.map fun p => (p.1, p.2.silent) :=
    (Members.sorted_map _ _).symm
  simp only [operations, hpaths, List.flatMap_map, List.map_flatMap, PathItem.silent_operations,
    List.map_map]
  rfl

namespace Operation

theorem silent_insertByCode (r : Nat × Response) (responses : List (Nat × Response)) :
    insertByCode (r.1, r.2.silent) (responses.map fun q => (q.1, q.2.silent)) =
      (insertByCode r responses).map fun q => (q.1, q.2.silent) := by
  induction responses with
  | nil => rfl
  | cons q rest ih =>
    rw [List.map_cons, insertByCode, insertByCode, ih]
    split <;> rfl

theorem silent_statusCodes (op : Operation) :
    op.silent.statusCodes = op.statusCodes.map fun q => (q.1, q.2.silent) := by
  have hsorted : ∀ responses : List (Nat × Response),
      (responses.map fun q => (q.1, q.2.silent)).foldr insertByCode [] =
        (responses.foldr insertByCode []).map fun q => (q.1, q.2.silent) := by
    intro responses
    induction responses with
    | nil => rfl
    | cons r rest ih =>
      rw [List.map_cons, List.foldr_cons, List.foldr_cons, ih, silent_insertByCode]
  unfold statusCodes
  rw [← hsorted, List.map_filterMap]
  simp only [silent, List.filterMap_map, Option.map_map]
  rfl

end Operation

namespace GoClient

open Emit

namespace Declaration

/-- The declaration without its texts. -/
def silent : Declaration → Declaration
  | client _ baseUrl => client "" baseUrl
  | errorResponse => errorResponse
  | struct s => struct { s with description := none }
  | named n => named { n with description := none }
  | method m => method { m with description := none }

end Declaration

theorem rewording_silent : Rewording Schema.silent Declaration.silent where
  reference := fun ⟨_, _, _, _, _, _, _, _, _⟩ => by rw [Schema.silent]
  types := fun ⟨_, _, _, _, _, _, _, _, _⟩ => by rw [Schema.silent]
  required := fun ⟨_, _, _, _, _, _, _, _, _⟩ => by rw [Schema.silent]
  properties := Schema.silent_properties
  singleItems := Schema.silent_singleItems
  struct := fun ⟨_, _, _, _, _, _, _, _, _⟩ _ _ _ => by rw [Schema.silent]; rfl
  plainStruct _ _ _ := rfl
  named := fun ⟨_, _, _, _, _, _, _, _, _⟩ _ _ _ => by rw [Schema.silent]; rfl

def Inputs.silent (inputs : Inputs) : Inputs :=
  ⟨inputs.path.map Parameter.silent, inputs.query.map Parameter.silent,
    inputs.body.map Parameter.silent⟩

theorem silent_sortInputs (inputs : Inputs) (parameters : List Parameter) :
    sortInputs inputs.silent (parameters.map Parameter.silent) =
      (sortInputs inputs parameters).map Inputs.silent := by
  induction parameters generalizing inputs with
  | nil => rfl
  | cons p rest ih =>
    have hpath := ih { inputs with path := inputs.path ++ [p] }
    have hquery := ih { inputs with query := inputs.query ++ [p] }
    have hbody := ih { inputs with body := some p }
    have hlocation : p.silent.location = p.location := rfl
    rw [List.map_cons, sortInputs, sortInputs, hlocation]
    cases p.location with
    | path => simpa [Inputs.silent] using hpath
    | query => simpa [Inputs.silent] using hquery
    | body =>
      simp only [Inputs.silent, Option.isSome_map] at hbody ⊢
      split
      · rfl
      · exact hbody
    | header | formData => rfl

theorem silent_emitUrl (parameters : List Parameter) (pieces : List Piece) :
    emitUrl (parameters.map Parameter.silent) pieces = emitUrl parameters pieces := by
  induction pieces with
  | nil => rw [emitUrl, emitUrl]
  | cons piece rest ih =>
    cases piece with
    | literal text => rw [emitUrl, emitUrl, ih]
    | parameter name =>
      rw [emitUrl.eq_def, emitUrl.eq_def parameters]
      dsimp only
      rw [List.find?_map, ih]
      have hname : (fun p : Parameter => decide (p.name = name)) ∘ Parameter.silent =
          fun p => decide (p.name = name) := rfl
      rw [hname]
      cases parameters.find? (·.name = name) <;> rfl

theorem silent_emitQuery (parameters : List Parameter) :
    emitQuery (parameters.map Parameter.silent) = emitQuery parameters := by
  induction parameters with
  | nil => rfl
  | cons p rest ih =>
    rw [List.map_cons, emitQuery, emitQuery, ih]
    rfl

theorem mirrors_emitOperation (d : Document) (path : String) (method : Method) (item : PathItem)
    (op : Operation) :
    Mirrors Declaration.silent id (emitOperation d path method item op)
      (emitOperation d.silent path method item.silent op.silent) := by
  have hsort : ∀ parameters, sortInputs {} (parameters.map Parameter.silent) =
      (sortInputs {} parameters).map Inputs.silent := silent_sortInputs {}
  have hnames : ∀ parameters : List Parameter,
      (parameters.map Parameter.silent).map Parameter.name = parameters.map Parameter.name := by
    intro parameters
    rw [List.map_map]
    rfl
  unfold emitOperation
  apply (mirrors_tell _ _).bind
  intro _
  rw [Document.silent_operationParameters]
  apply (mirrors_ofResolved _).bind
  intro parameters
  rw [hsort]
  apply Mirrors.bind (mirrors_constant _)
  intro inputs
  dsimp only [Inputs.silent]
  rw [hnames, silent_emitUrl, silent_emitQuery, Operation.silent_statusCodes]
  apply (mirrors_addImports _).bind
  intro _
  apply (mirrors_tell _ _).bind
  intro _
  apply (mirrors_emitUrl _ _).bind
  intro url
  have hbody : Option.Rel (fun p p' : Parameter =>
      p'.name = p.name ∧ p'.schema = p.schema.map Schema.silent)
      inputs.body (inputs.body.map Parameter.silent) := by
    cases inputs.body with
    | none => exact .none
    | some p => exact .some ⟨rfl, rfl⟩
  apply (mirrors_emitBody d.silent_definition rewording_silent _ hbody).bind
  intro body
  apply (mirrors_emitQuery _).bind
  intro query
  apply (mirrors_tell _ _).bind
  intro _
  rw [List.countP_map]
  apply Mirrors.bind
  · apply mirrors_emitResponses d.silent_definition rewording_silent
    exact List.forall₂_map_right_iff.mpr (List.forall₂_same.mpr fun _ _ => ⟨rfl, rfl⟩)
  · intro arms
    exact mirrors_declare (by simp [Declaration.silent, Operation.silent])

theorem mirrors_emitOperations (d : Document)
    (operations : List (String × PathItem × Method × Operation)) :
    Mirrors Declaration.silent id (emitOperations d operations)
      (emitOperations d.silent
        (operations.map fun q => (q.1, q.2.1.silent, q.2.2.1, q.2.2.2.silent))) := by
  induction operations with
  | nil =>
    rw [emitOperations, List.map_nil, emitOperations]
    exact mirrors_pure _
  | cons q rest ih =>
    obtain ⟨path, item, method, op⟩ := q
    rw [emitOperations, List.map_cons, emitOperations]
    exact ((mirrors_emitOperation d path method item op).within _).bind fun _ => ih

theorem mirrors_emitSurface (d : Document) (options : Options) :
    Mirrors Declaration.silent id (emitSurface d options) (emitSurface d.silent options) := by
  have hrest : ∀ title baseUrl, Mirrors Declaration.silent id
      (do Emit.addImports surfaceImports
          Emit.declare "Client" (.client title baseUrl)
          Emit.declare "ErrorResponse" .errorResponse)
      (do Emit.addImports surfaceImports
          Emit.declare "Client" (.client "" baseUrl)
          Emit.declare "ErrorResponse" .errorResponse) := by
    intro title baseUrl
    apply (mirrors_addImports surfaceImports).bind
    intro _
    exact (mirrors_declare rfl).bind fun _ => mirrors_declare rfl
  unfold emitSurface
  rw [Document.silent_defaultBaseUrl]
  dsimp only
  split
  · exact (mirrors_tell _ _).bind fun _ => hrest _ _
  · exact hrest _ _

/-- A document without its texts gives the client without its texts, or none for the same reason. -/
theorem generate_silent (d : Document) (options : Options) :
    (generate d.silent options).1 =
      (generate d options).1.map (File.map Declaration.silent) := by
  have hclient : Mirrors Declaration.silent id (emitClient d options)
      (emitClient d.silent options) := by
    unfold emitClient
    rw [Document.silent_sortedDefinitions, Document.silent_operations]
    apply (mirrors_emitSurface d options).bind
    intro _
    apply (mirrors_emitDefinitions d.silent_definition rewording_silent _).bind
    intro _
    exact (mirrors_emitOperations d _).bind fun _ => mirrors_tell _ _
  obtain ⟨hresult, hfile⟩ := hclient (start options) (start options) rfl
  unfold generate
  cases he : emitClient d options (start options) with
  | mk result draft =>
    cases he' : emitClient d.silent options (start options) with
    | mk result' draft' =>
      rw [he, he'] at hresult hfile
      obtain rfl : result' = result.map id := hresult
      cases result with
      | ok _ => exact congrArg Except.ok hfile
      | error fault => rfl

end GoClient

end ApiContract
