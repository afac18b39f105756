import ApiContract.Proofs.GoClient.DeclarationOrder
import ApiContract.Proofs.GoClient.Identifier
import ApiContract.Proofs.GoClient.References
import ApiContract.Proofs.PathTemplate

namespace ApiContract.GoClient

open Emit Naming Text

def Head.name : Head → String
  | type name | function name | method _ name => name

namespace Declaration

def fieldNames : Declaration → List String
  | client _ _ => ["httpClient", "baseURL"]
  | errorResponse => ["Code", "Message"]
  | struct s => s.fields.map Field.name
  | named _ | method _ => []

def argumentNames : Declaration → List String
  | client _ _ => ["httpClient", "baseURL"]
  | method m => "ctx" :: m.arguments.map Argument.identifier
  | errorResponse | struct _ | named _ => []

/-- All names that a declaration introduces. -/
def invented (declaration : Declaration) : List String :=
  declaration.heads.map Head.name ++ declaration.fieldNames ++ declaration.argumentNames

end Declaration

/-- All names that a file introduces. -/
def File.invented (file : File Declaration) : List String :=
  file.declarations.flatMap fun p => p.2.invented

/-- All names that declarations introduce are identifiers. -/
def Named (declarations : Members Declaration) : Prop :=
  ∀ p ∈ declarations, ∀ name ∈ p.2.invented, isIdentifier name

variable {d : Document} {options : Options} {file : File Declaration}
  {first second added : Members Declaration} {name path : String} {method : Method}
  {item : PathItem} {op : Operation} {s : Schema} {properties : List (String × Schema)}

theorem named_append : Named (first ++ second) ↔ Named first ∧ Named second :=
  List.forall_mem_append

theorem named_flatMap {α : Type} {f : α → Members Declaration} {as : List α} :
    Named (as.flatMap f) ↔ ∀ a ∈ as, Named (f a) :=
  List.forall_mem_flatMap

/-- The properties of objects all become fields whose names are identifiers. -/
def Fielded (objects : Members Schema) : Prop :=
  ∀ o ∈ objects, ∀ p ∈ o.2.properties, isIdentifier (fieldName p.1)

theorem fielded_append {first second : Members Schema} :
    Fielded (first ++ second) ↔ Fielded first ∧ Fielded second :=
  List.forall_mem_append

theorem fielded_flatMap {α : Type} {f : α → Members Schema} {as : List α} :
    Fielded (as.flatMap f) ↔ ∀ a ∈ as, Fielded (f a) :=
  List.forall_mem_flatMap

theorem invented_structOf (name : String) (s : Schema) (embeds : Bool) :
    (Declaration.struct (structOf name s embeds)).invented =
      name :: s.properties.map fun p => fieldName p.1 := by
  simp [Declaration.invented, Declaration.heads, Declaration.fieldNames, Declaration.argumentNames,
    Head.name, structOf, fieldOf, Function.comp_def]

theorem named_structs {objects : Members Schema} :
    Named (structs objects) ↔ (∀ o ∈ objects, isIdentifier o.1) ∧ Fielded objects := by
  simp only [Named, Fielded, structs, List.forall_mem_map, invented_structOf, List.forall_mem_cons,
    forall_and]

/-- Objects within a property have names made of the name of its parent and of names of fields. -/
theorem isIdentifier_of_mem_objectsOfProperties
    (hs : ∀ p ∈ properties, ∀ name, isIdentifier name → Fielded (objectsOf name p.2) →
      ∀ o ∈ objectsOf name p.2, isIdentifier o.1)
    (hname : isIdentifier name) (hp : ∀ p ∈ properties, isIdentifier (fieldName p.1))
    (hf : Fielded (objectsOfProperties name properties)) :
    ∀ o ∈ objectsOfProperties name properties, isIdentifier o.1 := by
  intro o ho
  obtain ⟨p, hm, ho⟩ := mem_objectsOfProperties.mp ho
  apply hs p hm _ (isIdentifier_nestedTypeName hname (hp p hm)) ?_ o ho
  exact fun inner hi => hf inner (mem_objectsOfProperties.mpr ⟨p, hm, hi⟩)

theorem isIdentifier_of_mem_objectsOf (s : Schema) : ∀ name, isIdentifier name →
    Fielded (objectsOf name s) → ∀ o ∈ objectsOf name s, isIdentifier o.1 := by
  induction s using Schema.induction with
  | step s hproperties hitems =>
    intro name hname hf
    rw [objectsOf_eq] at hf ⊢
    cases hk : s.kind with
    | object =>
      simp only [hk] at hf ⊢
      obtain ⟨hwithin, hself⟩ := fielded_append.mp hf
      have hfields := List.forall_mem_singleton.mp hself
      refine List.forall_mem_append.mpr ⟨?_, List.forall_mem_singleton.mpr hname⟩
      exact isIdentifier_of_mem_objectsOfProperties hproperties hname hfields hwithin
    | array =>
      simp only [hk, objectsOfItems_eq] at hf ⊢
      cases hi : s.singleItems with
      | none => exact fun _ ho => absurd ho List.not_mem_nil
      | some item =>
        simp only [hi] at hf
        have hitem : isIdentifier (name ++ "Item") :=
          isIdentifier_append_isIdentifier hname (isIdentifier_of_ascii rfl)
        exact (hitems item hi).1 _ hitem hf
    | reference | primitive | unhandled => exact fun _ ho => absurd ho List.not_mem_nil

/-- An object is one of its own objects. -/
theorem objectsOf_eq_append (name : String) (s : Schema) :
    objectsOf name s = objectsWithin name s ++ if s.kind = .object then [(name, s)] else [] := by
  rw [objectsOf_eq, objectsWithin]
  cases s.kind <;> simp

/-- The declaration of the type of a schema introduces its name, and fields for an object. -/
def Types (name : String) (s : Schema) (declaration : Declaration) : Prop :=
  declaration.invented =
    name :: if s.kind = .object then s.properties.map fun p => fieldName p.1 else []

theorem types_typeDeclaration (name : String) (s : Schema) :
    Types name s (typeDeclaration name s) := by
  unfold Types typeDeclaration
  cases hk : s.kind with
  | object => simpa using invented_structOf name s false
  | reference | array | primitive | unhandled => rfl

theorem types_failureDeclaration (name : String) (s : Schema) :
    Types name s (failureDeclaration name (some s)) := by
  unfold Types failureDeclaration
  dsimp only
  split
  · exact invented_structOf name s true
  · rfl

theorem named_types {declaration : Declaration} (h : Types name s declaration) :
    Named (structs (objectsWithin name s) ++ [(name, declaration)]) ↔
      isIdentifier name ∧ Fielded (objectsOf name s) := by
  have hself : Named [(name, declaration)] ↔
      isIdentifier name ∧ Fielded (if s.kind = .object then [(name, s)] else []) := by
    rw [Named, List.forall_mem_singleton, h, List.forall_mem_cons]
    split
    · simp only [Fielded, List.forall_mem_singleton, List.forall_mem_map]
    · simp [Fielded]
  rw [named_append, named_structs, hself, objectsOf_eq_append, fielded_append]
  constructor
  · rintro ⟨⟨-, hwithin⟩, hname, hfields⟩
    exact ⟨hname, hwithin, hfields⟩
  · rintro ⟨hname, hwithin, hfields⟩
    have hall : Fielded (objectsOf name s) := by
      rw [objectsOf_eq_append]
      exact fielded_append.mpr ⟨hwithin, hfields⟩
    have hnames := isIdentifier_of_mem_objectsOf s name hname hall
    rw [objectsOf_eq_append] at hnames
    exact ⟨⟨(List.forall_mem_append.mp hnames).1, hwithin⟩, hname, hfields⟩

/-- The objects that become structs for a request: its schema, whatever its kind is, and those
within it. -/
def requestObjects (operation : String) (body : Option Parameter) : Members Schema :=
  match inlineBody body with
  | some s => objectsOfProperties (requestTypeName operation) s.properties ++
      [(requestTypeName operation, s)]
  | none => []

def responseObjects (operation : String) (successes : Nat) (q : Nat × Response) : Members Schema :=
  (q.2.schema.map (objectsOf (responseTypeName operation successes q.1))).getD []

theorem named_requestTypes {operation : String} {body : Option Parameter}
    (h : isIdentifier operation) :
    Named (requestTypes operation body) ↔ Fielded (requestObjects operation body) := by
  have hname : isIdentifier (requestTypeName operation) :=
    isIdentifier_append_isIdentifier h (isIdentifier_of_ascii rfl)
  unfold requestTypes requestObjects
  cases inlineBody body with
  | none => exact iff_of_true (List.forall_mem_nil _) (List.forall_mem_nil _)
  | some s =>
    have hstruct : structs (objectsOfProperties (requestTypeName operation) s.properties) ++
        [(requestTypeName operation, .struct (structOf (requestTypeName operation) s false))] =
      structs (objectsOfProperties (requestTypeName operation) s.properties ++
        [(requestTypeName operation, s)]) := by
      rw [structs_append]
      rfl
    dsimp only
    rw [hstruct, named_structs]
    refine ⟨fun hall => hall.2, fun hf => ⟨?_, hf⟩⟩
    obtain ⟨hwithin, hself⟩ := fielded_append.mp hf
    refine List.forall_mem_append.mpr ⟨?_, List.forall_mem_singleton.mpr hname⟩
    exact isIdentifier_of_mem_objectsOfProperties (fun p _ => isIdentifier_of_mem_objectsOf p.2)
      hname (List.forall_mem_singleton.mp hself) hwithin

theorem isIdentifier_responseTypeName {operation : String} (h : isIdentifier operation)
    (successes code : Nat) : isIdentifier (responseTypeName operation successes code) := by
  have hres : isIdentifier (operation ++ "Res") :=
    isIdentifier_append_isIdentifier h (isIdentifier_of_ascii rfl)
  unfold responseTypeName
  split
  · exact hres
  · exact isIdentifier_append hres (parts_of_digits code)

theorem named_responseTypes {operation : String} (h : isIdentifier operation) (successes : Nat)
    (q : Nat × Response) :
    Named (responseTypes operation successes q) ↔
      Fielded (responseObjects operation successes q) := by
  have hname := isIdentifier_responseTypeName h successes q.1
  unfold responseTypes responseObjects
  cases q.2.schema with
  | none =>
    have hbare : ∀ embeds, Named [(responseTypeName operation successes q.1,
        .struct ⟨responseTypeName operation successes q.1, none, embeds, []⟩)] := fun _ =>
      List.forall_mem_singleton.mpr (List.forall_mem_singleton.mpr hname)
    refine iff_of_true ?_ (List.forall_mem_nil _)
    dsimp only [Option.map_none, Option.getD_none, structs, List.map_nil, List.nil_append]
    split
    · exact hbare false
    · exact hbare true
  | some s =>
    have htypes : ∀ name, Types name s (if isSuccess q.1 then successDeclaration name (some s)
        else failureDeclaration name (some s)) := by
      intro name
      split
      · exact types_typeDeclaration _ s
      · exact types_failureDeclaration _ s
    simp only [Option.map_some, Option.getD_some]
    rw [named_types (htypes _)]
    exact and_iff_right hname

/-- The names that the arguments of a method are made from: of what is placed in the path and of
the query. -/
def argumentsGiven (d : Document) (path : String) (item : PathItem) (op : Operation) :
    List String :=
  let parameters := (d.operationParameters item op).toOption.getD []
  (PathTemplate.interpolate path
      ((parameters.filter (·.location = .path)).map Parameter.name)).placed ++
    (parameters.filter (·.location = .query)).map Parameter.name

/-- The objects that become structs for an operation. -/
def operationObjects (d : Document) (path : String) (item : PathItem) (method : Method)
    (op : Operation) : Members Schema :=
  let name := operationName op.identifier method.name path
  requestObjects name (bodyOf d item op) ++
    op.statusCodes.flatMap (responseObjects name (successesOf op))

theorem identifiers_of_arguments {parameters : List Parameter} {inputs : Inputs}
    {url : List UrlPart × List Argument} {query : List QueryItem × List Argument}
    (hp : d.operationParameters item op = .ok parameters)
    (hi : sortInputs {} parameters = .ok inputs)
    (hurl : Yields (emitUrl inputs.path
      (PathTemplate.interpolate path (inputs.path.map Parameter.name)).pieces) url)
    (hquery : Yields (emitQuery inputs.query) query) :
    (url.2 ++ query.2).map Argument.identifier =
      (argumentsGiven d path item op).map argumentName := by
  obtain ⟨hpath, hqueries, -⟩ := filters_of_sortInputs hi
  rw [List.nil_append] at hpath hqueries
  have hnames := names_placed path inputs.path
  have hplaced := identifiers_of_map_some (url_of_yields hurl).2
    fun _ _ => identifier_of_pathArgument?
  have hgiven := identifiers_of_map_some (query_of_yields hquery).2
    fun _ _ => identifier_of_queryArgument?
  rw [List.map_append, hplaced, hgiven, hnames, ← List.map_append, hpath, hqueries,
    argumentsGiven, hp]
  rfl

theorem named_method {m : MethodDeclaration} :
    Named [(name, .method m)] ↔
      isIdentifier m.name ∧ ∀ a ∈ m.arguments, isIdentifier a.identifier := by
  have hctx : isIdentifier "ctx" := isIdentifier_of_ascii rfl
  have hinvented : (Declaration.method m).invented =
      m.name :: "ctx" :: m.arguments.map Argument.identifier := rfl
  rw [Named, List.forall_mem_singleton, hinvented, List.forall_mem_cons, List.forall_mem_cons,
    List.forall_mem_map]
  exact and_congr_right fun _ => and_iff_right hctx

theorem OperationDeclared.named (h : OperationDeclared d path method item op added) :
    Named added ↔
      isIdentifier (operationName op.identifier method.name path) ∧
      Fielded (operationObjects d path item method op) ∧
      ∀ given ∈ argumentsGiven d path item op, isIdentifier (argumentName given) := by
  cases h with
  | @intro parameters inputs url query name hname hp hi hurl hquery =>
    have hbody := body_eq_bodyOf hp hi
    have hreq : ∀ a ∈ bodyArguments name inputs.body, isIdentifier a.identifier := by
      intro a ha
      obtain ⟨s, -, rfl⟩ := List.mem_map.mp ha
      exact (isIdentifier_of_ascii rfl : isIdentifier "req")
    have harguments : (∀ a ∈ url.2 ++ query.2, isIdentifier a.identifier) ↔
        ∀ given ∈ argumentsGiven d path item op, isIdentifier (argumentName given) := by
      rw [← List.forall_mem_map (P := (isIdentifier ·)),
        identifiers_of_arguments hp hi hurl hquery, List.forall_mem_map]
    subst hname
    rw [named_append, named_append, responsesTypes, named_flatMap, named_method, operationObjects,
      fielded_append, fielded_flatMap, ← harguments, ← hbody]
    constructor
    · rintro ⟨⟨hrequest, hresponses⟩, hname, hall⟩
      obtain ⟨hothers, hquery⟩ := List.forall_mem_append.mp hall
      obtain ⟨hurl, -⟩ := List.forall_mem_append.mp hothers
      refine ⟨hname, ⟨(named_requestTypes hname).mp hrequest, ?_⟩,
        List.forall_mem_append.mpr ⟨hurl, hquery⟩⟩
      exact fun q hq => (named_responseTypes hname _ q).mp (hresponses q hq)
    · rintro ⟨hname, ⟨hrequest, hresponses⟩, hall⟩
      obtain ⟨hurl, hquery⟩ := List.forall_mem_append.mp hall
      refine ⟨⟨(named_requestTypes hname).mpr hrequest, ?_⟩, hname,
        List.forall_mem_append.mpr ⟨List.forall_mem_append.mpr ⟨hurl, hreq⟩, hquery⟩⟩
      exact fun q hq => (named_responseTypes hname _ q).mpr (hresponses q hq)

theorem OperationsDeclared.named {operations : List (String × PathItem × Method × Operation)}
    (h : OperationsDeclared d operations added) :
    Named added ↔ ∀ q ∈ operations,
      isIdentifier (operationName q.2.2.2.identifier q.2.2.1.name q.1) ∧
      Fielded (operationObjects d q.1 q.2.1 q.2.2.1 q.2.2.2) ∧
      ∀ given ∈ argumentsGiven d q.1 q.2.1 q.2.2.2, isIdentifier (argumentName given) := by
  induction h with
  | nil => exact iff_of_true (List.forall_mem_nil _) (List.forall_mem_nil _)
  | cons hq _ ih => rw [named_append, hq.named, ih, List.forall_mem_cons]

/-- The objects of a document that become structs. -/
def objects (d : Document) : Members Schema :=
  d.definitions.flatMap (fun p => objectsOf (camelCase p.1) p.2) ++
    d.operations.flatMap fun q => operationObjects d q.1 q.2.1 q.2.2.1 q.2.2.2

/-- Something is true of each name in a document that a name in the client is made from: of a
definition, of a property of what becomes a struct, of what becomes an argument, and of the
identifier, the method and the path of an operation. -/
structure Gives (d : Document) (definition property argument : String → Prop)
    (operation : Option String → Method → String → Prop) : Prop where
  definitions : ∀ name ∈ d.definitions.names, definition name
  properties : ∀ o ∈ objects d, ∀ p ∈ o.2.properties, property p.1
  arguments : ∀ q ∈ d.operations, ∀ name ∈ argumentsGiven d q.1 q.2.1 q.2.2.2, argument name
  operations : ∀ q ∈ d.operations, operation q.2.2.2.identifier q.2.2.1 q.1

theorem named_of_generate (h : (generate d options).1 = .ok file) :
    (∀ name ∈ file.invented, isIdentifier name) ↔
      Gives d (fun name => isIdentifier (camelCase name))
        (fun name => isIdentifier (fieldName name)) (fun name => isIdentifier (argumentName name))
        fun identifier method path => isIdentifier (operationName identifier method.name path) := by
  obtain ⟨operations, hoperations, hdeclarations, -⟩ := declarations_of_generate h
  have hinvented : (∀ name ∈ file.invented, isIdentifier name) ↔ Named file.declarations :=
    List.forall_mem_flatMap
  have hclient : ∀ title baseUrl, ∀ name ∈ (Declaration.client title baseUrl).invented,
      isIdentifier name := by
    intro title baseUrl
    exact (by decide : ∀ name ∈
      ["Client", "NewClient", "httpClient", "baseURL", "httpClient", "baseURL"], isIdentifier name)
  have herror : ∀ name ∈ Declaration.errorResponse.invented, isIdentifier name := by
    decide
  have hsurface : Named (surface d options) :=
    List.forall_mem_cons.mpr ⟨hclient _ _, List.forall_mem_singleton.mpr herror⟩
  have hdefinitions : Named (d.sortedDefinitions.flatMap definitionTypes) ↔
      (∀ name ∈ d.definitions.names, isIdentifier (camelCase name)) ∧
        Fielded (d.definitions.flatMap fun p => objectsOf (camelCase p.1) p.2) := by
    have htypes : ∀ p : String × Schema, Named (definitionTypes p) ↔
        isIdentifier (camelCase p.1) ∧ Fielded (objectsOf (camelCase p.1) p.2) :=
      fun p => named_types (types_typeDeclaration _ p.2)
    simp only [named_flatMap, fielded_flatMap, htypes, Members.names, List.forall_mem_map,
      Document.sortedDefinitions, (Members.sorted_perm d.definitions).mem_iff, forall_and]
  rw [hinvented, hdeclarations, named_append, named_append, hoperations.named, hdefinitions]
  constructor
  · rintro ⟨⟨-, hnames, hfields⟩, hall⟩
    refine ⟨hnames, ?_, fun q hq => (hall q hq).2.2, fun q hq => (hall q hq).1⟩
    exact fielded_append.mpr ⟨hfields, fielded_flatMap.mpr fun q hq => (hall q hq).2.1⟩
  · rintro ⟨hnames, hproperties, harguments, hmethods⟩
    obtain ⟨hfields, hothers⟩ := fielded_append.mp hproperties
    refine ⟨⟨hsurface, hnames, hfields⟩, ?_⟩
    exact fun q hq => ⟨hmethods q hq, fielded_flatMap.mp hothers q hq, harguments q hq⟩

section

variable {definition definition' definition'' property property' property'' argument argument'
    argument'' : String → Prop}
  {operation operation' operation'' : Option String → Method → String → Prop}

/-- What follows from two properties of each name. -/
theorem Gives.imp (h : Gives d definition property argument operation)
    (h' : Gives d definition' property' argument' operation')
    (hd : ∀ name, definition name → definition' name → definition'' name)
    (hp : ∀ name, property name → property' name → property'' name)
    (ha : ∀ name, argument name → argument' name → argument'' name)
    (ho : ∀ identifier method path, operation identifier method path →
      operation' identifier method path → operation'' identifier method path) :
    Gives d definition'' property'' argument'' operation'' := by
  constructor
  case definitions =>
    exact fun name hm => hd name (h.definitions name hm) (h'.definitions name hm)
  case properties =>
    exact fun o hm p hin => hp p.1 (h.properties o hm p hin) (h'.properties o hm p hin)
  case arguments =>
    exact fun q hq name hm => ha name (h.arguments q hq name hm) (h'.arguments q hq name hm)
  case operations =>
    exact fun q hq => ho _ _ _ (h.operations q hq) (h'.operations q hq)

end

/-- All names in a client that is generated are identifiers exactly if each name in the document
that one of them is made from gives one. Where the document's names consist of plain characters,
that is so exactly if each begins with a letter, those of properties with a digit of ASCII or with
nothing too, and a route however it begins. -/
theorem identifiers_of_generate (h : (generate d options).1 = .ok file) :
    ((∀ name ∈ file.invented, isIdentifier name) ↔
      Gives d (fun name => isIdentifier (camelCase name))
        (fun name => isIdentifier (fieldName name)) (fun name => isIdentifier (argumentName name))
        fun identifier method path => isIdentifier (operationName identifier method.name path)) ∧
    (Gives d Plain Plain Plain
        (fun identifier _ path => Plain ((identifier.filter (· ≠ "")).getD path)) →
      ((∀ name ∈ file.invented, isIdentifier name) ↔
        Gives d (fun name => beginsWithLetter name) (fun name => beginsField name)
          (fun name => beginsWithLetter name)
          fun identifier _ _ => ∀ name ∈ identifier.filter (· ≠ ""),
            beginsWithLetter (withoutArticles name))) := by
  have hnamed := named_of_generate h
  refine ⟨hnamed, fun hplain => hnamed.trans ⟨fun hall => ?_, fun hall => ?_⟩⟩
  · exact hplain.imp hall (fun _ hp => (isIdentifier_camelCase hp).mp)
      (fun _ hp => (isIdentifier_fieldName hp).mp) (fun _ hp => (isIdentifier_argumentName hp).mp)
      fun _ method _ hp => (isIdentifier_operationName hp method).mp
  · exact hplain.imp hall (fun _ hp => (isIdentifier_camelCase hp).mpr)
      (fun _ hp => (isIdentifier_fieldName hp).mpr)
      (fun _ hp => (isIdentifier_argumentName hp).mpr)
      fun _ method _ hp => (isIdentifier_operationName hp method).mpr

theorem fleet_identifiers :
    ∃ file, (generate Fleet.document {}).1 = .ok file ∧
      ∀ name ∈ file.invented, isIdentifier name := by
  obtain ⟨file, hfile⟩ := exists_file Fleet.generates
  refine ⟨file, hfile, ((identifiers_of_generate hfile).2 ?_).mpr ?_⟩
  · constructor <;> decide +kernel
  · constructor <;> decide

namespace Numbered

/-- A definition whose name begins with a digit. -/
def document : Document :=
  { swagger := "2.0"
    host := some "h.example"
    definitions := [("2fa", { types := some (.single .string) })] }

end Numbered

/-- The digit that the name of a definition begins with is what the name of the type begins with. -/
theorem type_begins_with_digit :
    ∃ file, (generate Numbered.document {}).1 = .ok file ∧ "2fa" ∈ file.invented ∧
      ¬ isIdentifier "2fa" := by
  have hsome : (generate Numbered.document {}).1.toOption.isSome := by decide
  obtain ⟨file, hfile⟩ := exists_file hsome
  have hname : (generate Numbered.document {}).1.toOption.all
      fun file => file.invented.contains "2fa" := by
    decide
  rw [hfile] at hname
  exact ⟨file, hfile, by simpa [Except.toOption] using hname, by decide +kernel⟩

end ApiContract.GoClient
