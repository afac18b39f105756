import ApiContract.Proofs.GoClient.DeclarationOrder
import ApiContract.Proofs.GoClient.Generatable
import ApiContract.Proofs.GoClient.Offences

namespace ApiContract.GoClient

open Emit

/-- A part of an operation holds a schema, to be used for something. -/
inductive HeldIn (d : Document) (item : PathItem) (op : Operation) : Layer → Use → Schema → Prop
  | success {key : String} {r : Response} {code : Nat} {s : Schema} :
      (key, r) ∈ op.responses → statusCode? key = some code → isSuccess code → r.schema = some s →
      HeldIn d item op (.response code) .type s
  | failure {key : String} {r : Response} {code : Nat} {s : Schema} :
      (key, r) ∈ op.responses → statusCode? key = some code → ¬ isSuccess code →
      r.schema = some s → HeldIn d item op (.response code) .failure s
  | body {p : Parameter} {s : Schema} :
      bodyOf d item op = some p → p.schema = some s →
      HeldIn d item op (.parameter p.name) .request s

/-- A document holds a schema, to be used for something, in the parts that are named. -/
inductive Encloses (d : Document) : List Layer → Use → Schema → Prop
  | definition {name : String} {s : Schema} :
      (name, s) ∈ d.definitions → Encloses d [.definition name] .type s
  | operation {path : String} {item : PathItem} {method : Method} {op : Operation} {layer : Layer}
      {use : Use} {s : Schema} :
      (path, item) ∈ d.paths → item.operation method = some op → HeldIn d item op layer use s →
      Encloses d [.operation method path, layer] use s

/-- What a fault names leads to a schema of the document that the cause is true of: first what
encloses the schema where the way starts, then one property for each step of it. -/
def Pinpoints (d : Document) (known : String → Prop) (fault : Fault) : Prop :=
  ∃ layers use s properties use' t, Encloses d layers use s ∧
    fault.layers = layers ++ properties.map Layer.property ∧
    Traverses use s properties use' t ∧ Offends known use' t fault.cause

/-- The fault names a part of the operation and is explained by the schema there. -/
def ExplainedIn (d : Document) (item : PathItem) (op : Operation) (fault : Fault) : Prop :=
  ∃ layer use s inner, HeldIn d item op layer use s ∧ Explained (Known d) use s inner ∧
    fault = inner.within layer

variable {d : Document} {known : String → Prop} {s : Schema} {use : Use} {fault inner : Fault}
  {layer : Layer} {cause : Cause} {path name reference : String} {item : PathItem} {method : Method}
  {op : Operation} {options : Options} {P : Fault → Prop}

theorem Explained.inPart (h : Explained (Known d) use s inner)
    (hpart : HeldIn d item op layer use s) : ExplainedIn d item op (inner.within layer) :=
  ⟨layer, use, s, inner, hpart, h, rfl⟩

theorem Explained.pinpoints {layers : List Layer} (h : Explained known use s inner)
    (hs : Encloses d layers use s) : Pinpoints d known ⟨layers ++ inner.layers, inner.cause⟩ := by
  obtain ⟨properties, use', t, hlayers, htraverses, hoffends⟩ := h
  refine ⟨layers, use, s, properties, use', t, hs, ?_, htraverses, hoffends⟩
  rw [hlayers]

theorem not_inSchema_of_resolve {shared : Members Parameter} {entry : ParameterEntry}
    {fault : ResolveFault} (h : entry.resolve shared = .error fault) :
    ¬ (Cause.unresolved fault).InSchema := by
  unfold ParameterEntry.resolve at h
  split at h
  · cases h
  · split at h
    · cases h
      exact id
    · split at h <;> cases h
      exact id

theorem exists_of_mapM_error {α β ε : Type} {f : α → Except ε β} {as : List α} {e : ε}
    (h : as.mapM f = .error e) : ∃ a ∈ as, f a = .error e := by
  induction as with
  | nil => cases h
  | cons a rest ih =>
    rw [List.mapM_cons] at h
    cases ha : f a with
    | error other =>
      rw [ha] at h
      cases h
      exact ⟨a, List.mem_cons_self, ha⟩
    | ok b =>
      rw [ha] at h
      cases hrest : rest.mapM f with
      | error other =>
        rw [hrest] at h
        cases h
        obtain ⟨a', hmem, ha'⟩ := ih hrest
        exact ⟨a', List.mem_cons_of_mem a hmem, ha'⟩
      | ok bs =>
        rw [hrest] at h
        cases h

theorem exists_of_operationParameters_error {fault : ResolveFault}
    (h : d.operationParameters item op = .error fault) :
    ∃ entry : ParameterEntry, entry.resolve d.parameters = .error fault := by
  unfold Document.operationParameters at h
  cases hshared : item.parameters.mapM (·.resolve d.parameters) with
  | error other =>
    rw [hshared] at h
    cases h
    obtain ⟨entry, -, hentry⟩ := exists_of_mapM_error hshared
    exact ⟨entry, hentry⟩
  | ok shared =>
    cases hown : op.parameters.mapM (·.resolve d.parameters) with
    | error other =>
      rw [hshared, hown] at h
      cases h
      obtain ⟨entry, -, hentry⟩ := exists_of_mapM_error hown
      exact ⟨entry, hentry⟩
    | ok own =>
      rw [hshared, hown] at h
      cases h

/-- Parameters are looked up among parameters only. -/
theorem blames_operationParameters (d : Document) (item : PathItem) (op : Operation) :
    Blames (ofResolved (d.operationParameters item op)) P := by
  cases hp : d.operationParameters item op with
  | ok parameters => exact (accepts_pure parameters).blames
  | error fault =>
    obtain ⟨entry, hentry⟩ := exists_of_operationParameters_error hp
    exact blames_fail_of_not (not_inSchema_of_resolve hentry)

theorem not_inSchema_of_sortInputs {inputs : Inputs} {parameters : List Parameter}
    (h : sortInputs inputs parameters = .error fault) : ¬ fault.cause.InSchema := by
  induction parameters generalizing inputs with
  | nil => cases h
  | cons p rest ih =>
    unfold sortInputs at h
    split at h
    · exact ih h
    · exact ih h
    · split at h
      · cases h
        exact id
      · exact ih h
    · cases h
      exact id

theorem blames_sortInputs (inputs : Inputs) (parameters : List Parameter) :
    Blames (fun draft => (sortInputs inputs parameters, draft)) P :=
  fun _ _ h hc => absurd hc (not_inSchema_of_sortInputs h)

theorem blames_pathArgument (p : Parameter) : Blames (pathArgument p) P := by
  unfold pathArgument
  split
  · exact (accepts_pure _).blames
  · exact ((accepts_addImport _).then fun _ => accepts_pure _).blames
  · exact ((accepts_addImport _).then fun _ => accepts_pure _).blames
  · exact blames_fail_of_not id

theorem blames_emitUrl (parameters : List Parameter) (pieces : List Piece) :
    Blames (emitUrl parameters pieces) P := by
  induction pieces with
  | nil =>
    rw [emitUrl]
    exact (accepts_pure _).blames
  | cons piece rest ih =>
    cases piece with
    | literal text =>
      rw [emitUrl]
      exact ih.then fun _ => (accepts_pure _).blames
    | parameter name =>
      rw [emitUrl]
      split
      · exact ih
      · refine (blames_pathArgument _).within.then fun _ => ?_
        exact ih.then fun _ => (accepts_pure _).blames

theorem blames_queryArgument (p : Parameter) : Blames (queryArgument p) P := by
  unfold queryArgument
  split
  · exact blames_fail_of_not id
  · exact (accepts_pure _).blames
  · exact ((accepts_addImport _).then fun _ => accepts_pure _).blames
  · exact ((accepts_addImport _).then fun _ => accepts_pure _).blames
  · exact ((accepts_addImport _).then fun _ => accepts_pure _).blames

theorem blames_emitQuery (parameters : List Parameter) : Blames (emitQuery parameters) P := by
  induction parameters with
  | nil =>
    rw [emitQuery]
    exact (accepts_pure _).blames
  | cons p rest ih =>
    rw [emitQuery]
    refine (blames_queryArgument p).within.then fun _ => ?_
    exact ih.then fun _ => (accepts_pure _).blames

theorem blames_bodyType (d : Document) (operation : String) (p : Parameter) :
    Blames (bodyType d operation p) fun fault =>
      ∃ s, p.schema = some s ∧ Explained (Known d) .request s fault := by
  unfold bodyType
  cases p.schema with
  | none => exact blames_fail_of_not id
  | some s =>
    dsimp only
    cases hr : s.referenceName with
    | some reference =>
      apply Blames.then
      · apply blames_definitionType
        intro hunknown
        have hk : s.kind = .reference reference := Schema.kind_eq_reference_iff.mpr hr
        exact ⟨s, rfl, explained_of_offends (.missing nofun hk hunknown)⟩
      · exact fun _ => (accepts_pure _).blames
    | none =>
      dsimp only
      split
      · exact blames_fail_of_not id
      · apply Blames.then
        · refine (blames_emitStruct d _ s false).imp ?_
          exact fun _ hbelow => ⟨s, rfl, hbelow.explained (.inr ⟨rfl, hr⟩)⟩
        · exact fun _ => (accepts_pure _).blames

theorem blames_emitBody (operation : String) :
    Blames (emitBody d operation (bodyOf d item op)) (ExplainedIn d item op) := by
  unfold emitBody
  cases hb : bodyOf d item op with
  | none => exact (accepts_pure _).blames
  | some p =>
    apply Blames.then
    · apply Blames.within
      refine (blames_bodyType d operation p).imp ?_
      rintro inner ⟨s, hs, hexplained⟩
      exact hexplained.inPart (.body hb hs)
    · exact fun _ => ((accepts_addImport _).then fun _ => accepts_pure _).blames

theorem blames_emitResponses (operation : String) (successes : Nat)
    {responses : List (Nat × Response)}
    (h : ∀ q ∈ responses, ∃ key, (key, q.2) ∈ op.responses ∧ statusCode? key = some q.1) :
    Blames (emitResponses d operation successes responses) (ExplainedIn d item op) := by
  induction responses with
  | nil =>
    rw [emitResponses]
    exact (accepts_pure _).blames
  | cons q rest ih =>
    obtain ⟨code, r⟩ := q
    obtain ⟨⟨key, hmem, hkey⟩, hrest⟩ := List.forall_mem_cons.mp h
    rw [emitResponses]
    apply Blames.then
    · apply Blames.within
      split
      · rename_i hsuccess
        refine (blames_emitSuccessType d _ r.schema).imp ?_
        rintro inner ⟨s, hs, hexplained⟩
        exact hexplained.inPart (.success hmem hkey hsuccess hs)
      · rename_i hfailure
        refine (blames_emitErrorType d _ r.schema).imp ?_
        rintro inner ⟨s, hs, hexplained⟩
        exact hexplained.inPart (.failure hmem hkey hfailure hs)
    · exact fun _ => (ih hrest).then fun _ => (accepts_pure _).blames

theorem blames_emitOperation (d : Document) (path : String) (method : Method) (item : PathItem)
    (op : Operation) :
    Blames (emitOperation d path method item op) (ExplainedIn d item op) := by
  refine (accepts_tell _).blames.then fun _ => ?_
  refine (blames_operationParameters d item op).bind fun parameters hp => ?_
  refine (blames_sortInputs {} parameters).bind fun inputs hi => ?_
  obtain ⟨_, _, hi⟩ := hi
  rw [body_eq_bodyOf (yields_ofResolved hp) (congrArg Prod.fst hi)]
  refine (accepts_addImports _).blames.then fun _ => (accepts_tell _).blames.then fun _ => ?_
  refine (blames_emitUrl _ _).then fun _ => (blames_emitBody _).then fun _ => ?_
  refine (blames_emitQuery _).then fun _ => (accepts_tell _).blames.then fun _ => ?_
  apply Blames.then
  · exact blames_emitResponses _ _ fun _ => Operation.mem_statusCodes.mp
  · exact fun _ => (accepts_declare _ _).blames

theorem blames_emitDefinitions {definitions : Members Schema}
    (h : ∀ p ∈ definitions, p ∈ d.definitions) :
    Blames (emitDefinitions d definitions) (Pinpoints d (Known d)) := by
  induction definitions with
  | nil =>
    rw [emitDefinitions]
    exact (accepts_pure _).blames
  | cons p rest ih =>
    obtain ⟨name, s⟩ := p
    obtain ⟨hs, hrest⟩ := List.forall_mem_cons.mp h
    rw [emitDefinitions]
    apply Blames.then
    · apply Blames.within
      refine (blames_emitNamed d _ s).imp ?_
      exact fun _ hexplained => hexplained.pinpoints (.definition hs)
    · exact fun _ => ih hrest

theorem blames_emitOperations {operations : List (String × PathItem × Method × Operation)}
    (h : ∀ q ∈ operations, (q.1, q.2.1) ∈ d.paths ∧ q.2.1.operation q.2.2.1 = some q.2.2.2) :
    Blames (emitOperations d operations) (Pinpoints d (Known d)) := by
  induction operations with
  | nil =>
    rw [emitOperations]
    exact (accepts_pure _).blames
  | cons q rest ih =>
    obtain ⟨path, item, method, op⟩ := q
    obtain ⟨⟨hitem, hop⟩, hrest⟩ := List.forall_mem_cons.mp h
    rw [emitOperations]
    apply Blames.then
    · apply Blames.within
      refine (blames_emitOperation d path method item op).imp ?_
      rintro _ ⟨layer, use, s, inner, hpart, hexplained, rfl⟩
      exact hexplained.pinpoints (.operation hitem hop hpart)
    · exact fun _ => ih hrest

theorem blames_emitClient (d : Document) (options : Options) :
    Blames (emitClient d options) (Pinpoints d (Known d)) := by
  refine (accepts_emitSurface d options).blames.then fun _ => ?_
  refine Blames.then ?_ fun _ => Blames.then ?_ fun _ => (accepts_tell _).blames
  · exact blames_emitDefinitions fun p hp => (Members.sorted_perm d.definitions).mem_iff.mp hp
  · exact blames_emitOperations fun q hq => mem_operations.mp hq

/-- A definition that the generator does not find is missing, unless its name starts like the path
of a reference: the start is taken off twice. -/
theorem Offends.missing_or_stripped (h : Offends (Known d) use s cause) :
    Offends (· ∈ d.definitions.names) use s cause ∨
      ∃ name ∈ d.definitions.names, definitionsRoot.toList <+: name.toList ∧
        cause = .unresolved (.unknownDefinition (withoutStart definitionsRoot name)) := by
  induction h with
  | @missing use s reference huse hk hunknown =>
    by_cases hmem : reference ∈ d.definitions.names
    · refine .inr ⟨reference, hmem, ?_, rfl⟩
      by_contra hplain
      rw [known_iff, withoutStart_of_not_prefix hplain] at hunknown
      exact hunknown (Members.mem_names_iff.mp hmem)
    · exact .inl (.missing huse hk hmem)
  | unhandled huse hk htypes => exact .inl (.unhandled huse hk htypes)
  | array hk => exact .inl (.array hk)
  | primitive hk => exact .inl (.primitive hk)
  | nested hk => exact .inl (.nested hk)
  | malformed huse hk hi => exact .inl (.malformed huse hk hi)
  | items huse hk hi _ ih => exact ih.imp (.items huse hk hi) id

/-- What a fault names leads to a schema that the cause is true of, as the generator looks
references up; and also as they are meant, but for a definition whose name starts like the path of a
reference, which the generator does not find. -/
theorem fault_pinpoints (h : (generate d options).1 = .error fault) (hc : fault.cause.InSchema) :
    Pinpoints d (Known d) fault ∧
      (Pinpoints d (· ∈ d.definitions.names) fault ∨
        ∃ name ∈ d.definitions.names, definitionsRoot.toList <+: name.toList ∧
          fault.cause = .unresolved (.unknownDefinition (withoutStart definitionsRoot name))) := by
  have herror : (emitClient d options (start options)).1 = .error fault := by
    unfold generate at h
    split at h
    · cases h
    · rename_i other draft heq
      cases h
      rw [heq]
  have hpinpoints := blames_emitClient d options (start options) fault herror hc
  refine ⟨hpinpoints, ?_⟩
  obtain ⟨layers, use, s, properties, use', t, hencloses, hlayers, htraverses, hoffends⟩ :=
    hpinpoints
  refine hoffends.missing_or_stripped.imp_left fun hmissing => ?_
  exact ⟨layers, use, s, properties, use', t, hencloses, hlayers, htraverses, hmissing⟩

/-- The fault with which something ends. -/
def faultOf {α : Type} : Except Fault α → Option Fault
  | .ok _ => none
  | .error fault => some fault

theorem eq_error_of_faultOf {α : Type} {r : Except Fault α} (h : faultOf r = some fault) :
    r = .error fault := by
  cases r with
  | ok a => cases h
  | error other =>
    cases h
    rfl

namespace Watches

/-- A list for each watch. -/
def watches : Schema :=
  { types := some (.single .array), items := some (.single { types := some (.single .array) }) }

def ship : Schema := { types := some (.single .object), properties := [("watches", watches)] }

def fleet : Schema :=
  { types := some (.single .object)
    properties :=
      [("name", { types := some (.single .string) }),
        ("ships", { types := some (.single .array), items := some (.single ship) })] }

def document : Document :=
  { swagger := "2.0"
    paths := [("/fleet",
      { get := some { responses := [("200", { schema := some fleet })] } })] }

def reported : Fault :=
  ⟨[.operation .get "/fleet", .response 200, .property "ships", .property "watches"],
    .arrayOfArrays⟩

end Watches

open Watches in
theorem watches_pinpointed :
    (generate document {}).1 = .error reported ∧ reported.cause.InSchema ∧
      Pinpoints document (Known document) reported ∧
      (Pinpoints document (· ∈ document.definitions.names) reported ∨
        ∃ name ∈ document.definitions.names, definitionsRoot.toList <+: name.toList ∧
          reported.cause =
            .unresolved (.unknownDefinition (withoutStart definitionsRoot name))) := by
  have herror : (generate document {}).1 = .error reported :=
    eq_error_of_faultOf (by decide +kernel)
  exact ⟨herror, trivial, fault_pinpoints herror trivial⟩

theorem Offends.not_known (h : Offends known use s cause) (hk : s.kind = .reference reference) :
    ¬ known reference := by
  intro hknown
  cases h <;> simp_all

namespace Stripped

/-- A definition whose name starts like the path of a reference, and a reference to it. -/
def document : Document :=
  { swagger := "2.0"
    definitions :=
      [("#/definitions/X", { types := some (.single .object) }),
        ("A", { reference := some "#/definitions/#/definitions/X" })] }

def reported : Fault := ⟨[.definition "A"], .unresolved (.unknownDefinition "X")⟩

end Stripped

open Stripped in
/-- The fault says that a definition is missing, and nothing at the definition that it names refers
to one that is. -/
theorem stripped_not_pinpointed :
    (generate document {}).1 = .error reported ∧ reported.cause.InSchema ∧
      ¬ Pinpoints document (· ∈ document.definitions.names) reported := by
  refine ⟨eq_error_of_faultOf (by decide +kernel), trivial, ?_⟩
  rintro ⟨layers, use, s, properties, use', t, hencloses, hlayers, htraverses, hoffends⟩
  cases hencloses with
  | operation hitem => cases hitem
  | @definition name s hs =>
    obtain ⟨hname, hnone⟩ := List.cons.inj hlayers
    obtain rfl : properties = [] := List.map_eq_nil_iff.mp hnone.symm
    cases htraverses
    obtain rfl : "A" = name := Layer.definition.inj hname
    obtain rfl : s = { reference := some "#/definitions/#/definitions/X" } := by
      simpa [document] using hs
    have hk : Schema.kind { reference := some "#/definitions/#/definitions/X" } =
        .reference "#/definitions/X" := by decide
    exact hoffends.not_known hk (by decide)

end ApiContract.GoClient
