import ApiContract.Proofs.GoClient.Arguments
import ApiContract.Proofs.GoClient.OperationTypes

namespace ApiContract.GoClient

open Emit

variable {d : Document} {s : Schema} {p : Parameter} {r : Response} {code successes : Nat}
  {operation path : String} {parameters : List Parameter} {pieces : List Piece} {inputs : Inputs}
  {responses : List (Nat × Response)} {arms : List Arm} {item : PathItem} {method : Method}
  {op : Operation} {options : Options}

/-- There are types for all that a request holds. -/
structure FitsInputs (known : String → Prop) (path : String) (inputs : Inputs) : Prop where
  url : ∀ name p, .parameter name ∈
      (PathTemplate.interpolate path (inputs.path.map Parameter.name)).pieces →
    inputs.path.find? (·.name = name) = some p → ∃ a, Yields (pathArgument p) a
  body : ∀ p, inputs.body = some p → FitsBody known p
  query : ∀ p ∈ inputs.query, ∃ a, Yields (queryArgument p) a

theorem accepts_pathArgument {a : GoType × Conversion} (h : Yields (pathArgument p) a) :
    Accepts (pathArgument p) := by
  unfold pathArgument at h ⊢
  split at h
  · exact accepts_pure _
  · exact (accepts_addImport _).then fun _ => accepts_pure _
  · exact (accepts_addImport _).then fun _ => accepts_pure _
  · exact absurd h not_yields_fail

theorem accepts_queryArgument {a : GoType × Conversion} (h : Yields (queryArgument p) a) :
    Accepts (queryArgument p) := by
  unfold queryArgument at h ⊢
  split at h
  · exact absurd h not_yields_fail
  · exact accepts_pure _
  · exact (accepts_addImport _).then fun _ => accepts_pure _
  · exact (accepts_addImport _).then fun _ => accepts_pure _
  · exact (accepts_addImport _).then fun _ => accepts_pure _

theorem yields_url {url : List UrlPart × List Argument}
    (h : Yields (emitUrl parameters pieces) url) :
    ∀ name p, .parameter name ∈ pieces → parameters.find? (·.name = name) = some p →
      ∃ a, Yields (pathArgument p) a := by
  intro name p hm hp
  have hin : p ∈ parametersIn parameters pieces :=
    List.mem_filterMap.mpr ⟨name, List.mem_filterMap.mpr ⟨_, hm, rfl⟩, hp⟩
  obtain ⟨a, ha⟩ := (exists_of_map_some (url_of_yields h).2).2 p hin
  obtain ⟨t, -, rfl⟩ := Option.map_eq_some_iff.mp ha
  exact ⟨(.ofPrimitive t, pathConversion p), yields_pathArgument_iff.mpr ⟨ha, rfl⟩⟩

theorem accepts_url
    (h : ∀ name p, .parameter name ∈ pieces → parameters.find? (·.name = name) = some p →
      ∃ a, Yields (pathArgument p) a) : Accepts (emitUrl parameters pieces) := by
  induction pieces with
  | nil =>
    rw [emitUrl]
    exact accepts_pure _
  | cons piece rest ih =>
    have hrest := ih fun name p hm hp => h name p (List.mem_cons_of_mem _ hm) hp
    cases piece with
    | literal text =>
      rw [emitUrl]
      exact hrest.then fun _ => accepts_pure _
    | parameter name =>
      rw [emitUrl.eq_def]
      cases hf : parameters.find? (·.name = name) with
      | none =>
        simp only [hf]
        exact hrest
      | some p =>
        obtain ⟨a, ha⟩ := h name p List.mem_cons_self hf
        simp only [hf]
        exact ((accepts_pathArgument ha).within _).then fun _ =>
          hrest.then fun _ => accepts_pure _

theorem yields_query {query : List QueryItem × List Argument}
    (h : Yields (emitQuery parameters) query) :
    ∀ p ∈ parameters, ∃ a, Yields (queryArgument p) a := by
  intro p hp
  obtain ⟨a, ha⟩ := (exists_of_map_some (query_of_yields h).2).2 p hp
  obtain ⟨t, ht, -⟩ := Option.map_eq_some_iff.mp ha
  have htype : p.primitive?.map GoType.ofPrimitive = some (GoType.ofPrimitive t) := by rw [ht]; rfl
  exact ⟨(.ofPrimitive t, queryConversion p), yields_queryArgument_iff.mpr ⟨htype, rfl⟩⟩

theorem accepts_query (h : ∀ p ∈ parameters, ∃ a, Yields (queryArgument p) a) :
    Accepts (emitQuery parameters) := by
  induction parameters with
  | nil =>
    rw [emitQuery]
    exact accepts_pure _
  | cons p rest ih =>
    obtain ⟨⟨a, ha⟩, hrest⟩ := List.forall_mem_cons.mp h
    rw [emitQuery]
    exact ((accepts_queryArgument ha).within _).then fun _ =>
      (ih hrest).then fun _ => accepts_pure _

/-- The parameters of an operation are found, at most one of them is a body, and there are types for
what they hold. -/
def FitsRequest (known : String → Prop) (d : Document) (path : String) (item : PathItem)
    (op : Operation) : Prop :=
  ∃ parameters inputs, d.operationParameters item op = .ok parameters ∧
    sortInputs {} parameters = .ok inputs ∧ FitsInputs known path inputs

/-- There are types for all that an operation needs. -/
structure FitsOperation (known : String → Prop) (d : Document) (path : String) (item : PathItem)
    (op : Operation) : Prop where
  request : FitsRequest known d path item op
  responses : ∀ q ∈ op.statusCodes, ∀ s, q.2.schema = some s → FitsResponse known q.1 s

theorem fitsOperation_of_emitOperation (h : Yields (emitOperation d path method item op) ()) :
    FitsOperation (Known d) d path item op := by
  obtain ⟨_, -, h⟩ := yields_of_bind h
  obtain ⟨parameters, hp, h⟩ := yields_of_bind h
  obtain ⟨inputs, ⟨_, _, hi⟩, h⟩ := yields_of_bind h
  obtain ⟨_, -, h⟩ := yields_of_bind h
  obtain ⟨_, -, h⟩ := yields_of_bind h
  obtain ⟨_, hurl, h⟩ := yields_of_bind h
  obtain ⟨_, hbody, h⟩ := yields_of_bind h
  obtain ⟨_, hquery, h⟩ := yields_of_bind h
  obtain ⟨_, -, h⟩ := yields_of_bind h
  obtain ⟨_, hres, -⟩ := yields_of_bind h
  refine ⟨⟨parameters, inputs, yields_ofResolved hp, congrArg Prod.fst hi, ?_⟩,
    (declares_emitResponses ..).possible_of_yields hres⟩
  refine ⟨yields_url hurl, fun p hp => ?_, yields_query hquery⟩
  rw [hp] at hbody
  obtain ⟨type, ht, -⟩ := yields_of_bind hbody
  exact (declares_bodyType ..).possible_of_yields (yields_of_within ht)

theorem accepts_emitOperation (h : FitsOperation (Known d) d path item op) (method : Method) :
    Accepts (emitOperation d path method item op) := by
  obtain ⟨⟨parameters, inputs, hp, hi, hfits⟩, hres⟩ := h
  refine (accepts_tell _).then fun _ => (accepts_ofResolved hp).bind fun found hfound => ?_
  obtain rfl : parameters = found := by
    have hok := yields_ofResolved hfound
    rw [hp] at hok
    exact Except.ok.inj hok
  have hsort : Accepts fun draft => (sortInputs {} parameters, draft) := by
    intro draft fault he
    rw [hi] at he
    cases he
  refine hsort.bind fun sorted ⟨_, _, hsorted⟩ => ?_
  obtain rfl : inputs = sorted := by
    have hok := congrArg Prod.fst hsorted
    rw [hi] at hok
    exact Except.ok.inj hok
  have hbody : ∀ name, Accepts (emitBody d name inputs.body) := by
    intro name
    cases hb : inputs.body with
    | none => exact accepts_pure _
    | some p =>
      exact (((declares_bodyType d name p).accepts (hfits.body p hb)).within _).then fun _ =>
        (accepts_addImport _).then fun _ => accepts_pure _
  refine (accepts_addImports _).then fun _ => (accepts_tell _).then fun _ => ?_
  refine (accepts_url hfits.url).then fun _ => (hbody _).then fun _ => ?_
  refine (accepts_query hfits.query).then fun _ => (accepts_tell _).then fun _ => ?_
  exact ((declares_emitResponses ..).accepts hres).then fun _ => accepts_declare _ _

/-- There are types for all that a document holds. -/
structure Generatable (known : String → Prop) (d : Document) : Prop where
  definitions : ∀ p ∈ d.definitions, Fits known .named p.2
  operations : ∀ p ∈ d.paths, ∀ method op, p.2.operation method = some op →
    FitsOperation known d p.1 p.2 op

theorem mem_operations {q : String × PathItem × Method × Operation} :
    q ∈ d.operations ↔
      (q.1, q.2.1) ∈ d.paths ∧ q.2.1.operation q.2.2.1 = some q.2.2.2 := by
  obtain ⟨path, item, method, op⟩ := q
  have hall : method ∈ Method.all := by cases method <;> decide
  simp only [Document.operations, Document.sortedPaths, PathItem.operations, List.mem_flatMap,
    (Members.sorted_perm d.paths).mem_iff, List.mem_map, List.mem_filterMap]
  constructor
  · rintro ⟨⟨path', item'⟩, hm, ⟨method', op'⟩, ⟨other, -, ho⟩, he⟩
    obtain ⟨op'', hop, hpair⟩ := Option.map_eq_some_iff.mp ho
    cases hpair
    cases he
    exact ⟨hm, hop⟩
  · rintro ⟨hm, ho⟩
    exact ⟨(path, item), hm, (method, op), ⟨method, hall, by rw [ho, Option.map_some]⟩, rfl⟩

theorem fits_of_emitDefinitions {definitions : Members Schema}
    (h : Yields (emitDefinitions d definitions) ()) :
    ∀ p ∈ definitions, Fits (Known d) .named p.2 := by
  induction definitions with
  | nil => simp
  | cons p rest ih =>
    obtain ⟨name, s⟩ := p
    rw [emitDefinitions] at h
    obtain ⟨_, hs, hrest⟩ := yields_of_bind h
    have hfits := (declares_emitNamed ..).possible_of_yields (yields_of_within hs)
    exact List.forall_mem_cons.mpr ⟨hfits, ih hrest⟩

theorem accepts_emitDefinitions {definitions : Members Schema}
    (h : ∀ p ∈ definitions, Fits (Known d) .named p.2) :
    Accepts (emitDefinitions d definitions) := by
  induction definitions with
  | nil =>
    rw [emitDefinitions]
    exact accepts_pure _
  | cons p rest ih =>
    obtain ⟨name, s⟩ := p
    obtain ⟨hs, hrest⟩ := List.forall_mem_cons.mp h
    rw [emitDefinitions]
    exact (((declares_emitNamed ..).accepts hs).within _).then fun _ => ih hrest

theorem fits_of_emitOperations {operations : List (String × PathItem × Method × Operation)}
    (h : Yields (emitOperations d operations) ()) :
    ∀ q ∈ operations, FitsOperation (Known d) d q.1 q.2.1 q.2.2.2 := by
  induction operations with
  | nil => simp
  | cons q rest ih =>
    obtain ⟨path, item, method, op⟩ := q
    rw [emitOperations] at h
    obtain ⟨_, hq, hrest⟩ := yields_of_bind h
    exact List.forall_mem_cons.mpr
      ⟨fitsOperation_of_emitOperation (yields_of_within hq), ih hrest⟩

theorem accepts_emitOperations {operations : List (String × PathItem × Method × Operation)}
    (h : ∀ q ∈ operations, FitsOperation (Known d) d q.1 q.2.1 q.2.2.2) :
    Accepts (emitOperations d operations) := by
  induction operations with
  | nil =>
    rw [emitOperations]
    exact accepts_pure _
  | cons q rest ih =>
    obtain ⟨path, item, method, op⟩ := q
    obtain ⟨hq, hrest⟩ := List.forall_mem_cons.mp h
    rw [emitOperations]
    exact ((accepts_emitOperation hq method).within _).then fun _ => ih hrest

theorem accepts_emitSurface (d : Document) (options : Options) :
    Accepts (emitSurface d options) := by
  have hwarn : ∀ (c : Prop) [Decidable c] (warning rest : Emit Unit), Accepts warning →
      Accepts rest → Accepts (if c then warning >>= fun _ => rest else rest) := by
    intro c _ warning rest hw hr
    split
    · exact hw.then fun _ => hr
    · exact hr
  refine hwarn _ _ _ (accepts_tell _) ?_
  refine (accepts_addImports _).then fun _ => ?_
  exact (accepts_declare _ _).then fun _ => accepts_declare _ _

theorem generatable_of_generate {file : File Declaration}
    (h : (generate d options).1 = .ok file) : Generatable (Known d) d := by
  have hyields : Yields (emitClient d options) () := by
    unfold generate at h
    split at h
    · exact ⟨_, _, ‹_›⟩
    · cases h
  obtain ⟨_, -, h⟩ := yields_of_bind hyields
  obtain ⟨_, hdefs, h⟩ := yields_of_bind h
  obtain ⟨_, hops, -⟩ := yields_of_bind h
  refine ⟨fun p hp => ?_, fun p hp method op hop => ?_⟩
  · exact fits_of_emitDefinitions hdefs p ((Members.sorted_perm d.definitions).mem_iff.mpr hp)
  · exact fits_of_emitOperations hops (p.1, p.2, method, op) (mem_operations.mpr ⟨hp, hop⟩)

/-- A client is generated, or a name would have to be declared twice. -/
theorem Generatable.declaredTwice (h : Generatable (Known d) d) {fault : Fault}
    (hf : (generate d options).1 = .error fault) : ∃ name, fault.cause = .declaredTwice name := by
  have haccepts : Accepts (emitClient d options) := by
    refine (accepts_emitSurface d options).then fun _ => ?_
    refine Accepts.then ?_ fun _ => Accepts.then ?_ fun _ => accepts_tell _
    · exact accepts_emitDefinitions fun p hp =>
        h.definitions p ((Members.sorted_perm d.definitions).mem_iff.mp hp)
    · refine accepts_emitOperations fun q hq => ?_
      obtain ⟨hm, ho⟩ := mem_operations.mp hq
      exact h.operations _ hm _ _ ho
  apply haccepts (start options) fault
  unfold generate at hf
  split at hf
  · cases hf
  · rename_i other draft heq
    cases hf
    rw [heq]

end ApiContract.GoClient
