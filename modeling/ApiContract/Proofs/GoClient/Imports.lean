import ApiContract.Proofs.GoClient.Origins

namespace ApiContract.GoClient

open Naming

namespace File

variable {path other : String} {imports paths : List String}

theorem mem_insertImport : other ∈ insertImport path imports ↔ other = path ∨ other ∈ imports := by
  induction imports with
  | nil => simp [insertImport]
  | cons p rest ih =>
    unfold insertImport
    split
    · rename_i he
      simp [he]
    · split
      · simp
      · rw [List.mem_cons, List.mem_cons, ih]
        exact or_left_comm

theorem pairwise_insertImport (h : imports.Pairwise (· < ·)) :
    (insertImport path imports).Pairwise (· < ·) := by
  induction imports with
  | nil => exact List.pairwise_singleton _ path
  | cons p rest ih =>
    obtain ⟨hp, hrest⟩ := List.pairwise_cons.mp h
    unfold insertImport
    split
    · exact h
    · rename_i hne
      split
      · rename_i hlt
        refine List.pairwise_cons.mpr ⟨List.forall_mem_cons.mpr ⟨hlt, ?_⟩, h⟩
        exact fun r hr => String.lt_trans hlt (hp r hr)
      · rename_i hle
        refine List.pairwise_cons.mpr ⟨?_, ih hrest⟩
        intro r hr
        rcases mem_insertImport.mp hr with rfl | hr
        · exact Std.lt_of_le_of_ne (String.not_lt.mp hle) (Ne.symm hne)
        · exact hp r hr

/-- Imports with more put in, one after the other. -/
def insertImports (paths imports : List String) : List String :=
  paths.foldl (fun imports path => insertImport path imports) imports

theorem insertImports_append (first second imports : List String) :
    insertImports (first ++ second) imports = insertImports second (insertImports first imports) :=
  List.foldl_append

theorem mem_insertImports :
    other ∈ insertImports paths imports ↔ other ∈ paths ∨ other ∈ imports := by
  induction paths generalizing imports with
  | nil => simp [insertImports]
  | cons path rest ih =>
    have hcons : insertImports (path :: rest) imports =
        insertImports rest (insertImport path imports) := rfl
    rw [hcons, ih, mem_insertImport, List.mem_cons, or_assoc, or_left_comm]

theorem pairwise_insertImports (h : imports.Pairwise (· < ·)) :
    (insertImports paths imports).Pairwise (· < ·) := by
  induction paths generalizing imports with
  | nil => exact h
  | cons path rest ih => exact ih (pairwise_insertImport h)

end File

namespace Emit

variable {α β : Type} {m : Emit α} {f : α → Emit β} {first paths : List String} {possible : Prop}
  {a : α} {added : Members Declaration}

/-- If the step succeeds it has imported these packages one after the other. -/
def Imports (m : Emit α) (paths : List String) : Prop :=
  ∀ draft a draft', m draft = (.ok a, draft') →
    draft'.file.imports = File.insertImports paths draft.file.imports

theorem Imports.bind (hm : Imports m first) (hf : ∀ a, Yields m a → Imports (f a) paths) :
    Imports (m >>= f) (first ++ paths) := by
  intro draft b draft' h
  obtain ⟨a, next, ha, hb⟩ := eq_ok_of_bind h
  rw [hf a ⟨draft, next, ha⟩ next b draft' hb, hm draft a next ha, File.insertImports_append]

/-- What follows a step that imports nothing imports all. -/
theorem Imports.then (hm : Imports m []) (hf : ∀ a, Yields m a → Imports (f a) paths) :
    Imports (m >>= f) paths :=
  hm.bind hf

/-- What follows the last import imports nothing. -/
theorem Imports.last (hm : Imports m paths) (hf : ∀ a, Yields m a → Imports (f a) []) :
    Imports (m >>= f) paths := by
  rw [← List.append_nil paths]
  exact hm.bind hf

theorem Imports.within (h : Imports m paths) (layer : Layer) : Imports (within layer m) paths :=
  fun draft a draft' hm => h draft a draft' (eq_ok_of_within hm)

theorem imports_pure (a : α) : Imports (pure a) [] := by
  intro draft b draft' h
  cases h
  rfl

theorem imports_fail (cause : Cause) (paths : List String) :
    Imports (fail cause : Emit α) paths := by
  intro draft a draft' h
  cases h

theorem imports_tell (lines : List LogLine) : Imports (tell lines) [] := by
  intro draft a draft' h
  cases h
  rfl

theorem imports_ofResolved (r : Except ResolveFault α) : Imports (ofResolved r) [] := by
  cases r with
  | ok a => exact imports_pure a
  | error fault => exact imports_fail _ _

theorem imports_addImport (path : String) : Imports (addImport path) [path] := by
  intro draft a draft' h
  cases h
  rfl

theorem imports_addImports (paths : List String) : Imports (addImports paths) paths := by
  induction paths with
  | nil => exact imports_pure ()
  | cons path rest ih => exact (imports_addImport path).bind fun _ _ => ih

theorem imports_sortInputs (parameters : List Parameter) :
    Imports (fun draft => (sortInputs {} parameters, draft)) [] := by
  intro draft inputs draft' h
  obtain rfl : draft = draft' := congrArg Prod.snd h
  rfl

theorem Declares.imports (h : Declares m possible a added) : Imports m [] := by
  intro draft b draft' hm
  obtain ⟨-, rfl⟩ := h.eq_of_ok hm
  rfl

end Emit

open Emit

variable {path : String} {d : Document} {options : Options} {file : File Declaration}
  {parameters : List Parameter} {pieces : List Piece} {p : Parameter}

/-- The package that converts the argument of a parameter. -/
def converting (p : Parameter) : List String := if Converted p then ["strconv"] else []

theorem imports_pathArgument (h : p.location = .path) :
    Imports (pathArgument p) (converting p) := by
  unfold pathArgument converting
  cases hp : p.primitive? with
  | none => exact imports_fail _ _
  | some t =>
    cases t with
    | string =>
      rw [if_neg (by simp [Converted, h, hp])]
      exact imports_pure _
    | boolean => exact imports_fail _ _
    | number | integer =>
      rw [if_pos (by simp [Converted, h, hp])]
      exact (imports_addImport _).last fun _ _ => imports_pure _

theorem imports_queryArgument (h : p.location = .query) :
    Imports (queryArgument p) (converting p) := by
  unfold queryArgument converting
  cases hp : p.primitive? with
  | none => exact imports_fail _ _
  | some t =>
    cases t with
    | string =>
      rw [if_neg (by simp [Converted, h, hp])]
      exact imports_pure _
    | number | integer | boolean =>
      rw [if_pos (by simp [Converted, h, hp])]
      exact (imports_addImport _).last fun _ _ => imports_pure _

theorem imports_emitUrl (h : ∀ p ∈ parameters, p.location = .path) :
    Imports (emitUrl parameters pieces) ((parametersIn parameters pieces).flatMap converting) := by
  induction pieces with
  | nil =>
    rw [emitUrl]
    exact imports_pure _
  | cons piece rest ih =>
    cases piece with
    | literal text =>
      rw [emitUrl]
      exact ih.last fun _ _ => imports_pure _
    | parameter v =>
      rw [emitUrl.eq_def, parametersIn_cons]
      dsimp only
      cases hf : parameters.find? (·.name = v) with
      | none => exact ih
      | some p =>
        have hp := h p (List.mem_of_find?_eq_some hf)
        rw [Option.toList_some, List.singleton_append, List.flatMap_cons]
        apply ((imports_pathArgument hp).within _).bind
        intro _ _
        exact ih.last fun _ _ => imports_pure _

theorem imports_emitQuery (h : ∀ p ∈ parameters, p.location = .query) :
    Imports (emitQuery parameters) (parameters.flatMap converting) := by
  induction parameters with
  | nil =>
    rw [emitQuery]
    exact imports_pure _
  | cons p rest ih =>
    obtain ⟨hp, hrest⟩ := List.forall_mem_cons.mp h
    rw [emitQuery, List.flatMap_cons]
    apply ((imports_queryArgument hp).within _).bind
    intro _ _
    exact (ih hrest).last fun _ _ => imports_pure _

theorem imports_emitBody (d : Document) (operation : String) (body : Option Parameter) :
    Imports (emitBody d operation body) (if body.isSome then ["bytes"] else []) := by
  cases body with
  | none => exact imports_pure _
  | some p =>
    apply ((declares_bodyType d operation p).within _).imports.then
    intro _ _
    exact (imports_addImport _).last fun _ _ => imports_pure _

/-- The parameters of an operation with their references followed, or none if there is one that
leads nowhere. -/
def parametersOf (d : Document) (item : PathItem) (op : Operation) : List Parameter :=
  (d.operationParameters item op).toOption.getD []

/-- What is imported for an operation. -/
def operationImports (path : String) (parameters : List Parameter) : List String :=
  methodImports ++ (placedIn path parameters).flatMap converting ++
    (if ∃ p ∈ parameters, p.location = .body then ["bytes"] else []) ++
    (queried parameters).flatMap converting

theorem imports_emitOperation (d : Document) (path : String) (method : Method) (item : PathItem)
    (op : Operation) :
    Imports (emitOperation d path method item op)
      (operationImports path (parametersOf d item op)) := by
  apply (imports_tell _).then
  intro _ _
  apply (imports_ofResolved _).then
  intro parameters hfound
  have hparameters : parametersOf d item op = parameters := by
    rw [parametersOf, yields_ofResolved hfound]
    rfl
  rw [hparameters]
  apply (imports_sortInputs parameters).then
  rintro inputs ⟨_, _, hsorted⟩
  have hinputs : sortInputs {} parameters = .ok inputs := congrArg Prod.fst hsorted
  obtain ⟨hplaced, hqueried⟩ := inputs_of_sortInputs hinputs path
  obtain ⟨hpath, -, -⟩ := filters_of_sortInputs hinputs
  have hinpath : ∀ p ∈ inputs.path, p.location = .path := by
    intro p hp
    rw [hpath, List.nil_append] at hp
    simpa using (List.mem_filter.mp hp).2
  have hbody : (if ∃ p ∈ parameters, p.location = .body then ["bytes"] else []) =
      if inputs.body.isSome then ["bytes"] else [] :=
    if_congr (body_isSome_iff hinputs).symm rfl rfl
  rw [operationImports, hbody, ← hplaced, ← hqueried, List.append_assoc, List.append_assoc]
  apply (imports_addImports _).bind
  intro _ _
  apply (imports_tell _).then
  intro _ _
  apply (imports_emitUrl hinpath).bind
  intro _ _
  apply (imports_emitBody d _ inputs.body).bind
  intro _ _
  apply Imports.last
  · apply imports_emitQuery
    rw [hqueried]
    exact fun p hp => location_of_mem_queried hp
  · intro _ _
    apply (imports_tell _).then
    intro _ _
    apply (declares_emitResponses d _ _ _).imports.then
    intro _ _
    exact (declares_declare _ _).imports

theorem imports_emitOperations (d : Document)
    (operations : List (String × PathItem × Method × Operation)) :
    Imports (emitOperations d operations)
      (operations.flatMap fun q => operationImports q.1 (parametersOf d q.2.1 q.2.2.2)) := by
  induction operations with
  | nil =>
    rw [emitOperations]
    exact imports_pure ()
  | cons q rest ih =>
    obtain ⟨path, item, method, op⟩ := q
    rw [emitOperations, List.flatMap_cons]
    exact ((imports_emitOperation d path method item op).within _).bind fun _ _ => ih

theorem imports_emitDefinitions (d : Document) (definitions : Members Schema) :
    Imports (emitDefinitions d definitions) [] := by
  induction definitions with
  | nil =>
    rw [emitDefinitions]
    exact imports_pure ()
  | cons p rest ih =>
    obtain ⟨name, s⟩ := p
    rw [emitDefinitions]
    exact ((declares_emitNamed d (camelCase name) s).imports.within _).then fun _ _ => ih

theorem imports_emitSurface (d : Document) (options : Options) :
    Imports (emitSurface d options) surfaceImports := by
  unfold emitSurface
  dsimp only
  have hrest : Imports (do
      Emit.addImports surfaceImports
      Emit.declare "Client" (.client ((d.info.map Info.title).getD "")
        ((options.baseUrl.or d.defaultBaseUrl).getD ""))
      Emit.declare "ErrorResponse" .errorResponse) surfaceImports := by
    apply (imports_addImports _).last
    intro _ _
    apply (declares_declare _ _).imports.then
    intro _ _
    exact (declares_declare _ _).imports
  split
  · exact (imports_tell _).then fun _ _ => hrest
  · exact hrest

theorem imports_of_generate (h : (generate d options).1 = .ok file) :
    file.imports = File.insertImports (surfaceImports ++ d.operations.flatMap fun q =>
      operationImports q.1 (parametersOf d q.2.1 q.2.2.2)) [] := by
  have hclient : Imports (emitClient d options) (surfaceImports ++ d.operations.flatMap fun q =>
      operationImports q.1 (parametersOf d q.2.1 q.2.2.2)) := by
    apply (imports_emitSurface d options).bind
    intro _ _
    apply (imports_emitDefinitions d _).then
    intro _ _
    apply (imports_emitOperations d _).last
    intro _ _
    exact imports_tell _
  unfold generate at h
  split at h
  · rename_i draft heq
    cases h
    exact hclient _ _ _ heq
  · cases h

theorem ascending_imports (h : (generate d options).1 = .ok file) :
    file.imports.Pairwise (· < ·) := by
  rw [imports_of_generate h]
  exact File.pairwise_insertImports .nil

theorem mem_flatMap_converting {x : String} {ps : List Parameter} :
    x ∈ ps.flatMap converting ↔ x = "strconv" ∧ ∃ p ∈ ps, Converted p := by
  have heach : ∀ p, x ∈ converting p ↔ x = "strconv" ∧ Converted p := by
    intro p
    unfold converting
    split <;> simp [*]
  simp only [List.mem_flatMap, heach]
  grind

/-- What a client that is generated imports. -/
theorem mem_imports (h : (generate d options).1 = .ok file) (x : String) :
    x ∈ file.imports ↔ x ∈ surfaceImports ∨
      (d.operations ≠ [] ∧ x ∈ ["context", "encoding/json", "errors", "io"]) ∨
      (x = "bytes" ∧ ∃ q ∈ d.operations, ∃ p ∈ parametersOf d q.2.1 q.2.2.2,
        p.location = .body) ∨
      (x = "strconv" ∧ ∃ q ∈ d.operations,
        ∃ p ∈ givenTo q.1 (parametersOf d q.2.1 q.2.2.2), Converted p) := by
  have hsome : d.operations ≠ [] ↔ ∃ q, q ∈ d.operations :=
    ⟨List.exists_mem_of_ne_nil _, fun ⟨_, hq⟩ => List.ne_nil_of_mem hq⟩
  have hbody : ∀ parameters : List Parameter,
      x ∈ (if ∃ p ∈ parameters, p.location = .body then ["bytes"] else []) ↔
        x = "bytes" ∧ ∃ p ∈ parameters, p.location = .body := by
    intro parameters
    split <;> simp [*]
  have heach : ∀ q : String × PathItem × Method × Operation,
      x ∈ operationImports q.1 (parametersOf d q.2.1 q.2.2.2) ↔ x ∈ methodImports ∨
        (x = "bytes" ∧ ∃ p ∈ parametersOf d q.2.1 q.2.2.2, p.location = .body) ∨
        (x = "strconv" ∧ ∃ p ∈ givenTo q.1 (parametersOf d q.2.1 q.2.2.2), Converted p) := by
    intro q
    simp only [operationImports, List.mem_append, mem_flatMap_converting, hbody, givenTo]
    grind
  have hcommon : x ∈ methodImports ↔
      x ∈ ["context", "encoding/json", "errors", "io"] ∨ x ∈ ["fmt", "net/http"] := by
    simp only [methodImports, List.mem_cons, List.not_mem_nil, or_false]
    grind
  have hsurface : x ∈ ["fmt", "net/http"] → x ∈ surfaceImports := by
    simp only [surfaceImports, List.mem_cons, List.not_mem_nil, or_false]
    grind
  rw [imports_of_generate h, File.mem_insertImports, List.mem_append, List.mem_flatMap, hsome]
  simp only [heach, hcommon, List.not_mem_nil, or_false]
  constructor
  · rintro (hs | ⟨q, hq, (hc | hc) | ⟨hx, hb⟩ | ⟨hx, hg⟩⟩)
    · exact .inl hs
    · exact .inr (.inl ⟨⟨q, hq⟩, hc⟩)
    · exact .inl (hsurface hc)
    · exact .inr (.inr (.inl ⟨hx, q, hq, hb⟩))
    · exact .inr (.inr (.inr ⟨hx, q, hq, hg⟩))
  · rintro (hs | ⟨⟨q, hq⟩, hc⟩ | ⟨hx, q, hq, hb⟩ | ⟨hx, q, hq, hg⟩)
    · exact .inl hs
    · exact .inr ⟨q, hq, .inl (.inl hc)⟩
    · exact .inr ⟨q, hq, .inr (.inl ⟨hx, hb⟩)⟩
    · exact .inr ⟨q, hq, .inr (.inr ⟨hx, hg⟩)⟩

end ApiContract.GoClient
