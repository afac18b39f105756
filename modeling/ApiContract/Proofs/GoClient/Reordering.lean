import ApiContract.Proofs.Document.Decoded
import ApiContract.Proofs.GoClient.Lookups
import Mathlib.Data.List.Forall2

namespace ApiContract

namespace Operation

/-- The same operation with its responses in another order. -/
def Reordered (op op' : Operation) : Prop :=
  ∃ responses, responses.Perm op.responses ∧ op' = { op with responses }

variable {op op' : Operation}

theorem Reordered.refl (op : Operation) : Reordered op op := ⟨op.responses, .refl _, rfl⟩

theorem Reordered.symm (h : Reordered op op') : Reordered op' op := by
  obtain ⟨responses, hperm, rfl⟩ := h
  exact ⟨op.responses, hperm.symm, rfl⟩

/-- If no code repeats, the order by code is the only one. -/
theorem Reordered.statusCodes_eq (h : Reordered op op')
    (hcodes : op.statusCodes.Pairwise fun q r => q.1 < r.1) : op'.statusCodes = op.statusCodes := by
  obtain ⟨responses, hperm, rfl⟩ := h
  have hperm : Operation.statusCodes { op with responses } |>.Perm op.statusCodes :=
    (statusCodes_perm _).trans ((hperm.filterMap _).trans (statusCodes_perm op).symm)
  have hdistinct : (op.statusCodes.map Prod.fst).Nodup :=
    List.pairwise_map.mpr (hcodes.imp Nat.ne_of_lt)
  have hcodes' := ascending_of_nodup ((hperm.map Prod.fst).nodup_iff.mpr hdistinct)
  refine List.Perm.eq_of_pairwise ?_ hcodes' hcodes hperm
  intro q r _ _ hqr hrq
  omega

end Operation

namespace PathItem

/-- The same path with the responses of its operations in another order. -/
structure Reordered (item item' : PathItem) : Prop where
  parameters : item'.parameters = item.parameters
  operation : ∀ method,
    Option.Rel Operation.Reordered (item.operation method) (item'.operation method)

theorem Reordered.refl (item : PathItem) : Reordered item item := by
  refine ⟨rfl, ?_⟩
  intro method
  cases item.operation method with
  | none => exact .none
  | some op => exact .some (.refl op)

end PathItem

namespace GoClient

open Emit

/-- Operations at one place of two documents that differ in the order of their responses at most. -/
structure SameOperation (q q' : String × PathItem × Method × Operation) : Prop where
  path : q'.1 = q.1
  method : q'.2.2.1 = q.2.2.1
  parameters : q'.2.1.parameters = q.2.1.parameters
  operation : q.2.2.2.Reordered q'.2.2.2

/-- Documents in which a generator finds the same, but for the order of responses. -/
structure Counterpart (d d' : Document) : Prop where
  surface : ∀ options, emitSurface d options = emitSurface d' options
  definition : ∀ reference, d.definition reference = d'.definition reference
  resolve : ∀ entry : ParameterEntry, entry.resolve d.parameters = entry.resolve d'.parameters
  definitions : d.sortedDefinitions = d'.sortedDefinitions
  operations : List.Forall₂ SameOperation d.operations d'.operations

variable {d d' : Document} {options : Options} {q q' : String × PathItem × Method × Operation}
  {item item' : PathItem} {op op' : Operation} {file : File Declaration}

theorem SameOperation.refl (q : String × PathItem × Method × Operation) : SameOperation q q :=
  ⟨rfl, rfl, rfl, .refl _⟩

theorem SameOperation.symm (h : SameOperation q q') : SameOperation q' q :=
  ⟨h.path.symm, h.method.symm, h.parameters.symm, h.operation.symm⟩

theorem Counterpart.symm (h : Counterpart d d') : Counterpart d' d := by
  refine ⟨fun options => (h.surface options).symm, fun r => (h.definition r).symm,
    fun entry => (h.resolve entry).symm, h.definitions.symm, ?_⟩
  exact h.operations.flip.imp fun _ _ hq => hq.symm

theorem Counterpart.operationParameters (h : Counterpart d d')
    (hitem : item'.parameters = item.parameters) (hop : op'.parameters = op.parameters) :
    d.operationParameters item op = d'.operationParameters item' op' := by
  have hresolve : (fun entry : ParameterEntry => entry.resolve d.parameters) =
      fun entry => entry.resolve d'.parameters := funext h.resolve
  unfold Document.operationParameters
  rw [hitem, hop, hresolve]

theorem alike_emitOperation (h : Counterpart d d') (path : String) (method : Method)
    (hitem : item'.parameters = item.parameters) (hop : op.Reordered op')
    (hcodes : op'.statusCodes = op.statusCodes) :
    Alike (emitOperation d path method item op) (emitOperation d' path method item' op') := by
  obtain ⟨responses, -, rfl⟩ := hop
  unfold emitOperation
  apply (alike_tell _ _).bind
  intro _
  rw [← h.operationParameters hitem rfl]
  apply (alike_ofResolved _).bind
  intro parameters
  apply Alike.bind (alike_constant _)
  intro inputs
  apply (alike_addImports _).bind
  intro _
  apply (alike_tell _ _).bind
  intro _
  apply (alike_emitUrl _ _).bind
  intro url
  apply (alike_emitBody h.definition _ _).bind
  intro body
  apply (alike_emitQuery _).bind
  intro query
  apply (alike_tell _ _).bind
  intro _
  dsimp only
  rw [hcodes]
  apply (alike_emitResponses h.definition _ _ _).bind
  intro arms
  exact alike_declare _ _

theorem alike_emitOperations (h : Counterpart d d')
    {operations operations' : List (String × PathItem × Method × Operation)}
    (ho : List.Forall₂ (fun q q' => SameOperation q q' ∧
      q'.2.2.2.statusCodes = q.2.2.2.statusCodes) operations operations') :
    Alike (emitOperations d operations) (emitOperations d' operations') := by
  induction ho with
  | nil =>
    rw [emitOperations, emitOperations]
    exact alike_pure _
  | @cons q q' rest rest' hq _ ih =>
    obtain ⟨path, item, method, op⟩ := q
    obtain ⟨path', item', method', op'⟩ := q'
    obtain ⟨⟨hpath, hmethod, hitem, hop⟩, hcodes⟩ := hq
    obtain rfl : path' = path := hpath
    obtain rfl : method' = method := hmethod
    have halike := alike_emitOperation h path' method' hitem hop hcodes
    rw [emitOperations, emitOperations]
    exact (halike.within _).bind fun _ => ih

theorem alike_emitDefinitions (h : Counterpart d d') (definitions : Members Schema) :
    Alike (emitDefinitions d definitions) (emitDefinitions d' definitions) := by
  induction definitions with
  | nil =>
    rw [emitDefinitions, emitDefinitions]
    exact alike_pure _
  | cons p rest ih =>
    obtain ⟨name, s⟩ := p
    rw [emitDefinitions, emitDefinitions]
    exact ((alike_emitNamed h.definition _ s).within _).bind fun _ => ih

theorem alike_emitSurface (d : Document) (options : Options) :
    Alike (emitSurface d options) (emitSurface d options) := by
  have hdeclare := (alike_declare "Client" (.client ((d.info.map Info.title).getD "")
    ((options.baseUrl.or d.defaultBaseUrl).getD ""))).bind
      fun _ => alike_declare "ErrorResponse" .errorResponse
  have hrest := (alike_addImports surfaceImports).bind fun _ => hdeclare
  unfold emitSurface
  dsimp only
  split
  · exact (alike_tell _ _).bind fun _ => hrest
  · exact hrest

/-- Where the responses have one order by code, the clients are the same. -/
theorem Counterpart.generate_eq (h : Counterpart d d')
    (ho : List.Forall₂ (fun q q' => SameOperation q q' ∧
      q'.2.2.2.statusCodes = q.2.2.2.statusCodes) d.operations d'.operations) :
    (generate d options).1 = (generate d' options).1 := by
  have hclient : Alike (emitClient d options) (emitClient d' options) := by
    unfold emitClient
    rw [← h.surface, ← h.definitions]
    apply (alike_emitSurface d options).bind
    intro _
    apply (alike_emitDefinitions h _).bind
    intro _
    exact (alike_emitOperations h ho).bind fun _ => alike_tell _ _
  obtain ⟨hresult, hfile⟩ := hclient (start options) (start options) rfl
  unfold generate
  cases he : emitClient d options (start options) with
  | mk result draft =>
    cases he' : emitClient d' options (start options) with
    | mk result' draft' =>
      rw [he, he'] at hresult hfile
      obtain rfl : result = result' := hresult
      cases result with
      | ok _ => exact congrArg Except.ok hfile
      | error fault => rfl

/-- A client that is generated is generated from the counterpart too: no code repeats in it. -/
theorem Counterpart.generate_ok (h : Counterpart d d') (hfile : (generate d options).1 = .ok file) :
    (generate d' options).1 = .ok file := by
  have hcodes : ∀ {operations operations'}, List.Forall₂ SameOperation operations operations' →
      (∀ q ∈ operations, q.2.2.2.statusCodes.Pairwise fun r t => r.1 < t.1) →
      List.Forall₂ (fun q q' => SameOperation q q' ∧
        q'.2.2.2.statusCodes = q.2.2.2.statusCodes) operations operations' := by
    intro operations operations' ho ha
    induction ho with
    | nil => exact .nil
    | cons hq _ ih =>
      obtain ⟨hfirst, hrest⟩ := List.forall_mem_cons.mp ha
      exact .cons ⟨hq, hq.operation.statusCodes_eq hfirst⟩ (ih hrest)
  rw [← h.generate_eq (hcodes h.operations fun q hq => ascending_of_generate hfile hq)]
  exact hfile

theorem forall₂_insertSorted {α β : Type} {R : α → β → Prop} {p : String × α} {q : String × β}
    {m : Members α} {n : Members β} (hp : q.1 = p.1 ∧ R p.2 q.2)
    (h : List.Forall₂ (fun p q => q.1 = p.1 ∧ R p.2 q.2) m n) :
    List.Forall₂ (fun p q => q.1 = p.1 ∧ R p.2 q.2) (Members.insertSorted p m)
      (Members.insertSorted q n) := by
  induction h with
  | nil => exact .cons hp .nil
  | cons hr hrest ih =>
    unfold Members.insertSorted
    rw [hp.1, hr.1]
    split
    · exact .cons hp (.cons hr hrest)
    · exact .cons hr ih

theorem forall₂_sorted {α β : Type} {R : α → β → Prop} {m : Members α} {n : Members β}
    (h : List.Forall₂ (fun p q => q.1 = p.1 ∧ R p.2 q.2) m n) :
    List.Forall₂ (fun p q => q.1 = p.1 ∧ R p.2 q.2) m.sorted n.sorted := by
  induction h with
  | nil => exact .nil
  | cons hp _ ih => exact forall₂_insertSorted hp ih

theorem sameOperations_of_item {path : String} (h : item.Reordered item') :
    List.Forall₂ SameOperation (item.operations.map fun q => (path, item, q.1, q.2))
      (item'.operations.map fun q => (path, item', q.1, q.2)) := by
  have hmethods : ∀ methods : List Method, List.Forall₂ SameOperation
      ((methods.filterMap fun m => (item.operation m).map (m, ·)).map
        fun q => (path, item, q.1, q.2))
      ((methods.filterMap fun m => (item'.operation m).map (m, ·)).map
        fun q => (path, item', q.1, q.2)) := by
    intro methods
    induction methods with
    | nil => exact .nil
    | cons method rest ih =>
      have hop := h.operation method
      rw [List.filterMap_cons, List.filterMap_cons]
      generalize item.operation method = op at hop
      generalize item'.operation method = op' at hop
      cases hop with
      | none => exact ih
      | some hop => exact .cons ⟨rfl, rfl, h.parameters, hop⟩ ih
  exact hmethods Method.all

theorem sameOperations
    (h : List.Forall₂ (fun p q => q.1 = p.1 ∧ PathItem.Reordered p.2 q.2) d.sortedPaths
      d'.sortedPaths) : List.Forall₂ SameOperation d.operations d'.operations := by
  unfold Document.operations
  generalize d.sortedPaths = paths at h
  generalize d'.sortedPaths = items at h
  induction h with
  | nil => exact .nil
  | @cons p q _ _ hp _ ih =>
    obtain ⟨path, item⟩ := p
    obtain ⟨path', item'⟩ := q
    obtain ⟨hpath, hitem⟩ := hp
    obtain rfl : path' = path := hpath
    exact List.rel_append (sameOperations_of_item hitem) ih

variable {paths items : Members PathItem} {definitions : Members Schema}
  {parameters : Members Parameter}

/-- Of a map in which no name repeats the members are found and sorted whatever their order is. -/
theorem counterpart (hkeyed : d.Keyed) (hpaths : paths.Perm d.paths)
    (hdefinitions : definitions.Perm d.definitions) (hparameters : parameters.Perm d.parameters)
    (hitems : List.Forall₂ (fun p q => q.1 = p.1 ∧ PathItem.Reordered p.2 q.2) paths items) :
    Counterpart d { d with paths := items, definitions, parameters } := by
  constructor
  case surface =>
    intro options
    rfl
  case definition =>
    intro reference
    unfold Document.definition
    dsimp only
    rw [Members.find?_eq_of_perm hdefinitions hkeyed.definitions]
  case resolve =>
    intro entry
    cases entry with
    | inline p => rfl
    | reference path =>
      unfold ParameterEntry.resolve
      dsimp only
      split
      · rfl
      · rw [Members.find?_eq_of_perm hparameters hkeyed.parameters]
  case definitions => exact (Members.sorted_eq_of_perm hdefinitions hkeyed.definitions).symm
  case operations =>
    apply sameOperations
    unfold Document.sortedPaths
    rw [← Members.sorted_eq_of_perm hpaths hkeyed.paths]
    exact forall₂_sorted hitems

/-- From documents that differ in the order of paths, definitions and shared parameters the same
client is generated, or none for the same reason. If the responses of operations are in another
order too, a client that is generated from one is generated from the other. -/
theorem generate_any_order (hkeyed : d.Keyed) (hpaths : paths.Perm d.paths)
    (hdefinitions : definitions.Perm d.definitions) (hparameters : parameters.Perm d.parameters)
    (options : Options) :
    (generate { d with paths, definitions, parameters } options).1 = (generate d options).1 ∧
    ∀ items, List.Forall₂ (fun p q => q.1 = p.1 ∧ PathItem.Reordered p.2 q.2) paths items →
      ∀ file, (generate { d with paths := items, definitions, parameters } options).1 = .ok file ↔
        (generate d options).1 = .ok file := by
  constructor
  · have hrefl : List.Forall₂ (fun p q => q.1 = p.1 ∧ PathItem.Reordered p.2 q.2) paths paths :=
      List.forall₂_same.mpr fun p _ => ⟨rfl, .refl p.2⟩
    have hoperations : d.operations =
        Document.operations { d with paths, definitions, parameters } := by
      unfold Document.operations Document.sortedPaths
      rw [← Members.sorted_eq_of_perm hpaths hkeyed.paths]
    apply Eq.symm
    apply (counterpart hkeyed hpaths hdefinitions hparameters hrefl).generate_eq
    rw [← hoperations]
    exact List.forall₂_same.mpr fun q _ => ⟨.refl q, rfl⟩
  · intro items hitems file
    have hsame := counterpart hkeyed hpaths hdefinitions hparameters hitems
    exact ⟨hsame.symm.generate_ok, hsame.generate_ok⟩

namespace Fleet

def reversed (op : Operation) : Operation := { op with responses := op.responses.reverse }

theorem reordered (op : Operation) : op.Reordered (reversed op) :=
  ⟨op.responses.reverse, List.reverse_perm _, rfl⟩

/-- The paths in another order, with the responses of two operations in another order too. -/
def turned : Members PathItem :=
  [("/vessels", { get := some (reversed list), post := some create }),
    ("/vessels/{name}", {
      parameters := [.reference "#/parameters/name"], get := some (reversed get) })]

theorem keyed : document.Keyed := by
  constructor
  · decide
  · decide
  · decide

end Fleet

theorem fleet_any_order :
    ∃ file, (generate Fleet.document {}).1 = .ok file ∧
      (generate { Fleet.document with
        paths := Fleet.document.paths.reverse
        definitions := Fleet.document.definitions.reverse
        parameters := Fleet.document.parameters.reverse } {}).1 = .ok file ∧
      (generate { Fleet.document with
        paths := Fleet.turned
        definitions := Fleet.document.definitions.reverse
        parameters := Fleet.document.parameters.reverse } {}).1 = .ok file := by
  obtain ⟨file, hfile⟩ := exists_file Fleet.generates
  obtain ⟨hsame, hitems⟩ := generate_any_order Fleet.keyed (List.reverse_perm _)
    (List.reverse_perm _) (List.reverse_perm _) {}
  refine ⟨file, hfile, hsame.trans hfile, (hitems Fleet.turned ?_ file).mpr hfile⟩
  have hlist : PathItem.Reordered { get := some Fleet.list, post := some Fleet.create }
      { get := some (Fleet.reversed Fleet.list), post := some Fleet.create } := by
    refine ⟨rfl, ?_⟩
    intro method
    cases method with
    | get => exact .some (Fleet.reordered _)
    | post => exact .some (.refl _)
    | put | delete | options | head | patch => exact .none
  have hget : PathItem.Reordered
      { parameters := [.reference "#/parameters/name"], get := some Fleet.get }
      { parameters := [.reference "#/parameters/name"],
        get := some (Fleet.reversed Fleet.get) } := by
    refine ⟨rfl, ?_⟩
    intro method
    cases method with
    | get => exact .some (Fleet.reordered _)
    | put | post | delete | options | head | patch => exact .none
  exact .cons ⟨rfl, hlist⟩ (.cons ⟨rfl, hget⟩ .nil)

end GoClient

end ApiContract
