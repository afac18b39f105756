import ApiContract.Proofs.GoClient.InventedNames

namespace ApiContract.GoClient

open Emit Naming

variable {d : Document} {options : Options} {file : File Declaration}
  {first second added : Members Declaration} {name path : String} {method : Method}
  {item : PathItem} {op : Operation} {s : Schema} {P : StructDeclaration → Prop}

/-- Objects whose structs embed nothing. -/
def bare (objects : Members Schema) : Members (Schema × Bool) :=
  objects.map fun o => (o.1, o.2, false)

theorem bare_append (first second : Members Schema) :
    bare (first ++ second) = bare first ++ bare second :=
  List.map_append

/-- The objects of a response. The struct of a failure embeds the common error type. -/
def responseStructs (operation : String) (successes : Nat) (q : Nat × Response) :
    Members (Schema × Bool) :=
  let name := responseTypeName operation successes q.1
  match q.2.schema with
  | none => []
  | some s => bare (objectsWithin name s) ++
      if s.kind = .object then [(name, s, !isSuccess q.1)] else []

/-- The objects of an operation. -/
def operationStructs (d : Document) (path : String) (item : PathItem) (method : Method)
    (op : Operation) : Members (Schema × Bool) :=
  let name := operationName op.identifier method.name path
  bare (requestObjects name (bodyOf d item op)) ++
    op.statusCodes.flatMap (responseStructs name (successesOf op))

/-- The objects of a document that structs are made for, by the names of the structs, and whether
the struct embeds the common error type. -/
def structured (d : Document) : Members (Schema × Bool) :=
  d.definitions.flatMap (fun p => bare (objectsOf (camelCase p.1) p.2)) ++
    d.operations.flatMap fun q => operationStructs d q.1 q.2.1 q.2.2.1 q.2.2.2

/-- Something holds of every struct among declarations. -/
def EachStruct (P : StructDeclaration → Prop) (declarations : Members Declaration) : Prop :=
  ∀ p ∈ declarations, ∀ t, p.2 = .struct t → P t

/-- Something holds of the struct of every object. -/
def EachObject (P : StructDeclaration → Prop) (objects : Members (Schema × Bool)) : Prop :=
  ∀ o ∈ objects, P (structOf o.1 o.2.1 o.2.2)

theorem eachStruct_append :
    EachStruct P (first ++ second) ↔ EachStruct P first ∧ EachStruct P second :=
  List.forall_mem_append

theorem eachStruct_flatMap {α : Type} {f : α → Members Declaration} {as : List α} :
    EachStruct P (as.flatMap f) ↔ ∀ a ∈ as, EachStruct P (f a) :=
  List.forall_mem_flatMap

theorem eachObject_append {first second : Members (Schema × Bool)} :
    EachObject P (first ++ second) ↔ EachObject P first ∧ EachObject P second :=
  List.forall_mem_append

theorem eachObject_flatMap {α : Type} {f : α → Members (Schema × Bool)} {as : List α} :
    EachObject P (as.flatMap f) ↔ ∀ a ∈ as, EachObject P (f a) :=
  List.forall_mem_flatMap

theorem eachStruct_struct {t : StructDeclaration} : EachStruct P [(name, .struct t)] ↔ P t := by
  simp [EachStruct]

theorem eachStruct_structs {objects : Members Schema} :
    EachStruct P (structs objects) ↔ EachObject P (bare objects) := by
  simp only [EachStruct, EachObject, structs, bare, List.forall_mem_map, Declaration.struct.injEq,
    forall_eq']

theorem eachStruct_requestTypes (operation : String) (body : Option Parameter) :
    EachStruct P (requestTypes operation body) ↔
      EachObject P (bare (requestObjects operation body)) := by
  unfold requestTypes requestObjects
  cases inlineBody body with
  | none => simp [EachStruct, EachObject, bare]
  | some s =>
    dsimp only
    rw [eachStruct_append, eachStruct_structs, eachStruct_struct, bare_append, eachObject_append]
    simp [EachObject, bare]

section

-- a struct without fields is declared where there is no object too
variable (hP : ∀ t : StructDeclaration, t.fields = [] → P t)

include hP

theorem eachStruct_typeDeclaration (name : String) (s : Schema) :
    EachStruct P [(name, typeDeclaration name s)] ↔
      EachObject P (if s.kind = .object then [(name, s, false)] else []) := by
  unfold typeDeclaration
  cases hk : s.kind with
  | object => simp [eachStruct_struct, EachObject]
  | unhandled => simp [eachStruct_struct, EachObject, hP]
  | reference | array | primitive => simp [EachStruct, EachObject]

theorem eachStruct_failureDeclaration (name : String) (s : Schema) :
    EachStruct P [(name, failureDeclaration name (some s))] ↔
      EachObject P (if s.kind = .object then [(name, s, true)] else []) := by
  unfold failureDeclaration
  rw [eachStruct_struct]
  split <;> simp [EachObject, hP]

theorem eachStruct_definitionTypes (p : String × Schema) :
    EachStruct P (definitionTypes p) ↔ EachObject P (bare (objectsOf (camelCase p.1) p.2)) := by
  rw [definitionTypes, eachStruct_append, eachStruct_structs, eachStruct_typeDeclaration hP,
    objectsOf_eq_append, bare_append, eachObject_append]
  split <;> rfl

theorem eachStruct_responseTypes (operation : String) (successes : Nat) (q : Nat × Response) :
    EachStruct P (responseTypes operation successes q) ↔
      EachObject P (responseStructs operation successes q) := by
  unfold responseTypes responseStructs
  cases q.2.schema with
  | none =>
    have hbare : ∀ embeds, P ⟨responseTypeName operation successes q.1, none, embeds, []⟩ :=
      fun _ => hP _ rfl
    cases isSuccess q.1 <;>
      simp [EachObject, eachStruct_struct, structs, successDeclaration, failureDeclaration, hbare]
  | some s =>
    simp only [Option.map_some, Option.getD_some]
    rw [eachStruct_append, eachStruct_structs, eachObject_append]
    apply and_congr_right
    intro _
    cases isSuccess q.1 with
    | true => exact eachStruct_typeDeclaration hP _ s
    | false => exact eachStruct_failureDeclaration hP _ s

theorem OperationDeclared.eachStruct (h : OperationDeclared d path method item op added) :
    EachStruct P added ↔ EachObject P (operationStructs d path item method op) := by
  cases h with
  | @intro parameters inputs url query name hname hp hi hurl hquery =>
    have hbody := body_eq_bodyOf hp hi
    have hmethod : ∀ m, EachStruct P [(name, .method m)] := by simp [EachStruct]
    subst hname
    rw [eachStruct_append, and_iff_left (hmethod _), eachStruct_append, responsesTypes,
      eachStruct_flatMap, eachStruct_requestTypes, hbody, operationStructs, eachObject_append,
      eachObject_flatMap]
    simp only [eachStruct_responseTypes hP]

theorem OperationsDeclared.eachStruct
    {operations : List (String × PathItem × Method × Operation)}
    (h : OperationsDeclared d operations added) :
    EachStruct P added ↔ ∀ q ∈ operations,
      EachObject P (operationStructs d q.1 q.2.1 q.2.2.1 q.2.2.2) := by
  induction h with
  | nil => exact iff_of_true (List.forall_mem_nil _) (List.forall_mem_nil _)
  | cons hq _ ih => rw [eachStruct_append, hq.eachStruct hP, ih, List.forall_mem_cons]

/-- What holds of structs without fields holds of all structs of a client if it holds of those of
the objects of the document. -/
theorem eachStruct_of_generate (h : (generate d options).1 = .ok file) :
    EachStruct P file.declarations ↔ EachObject P (structured d) := by
  obtain ⟨operations, hoperations, hdeclarations, -⟩ := declarations_of_generate h
  have hsurface : EachStruct P (surface d options) := by simp [EachStruct, surface]
  have hdefinitions : EachStruct P (d.sortedDefinitions.flatMap definitionTypes) ↔
      EachObject P (d.definitions.flatMap fun p => bare (objectsOf (camelCase p.1) p.2)) := by
    simp only [eachStruct_flatMap, eachObject_flatMap, eachStruct_definitionTypes hP,
      Document.sortedDefinitions, (Members.sorted_perm d.definitions).mem_iff]
  rw [hdeclarations, eachStruct_append, eachStruct_append, and_iff_right hsurface, hdefinitions,
    hoperations.eachStruct hP, structured, eachObject_append]
  exact and_congr_right fun _ => eachObject_flatMap.symm

end

/-- The name of the type that a property gets for itself: that of an object, or that of the
elements of an array of objects. -/
def ownTypeName? (parent : String) (p : String × Schema) : Option String :=
  match p.2.kind, p.2.singleItems with
  | .object, _ => some (nestedTypeName parent p.1)
  | .array, some item =>
    if item.kind = .object then some (elementTypeName parent p.1) else none
  | _, _ => none

/-- An object is the last of its own objects. -/
theorem objectsOf_of_object (name : String) (h : s.kind = .object) :
    objectsOf name s = objectsOfProperties name s.properties ++ [(name, s)] := by
  rw [objectsOf_eq, h]

theorem objectsOf_of_array {item : Schema} (name : String) (h : s.kind = .array)
    (hi : s.singleItems = some item) : objectsOf name s = objectsOf (name ++ "Item") item := by
  rw [objectsOf_eq, h]
  simp only [objectsOfItems_eq, hi]

theorem ownTypeName?_sublist (parent : String) (p : String × Schema) :
    List.Sublist (ownTypeName? parent p).toList
      (objectsOf (nestedTypeName parent p.1) p.2).names := by
  unfold ownTypeName?
  split
  · rename_i hk
    rw [objectsOf_of_object _ hk, Members.names, List.map_append]
    exact List.sublist_append_right _ _
  · rename_i item hk hi
    split
    · rename_i hitem
      rw [objectsOf_of_array _ hk hi, objectsOf_of_object _ hitem, Members.names, List.map_append]
      exact List.sublist_append_right _ _
    · exact List.nil_sublist _
  · exact List.nil_sublist _

theorem ownTypeNames_sublist (parent : String) (properties : List (String × Schema)) :
    List.Sublist (properties.filterMap (ownTypeName? parent))
      (objectsOfProperties parent properties).names := by
  induction properties with
  | nil => exact List.nil_sublist _
  | cons p rest ih =>
    have hnames : (objectsOfProperties parent (p :: rest)).names =
        (objectsOf (nestedTypeName parent p.1) p.2).names ++
          (objectsOfProperties parent rest).names := by
      rw [objectsOfProperties, Members.names, List.map_append]
      rfl
    have hfirst : (p :: rest).filterMap (ownTypeName? parent) =
        (ownTypeName? parent p).toList ++ rest.filterMap (ownTypeName? parent) := by
      cases h : ownTypeName? parent p <;> simp [h]
    rw [hnames, hfirst]
    exact (ownTypeName?_sublist parent p).append ih

theorem objectsOf_sublist {properties : List (String × Schema)} {p : String × Schema}
    (hp : p ∈ properties) (parent : String) :
    List.Sublist (objectsOf (nestedTypeName parent p.1) p.2)
      (objectsOfProperties parent properties) := by
  induction properties with
  | nil => cases hp
  | cons q rest ih =>
    rw [objectsOfProperties]
    rcases List.mem_cons.mp hp with rfl | hp
    · exact List.sublist_append_left _ _
    · exact (ih hp).trans (List.sublist_append_right _ _)

/-- The objects within one of the objects of a schema are among these objects. -/
theorem within_sublist_objectsOf (s : Schema) : ∀ name, ∀ o ∈ objectsOf name s,
    List.Sublist (objectsOfProperties o.1 o.2.properties) (objectsOf name s) := by
  induction s using Schema.induction with
  | step s hproperties hitems =>
    intro name o ho
    cases hk : s.kind with
    | object =>
      rw [objectsOf_of_object _ hk] at ho ⊢
      apply List.Sublist.trans ?_ (List.sublist_append_left _ _)
      rcases List.mem_append.mp ho with ho | ho
      · obtain ⟨p, hp, ho⟩ := mem_objectsOfProperties.mp ho
        exact (hproperties p hp _ o ho).trans (objectsOf_sublist hp name)
      · cases List.mem_singleton.mp ho
        exact List.Sublist.refl _
    | array =>
      cases hi : s.singleItems with
      | none =>
        rw [objectsOf_eq, hk] at ho
        simp [objectsOfItems_eq, hi] at ho
      | some item =>
        rw [objectsOf_of_array _ hk hi] at ho ⊢
        exact (hitems item hi).1 _ o ho
    | reference | primitive | unhandled =>
      rw [objectsOf_eq, hk] at ho
      cases ho

theorem within_sublist_objectsOfProperties {properties : List (String × Schema)}
    {o : String × Schema} (ho : o ∈ objectsOfProperties name properties) :
    List.Sublist (objectsOfProperties o.1 o.2.properties)
      (objectsOfProperties name properties) := by
  obtain ⟨p, hp, ho⟩ := mem_objectsOfProperties.mp ho
  exact (within_sublist_objectsOf p.2 _ o ho).trans (objectsOf_sublist hp name)

/-- The objects within one of the objects of a schema come before the type of the schema. -/
theorem within_sublist_objectsWithin {o : String × Schema} (ho : o ∈ objectsOf name s) :
    List.Sublist (objectsOfProperties o.1 o.2.properties) (objectsWithin name s) := by
  unfold objectsWithin
  cases hk : s.kind with
  | object =>
    dsimp only
    rw [objectsOf_of_object _ hk] at ho
    rcases List.mem_append.mp ho with ho | ho
    · exact within_sublist_objectsOfProperties ho
    · cases List.mem_singleton.mp ho
      exact List.Sublist.refl _
  | array =>
    dsimp only
    rw [objectsOf_eq, hk] at ho
    rw [objectsOfItems_eq] at ho ⊢
    cases hi : s.singleItems with
    | none => simp [hi] at ho
    | some item =>
      simp only [hi] at ho ⊢
      exact within_sublist_objectsOf item _ o ho
  | reference | primitive | unhandled =>
    rw [objectsOf_eq, hk] at ho
    cases ho

theorem sublist_flatMap {α β : Type} {as : List α} {a : α} (h : a ∈ as) (f : α → List β) :
    List.Sublist (f a) (as.flatMap f) := by
  rw [List.flatMap_def]
  exact List.sublist_flatten_of_mem (List.mem_map_of_mem h)

/-- The structs of the objects within an object are among declarations. -/
def DeclaredWithin (o : String × Schema × Bool) (declarations : Members Declaration) : Prop :=
  List.Sublist (structs (objectsOfProperties o.1 o.2.1.properties)) declarations

theorem mem_of_mem_bare {objects : Members Schema} {o : String × Schema × Bool}
    (ho : o ∈ bare objects) : (o.1, o.2.1) ∈ objects := by
  obtain ⟨object, hm, rfl⟩ := List.mem_map.mp ho
  exact hm

theorem declaredWithin_types {o : String × Schema × Bool} (ho : (o.1, o.2.1) ∈ objectsOf name s)
    (declaration : Declaration) :
    DeclaredWithin o (structs (objectsWithin name s) ++ [(name, declaration)]) :=
  ((within_sublist_objectsWithin ho).map _).trans (List.sublist_append_left _ _)

theorem declaredWithin_requestTypes {operation : String} {body : Option Parameter}
    {o : String × Schema × Bool} (ho : o ∈ bare (requestObjects operation body)) :
    DeclaredWithin o (requestTypes operation body) := by
  have hm := mem_of_mem_bare ho
  unfold requestObjects at hm
  unfold requestTypes DeclaredWithin
  cases hb : inlineBody body with
  | none =>
    rw [hb] at hm
    cases hm
  | some s =>
    rw [hb] at hm
    dsimp only at hm ⊢
    apply List.Sublist.trans ?_ (List.sublist_append_left _ _)
    apply List.Sublist.map
    rcases List.mem_append.mp hm with hm | hm
    · exact within_sublist_objectsOfProperties hm
    · have hwithin := congrArg (fun object => objectsOfProperties object.1 object.2.properties)
        (List.mem_singleton.mp hm)
      exact hwithin ▸ List.Sublist.refl _

theorem declaredWithin_responseTypes {operation : String} {successes : Nat} {q : Nat × Response}
    {o : String × Schema × Bool} (ho : o ∈ responseStructs operation successes q) :
    DeclaredWithin o (responseTypes operation successes q) := by
  unfold responseStructs at ho
  unfold responseTypes
  cases hs : q.2.schema with
  | none =>
    rw [hs] at ho
    cases ho
  | some s =>
    rw [hs] at ho
    apply declaredWithin_types
    rw [objectsOf_eq_append, List.mem_append]
    rcases List.mem_append.mp ho with ho | ho
    · exact Or.inl (mem_of_mem_bare ho)
    · right
      split at ho
      · rename_i hk
        cases List.mem_singleton.mp ho
        simp [hk]
      · cases ho

theorem OperationDeclared.declaredWithin (h : OperationDeclared d path method item op added)
    {o : String × Schema × Bool} (ho : o ∈ operationStructs d path item method op) :
    DeclaredWithin o added := by
  cases h with
  | @intro parameters inputs url query name hname hp hi hurl hquery =>
    have hbody := body_eq_bodyOf hp hi
    subst hname
    rw [operationStructs, ← hbody] at ho
    apply List.Sublist.trans ?_ (List.sublist_append_left _ _)
    rcases List.mem_append.mp ho with ho | ho
    · exact (declaredWithin_requestTypes ho).trans (List.sublist_append_left _ _)
    · obtain ⟨q, hq, ho⟩ := List.mem_flatMap.mp ho
      refine ((declaredWithin_responseTypes ho).trans ?_).trans (List.sublist_append_right _ _)
      exact sublist_flatMap hq _

theorem OperationsDeclared.declaredWithin
    {operations : List (String × PathItem × Method × Operation)}
    (h : OperationsDeclared d operations added) {q : String × PathItem × Method × Operation}
    (hq : q ∈ operations) {o : String × Schema × Bool}
    (ho : o ∈ operationStructs d q.1 q.2.1 q.2.2.1 q.2.2.2) : DeclaredWithin o added := by
  induction h with
  | nil => cases hq
  | cons hfirst _ ih =>
    rcases List.mem_cons.mp hq with rfl | hq
    · exact (hfirst.declaredWithin ho).trans (List.sublist_append_left _ _)
    · exact (ih hq).trans (List.sublist_append_right _ _)

theorem declaredWithin_of_generate (h : (generate d options).1 = .ok file)
    {o : String × Schema × Bool} (ho : o ∈ structured d) : DeclaredWithin o file.declarations := by
  obtain ⟨operations, hoperations, hdeclarations, -⟩ := declarations_of_generate h
  rw [hdeclarations]
  rcases List.mem_append.mp ho with ho | ho
  · obtain ⟨p, hp, ho⟩ := List.mem_flatMap.mp ho
    have hsorted : p ∈ d.sortedDefinitions := (Members.sorted_perm d.definitions).mem_iff.mpr hp
    apply List.Sublist.trans ?_ (List.sublist_append_left _ _)
    apply List.Sublist.trans ?_ (List.sublist_append_right _ _)
    exact (declaredWithin_types (mem_of_mem_bare ho) _).trans
      (sublist_flatMap hsorted definitionTypes)
  · obtain ⟨q, hq, ho⟩ := List.mem_flatMap.mp ho
    exact (hoperations.declaredWithin hq ho).trans (List.sublist_append_right _ _)

/-- In a client that is generated no two properties of an object get types of one name. -/
theorem nodup_ownTypeNames (h : (generate d options).1 = .ok file) {o : String × Schema × Bool}
    (ho : o ∈ structured d) : (o.2.1.properties.filterMap (ownTypeName? o.1)).Nodup := by
  obtain ⟨-, -, -, hnames⟩ := declarations_of_generate h
  have hwithin := (declaredWithin_of_generate h ho).map Prod.fst
  have hstructs : (structs (objectsOfProperties o.1 o.2.1.properties)).map Prod.fst =
      (objectsOfProperties o.1 o.2.1.properties).names := by
    simp [structs, Members.names]
  rw [hstructs] at hwithin
  exact ((ownTypeNames_sublist _ _).trans hwithin).nodup hnames

end ApiContract.GoClient
