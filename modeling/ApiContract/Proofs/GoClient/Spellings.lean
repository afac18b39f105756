import ApiContract.Proofs.GoClient.FieldNames
import ApiContract.Proofs.GoClient.MethodUsages

namespace ApiContract.GoClient

open Emit Naming Text

variable {name property operation path : String} {s : Schema} {d : Document} {options : Options}
  {file : File Declaration} {added : Members Declaration} {item : PathItem} {method : Method}
  {op : Operation} {t : GoType}

theorem spelt_append {first second : String} :
    Spelt (first ++ second) ↔ Spelt first ∧ Spelt second := by
  simp only [Spelt, String.toList_append]
  exact List.forall_mem_append

theorem spelt_of_wordCharacters (h : ∀ c ∈ name.toList, isWordCharacter c) : Spelt name := by
  intro c hc
  simp [Reader.isWordPart, h c hc]

theorem spelt_camelCase (name : String) : Spelt (camelCase name) :=
  spelt_of_wordCharacters (isWordCharacter_of_mem_camelCase name)

theorem spelt_fieldName (property : String) : Spelt (fieldName property) :=
  spelt_of_wordCharacters (isWordCharacter_of_mem_fieldName property)

theorem spelt_pascalCase (name : String) : Spelt (pascalCase name) :=
  spelt_of_wordCharacters (isWordCharacter_of_mem_pascalCase name)

theorem spelt_argumentName (name : String) : Spelt (argumentName name) := by
  have hcase : Spelt (lowerCamelCase name) :=
    spelt_of_wordCharacters (isWordCharacter_of_mem_lowerCamelCase name)
  unfold argumentName spared
  split
  · exact spelt_append.mpr ⟨hcase, by simp [Spelt, Reader.isWordPart]⟩
  · exact hcase

theorem spelt_join {names : List String} (h : ∀ name ∈ names, Spelt name) :
    Spelt (String.join names) := by
  induction names with
  | nil => simp [Spelt]
  | cons name rest ih =>
    obtain ⟨hname, hrest⟩ := List.forall_mem_cons.mp h
    rw [String.join_cons, spelt_append]
    exact ⟨hname, ih hrest⟩

theorem spelt_routeVerb (method : String) (single : Bool) : Spelt (routeVerb method single) := by
  unfold routeVerb
  split
  · split <;> exact spelt_ascii (by decide)
  · exact spelt_ascii (by decide)
  · exact spelt_ascii (by decide)
  · exact spelt_pascalCase _

theorem spelt_operationName (identifier : Option String) (method path : String) :
    Spelt (operationName identifier method path) := by
  unfold operationName
  split
  · exact spelt_pascalCase _
  · rw [routeName, spelt_append]
    refine ⟨spelt_routeVerb _ _, spelt_join ?_⟩
    exact List.forall_mem_map.mpr fun _ _ => spelt_pascalCase _

theorem spelt_nestedTypeName (h : Spelt name) (property : String) :
    Spelt (nestedTypeName name property) :=
  spelt_append.mpr ⟨spelt_append.mpr ⟨h, by simp [Spelt, Reader.isWordPart]⟩,
    spelt_camelCase property⟩

theorem spelt_item (h : Spelt name) : Spelt (name ++ "Item") :=
  spelt_append.mpr ⟨h, spelt_ascii (by decide)⟩

theorem spelt_requestTypeName (h : Spelt operation) : Spelt (requestTypeName operation) :=
  spelt_append.mpr ⟨h, spelt_ascii (by decide)⟩

theorem spelt_responseTypeName (h : Spelt operation) (successes code : Nat) :
    Spelt (responseTypeName operation successes code) := by
  have hres : Spelt (operation ++ "Res") := spelt_append.mpr ⟨h, spelt_ascii (by decide)⟩
  have hcode : Spelt (toString code) := by
    apply spelt_ascii
    have hdigits : (toString code).toList = Nat.toDigits 10 code := Nat.toList_repr
    rw [hdigits, List.all_eq_true]
    intro c hc
    simp [Char.isAlphanum, Nat.isDigit_of_mem_toDigits (by decide) (by decide) hc]
  unfold responseTypeName
  split
  · exact hres
  · exact spelt_append.mpr ⟨hres, hcode⟩

theorem speltType_named (h : Spelt name) : SpeltType (.named name) := by
  rintro _ ⟨⟩
  exact h

theorem speltType_ofPrimitive (p : Primitive) : SpeltType (.ofPrimitive p) := by
  unfold SpeltType
  rw [mentioned_ofPrimitive]
  exact nofun

theorem speltType_optional (h : SpeltType t) (required : Bool) :
    SpeltType (t.optional required) := by
  unfold SpeltType
  rw [mentioned_optional]
  exact h

theorem speltType_plainType (h : Spelt name) (s : Schema) : SpeltType (plainType name s) := by
  unfold plainType
  split
  · exact speltType_named (spelt_camelCase _)
  · exact speltType_ofPrimitive _
  · exact speltType_named h

theorem speltType_valueType (h : Spelt name) (s : Schema) : SpeltType (valueType name s) := by
  unfold valueType
  split
  · exact speltType_plainType (spelt_item h) _
  · exact speltType_plainType h s

theorem speltType_fieldTypeOf (h : SpeltType t) (required : Bool) :
    SpeltType (fieldTypeOf required t) := by
  unfold SpeltType
  rw [mentioned_fieldTypeOf]
  exact h

/-- The names in a declaration have no signs in them. -/
def SpeltDeclaration : Declaration → Prop
  | .client _ _ | .errorResponse => True
  | .struct t => Spelt t.name ∧ ∀ f ∈ t.fields, Spelt f.name ∧ SpeltType f.type
  | .named n => Spelt n.name ∧ SpeltType n.target
  | .method m => m.Spelt

/-- The names in all of these declarations have no signs in them. -/
def AllSpelt (declarations : Members Declaration) : Prop :=
  ∀ p ∈ declarations, SpeltDeclaration p.2

theorem allSpelt_append {first second : Members Declaration} :
    AllSpelt (first ++ second) ↔ AllSpelt first ∧ AllSpelt second :=
  List.forall_mem_append

theorem allSpelt_singleton {declaration : Declaration} :
    AllSpelt [(name, declaration)] ↔ SpeltDeclaration declaration :=
  List.forall_mem_singleton

theorem spelt_structOf (h : Spelt name) (s : Schema) (embeds : Bool) :
    SpeltDeclaration (.struct (structOf name s embeds)) := by
  refine ⟨h, List.forall_mem_map.mpr fun p _ => ⟨spelt_fieldName p.1, ?_⟩⟩
  exact speltType_fieldTypeOf (speltType_valueType (spelt_nestedTypeName h p.1) p.2) _

/-- Inline objects have names that are made of the name of the type they stand in. -/
theorem spelt_of_mem_objectsOf (s : Schema) :
    ∀ name, Spelt name → ∀ o ∈ objectsOf name s, Spelt o.1 := by
  induction s using Schema.induction with
  | step s hproperties hitems =>
    intro name h o ho
    rw [objectsOf_eq] at ho
    cases hk : s.kind with
    | object =>
      rw [hk] at ho
      rcases List.mem_append.mp ho with ho | ho
      · obtain ⟨p, hp, ho⟩ := mem_objectsOfProperties.mp ho
        exact hproperties p hp _ (spelt_nestedTypeName h p.1) o ho
      · cases List.mem_singleton.mp ho
        exact h
    | array =>
      simp only [hk, objectsOfItems_eq] at ho
      cases hi : s.singleItems with
      | none => simp [hi] at ho
      | some item =>
        rw [hi] at ho
        exact (hitems item hi).1 _ (spelt_item h) o ho
    | reference | primitive | unhandled => simp [hk] at ho

theorem allSpelt_structs {objects : Members Schema} (h : ∀ o ∈ objects, Spelt o.1) :
    AllSpelt (structs objects) :=
  List.forall_mem_map.mpr fun o ho => spelt_structOf (h o ho) o.2 false

theorem allSpelt_objectsWithin (h : Spelt name) (s : Schema) :
    AllSpelt (structs (objectsWithin name s)) := by
  apply allSpelt_structs
  intro o ho
  apply spelt_of_mem_objectsOf s name h o
  rw [objectsOf_eq_append]
  exact List.mem_append_left _ ho

theorem spelt_typeDeclaration (h : Spelt name) (s : Schema) :
    SpeltDeclaration (typeDeclaration name s) := by
  unfold typeDeclaration
  split
  · exact spelt_structOf h s false
  · exact ⟨h, speltType_valueType h s⟩
  · exact ⟨h, speltType_valueType h s⟩
  · exact ⟨h, speltType_valueType h s⟩
  · exact ⟨h, List.forall_mem_nil _⟩

theorem spelt_successDeclaration (h : Spelt name) (s : Option Schema) :
    SpeltDeclaration (successDeclaration name s) := by
  cases s with
  | none => exact ⟨h, List.forall_mem_nil _⟩
  | some s => exact spelt_typeDeclaration h s

theorem spelt_failureDeclaration (h : Spelt name) (s : Option Schema) :
    SpeltDeclaration (failureDeclaration name s) := by
  cases s with
  | none => exact ⟨h, List.forall_mem_nil _⟩
  | some s =>
    unfold failureDeclaration
    dsimp only
    split
    · exact spelt_structOf h s true
    · exact ⟨h, List.forall_mem_nil _⟩

theorem allSpelt_requestTypes (h : Spelt operation) (body : Option Parameter) :
    AllSpelt (requestTypes operation body) := by
  have hname := spelt_requestTypeName h
  unfold requestTypes
  split
  · rename_i s _
    refine allSpelt_append.mpr ⟨allSpelt_structs ?_, allSpelt_singleton.mpr ?_⟩
    · intro o ho
      obtain ⟨p, -, ho⟩ := mem_objectsOfProperties.mp ho
      exact spelt_of_mem_objectsOf p.2 _ (spelt_nestedTypeName hname p.1) o ho
    · exact spelt_structOf hname s false
  · exact List.forall_mem_nil _

theorem allSpelt_responseTypes (h : Spelt operation) (successes : Nat) (q : Nat × Response) :
    AllSpelt (responseTypes operation successes q) := by
  have hname := spelt_responseTypeName h successes q.1
  refine allSpelt_append.mpr ⟨?_, allSpelt_singleton.mpr ?_⟩
  · cases q.2.schema with
    | none => exact List.forall_mem_nil _
    | some s => exact allSpelt_objectsWithin hname s
  · split
    · exact spelt_successDeclaration hname q.2.schema
    · exact spelt_failureDeclaration hname q.2.schema

theorem spelt_pathArgument? {p : Parameter} {a : Argument} (h : pathArgument? p = some a) :
    Spelt a.identifier ∧ SpeltType a.type := by
  obtain ⟨_, -, rfl⟩ := Option.map_eq_some_iff.mp h
  exact ⟨spelt_argumentName p.name, speltType_ofPrimitive _⟩

theorem spelt_queryArgument? {p : Parameter} {a : Argument} (h : queryArgument? p = some a) :
    Spelt a.identifier ∧ SpeltType a.type := by
  obtain ⟨_, -, rfl⟩ := Option.map_eq_some_iff.mp h
  exact ⟨spelt_argumentName p.name, speltType_optional (speltType_ofPrimitive _) _⟩

theorem spelt_bodyArguments (h : Spelt operation) (body : Option Parameter) :
    ∀ a ∈ bodyArguments operation body, Spelt a.identifier ∧ SpeltType a.type := by
  have hreq : Spelt "req" := spelt_ascii (by decide)
  refine List.forall_mem_map.mpr fun s _ => ⟨hreq, speltType_named ?_⟩
  unfold bodyTypeName
  split
  · exact spelt_camelCase _
  · exact spelt_requestTypeName h

theorem spelt_urlPart? {parameters : List Parameter} {piece : Piece} {x : String}
    {conversion : Conversion} (h : urlPart? parameters piece = some (.argument x conversion)) :
    Spelt x := by
  cases piece with
  | literal text => cases h
  | parameter v =>
    obtain ⟨p, -, hp⟩ := Option.map_eq_some_iff.mp h
    cases hp
    exact spelt_argumentName p.name

theorem OperationDeclared.allSpelt (h : OperationDeclared d path method item op added) :
    AllSpelt added := by
  cases h with
  | @intro parameters inputs url query name hname hp hi hurl hquery =>
    have hspelt : Spelt name := hname ▸ spelt_operationName _ _ _
    obtain ⟨hparts, hplaced⟩ := url_of_yields hurl
    obtain ⟨hitems, hgiven⟩ := query_of_yields hquery
    refine allSpelt_append.mpr ⟨allSpelt_append.mpr ⟨allSpelt_requestTypes hspelt _, ?_⟩,
      allSpelt_singleton.mpr ?_⟩
    · intro p hp
      obtain ⟨q, -, hp⟩ := List.mem_flatMap.mp hp
      exact allSpelt_responseTypes hspelt _ q p hp
    · constructor
      case name => exact hspelt
      case arguments =>
        refine List.forall_mem_append.mpr ⟨List.forall_mem_append.mpr ⟨fun a ha => ?_,
          spelt_bodyArguments hspelt _⟩, fun a ha => ?_⟩
        · obtain ⟨p, -, hp⟩ := (exists_of_map_some hplaced).1 a ha
          exact spelt_pathArgument? hp
        · obtain ⟨p, -, hp⟩ := (exists_of_map_some hgiven).1 a ha
          exact spelt_queryArgument? hp
      case url =>
        intro x conversion hx
        rw [hparts] at hx
        obtain ⟨piece, -, hpiece⟩ := List.mem_filterMap.mp hx
        exact spelt_urlPart? hpiece
      case query =>
        rw [hitems]
        exact List.forall_mem_map.mpr fun p _ => spelt_argumentName p.name
      case arms =>
        exact List.forall_mem_map.mpr fun q _ => spelt_responseTypeName hspelt _ q.1

theorem OperationsDeclared.allSpelt
    {operations : List (String × PathItem × Method × Operation)}
    (h : OperationsDeclared d operations added) : AllSpelt added := by
  induction h with
  | nil => exact List.forall_mem_nil _
  | cons hfirst _ ih => exact allSpelt_append.mpr ⟨hfirst.allSpelt, ih⟩

/-- No name in a client that is generated has signs in it. -/
theorem allSpelt_of_generate (h : (generate d options).1 = .ok file) :
    AllSpelt file.declarations := by
  obtain ⟨operations, hoperations, hdeclarations, -⟩ := declarations_of_generate h
  rw [hdeclarations]
  refine allSpelt_append.mpr ⟨allSpelt_append.mpr ⟨?_, ?_⟩, hoperations.allSpelt⟩
  · exact List.forall_mem_cons.mpr ⟨trivial, List.forall_mem_singleton.mpr trivial⟩
  · intro p hp
    obtain ⟨q, -, hp⟩ := List.mem_flatMap.mp hp
    have hname := spelt_camelCase q.1
    have htypes : AllSpelt (definitionTypes q) := allSpelt_append.mpr
      ⟨allSpelt_objectsWithin hname q.2, allSpelt_singleton.mpr (spelt_typeDeclaration hname q.2)⟩
    exact htypes p hp

end ApiContract.GoClient
