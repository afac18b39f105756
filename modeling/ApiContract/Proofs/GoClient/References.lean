import ApiContract.Proofs.GoClient.Declarations

namespace ApiContract.GoClient

open Emit Naming

/-- What a declaration declares at the top level of a Go file. -/
inductive Head where
  | type (name : String)
  | function (name : String)
  | method (receiver name : String)
deriving DecidableEq

namespace Declaration

/-- The client comes with its constructor and the common error type with its method. -/
def heads : Declaration → List Head
  | client _ _ => [.type "Client", .function "NewClient"]
  | errorResponse => [.type "ErrorResponse", .method "ErrorResponse" "Error"]
  | struct s => [.type s.name]
  | named n => [.type n.name]
  | method m => [.method "Client" m.name]

/-- The declared types that the text of a declaration refers to. A method falls back on the common
error type. -/
def mentions : Declaration → List String
  | client _ _ => ["Client"]
  | errorResponse => ["ErrorResponse"]
  | struct s =>
    (if s.embedsError then ["ErrorResponse"] else []) ++
      s.fields.flatMap (·.type.mentioned.toList)
  | named n => n.target.mentioned.toList
  | method m =>
    ["Client", "ErrorResponse"] ++ m.arguments.flatMap (·.type.mentioned.toList) ++
      m.results.map Arm.typeName ++ m.arms.map Arm.typeName

end Declaration

/-- There is a type of a name: the type of a definition, a common one, or one of these. -/
inductive Resolves (d : Document) (declarations : Members Declaration) : String → Prop
  | definition {reference : String} : Known d reference →
      Resolves d declarations (referent reference)
  | client : Resolves d declarations "Client"
  | errorResponse : Resolves d declarations "ErrorResponse"
  | declared {name : String} {declaration : Declaration} : (name, declaration) ∈ declarations →
      .type name ∈ declaration.heads → Resolves d declarations name

/-- Whatever these declarations mention is one of them, a common type or that of a definition. -/
def SelfContained (d : Document) (declarations : Members Declaration) : Prop :=
  ∀ p ∈ declarations, ∀ name ∈ p.2.mentions, Resolves d declarations name

variable {d : Document} {s item : Schema} {name parent operation path : String}
  {required : List String} {properties : List (String × Schema)} {position : Position}
  {first second added : Members Declaration} {declaration : Declaration} {pathItem : PathItem}
  {method : Method} {op : Operation} {options : Options} {file : File Declaration}

theorem Resolves.mono (h : Resolves d first name) (hsub : ∀ p ∈ first, p ∈ second) :
    Resolves d second name := by
  cases h with
  | definition hk => exact .definition hk
  | client => exact .client
  | errorResponse => exact .errorResponse
  | declared hm hh => exact .declared (hsub _ hm) hh

theorem Resolves.append_left (h : Resolves d first name) : Resolves d (first ++ second) name :=
  h.mono fun _ => List.mem_append_left _

theorem Resolves.append_right (h : Resolves d second name) : Resolves d (first ++ second) name :=
  h.mono fun _ => List.mem_append_right _

theorem selfContained_nil : SelfContained d [] := fun _ h => absurd h List.not_mem_nil

theorem SelfContained.append (hf : SelfContained d first) (hs : SelfContained d second) :
    SelfContained d (first ++ second) := by
  intro p hp name hn
  rcases List.mem_append.mp hp with hp | hp
  · exact (hf p hp name hn).append_left
  · exact (hs p hp name hn).append_right

theorem SelfContained.snoc (hf : SelfContained d first)
    (hd : ∀ n ∈ declaration.mentions, Resolves d first n) :
    SelfContained d (first ++ [(name, declaration)]) := by
  intro p hp n hn
  apply Resolves.append_left
  rcases List.mem_append.mp hp with hp | hp
  · exact hf p hp n hn
  · obtain rfl := List.mem_singleton.mp hp
    exact hd n hn

theorem SelfContained.flatMap {α : Type} {as : List α} {f : α → Members Declaration}
    (h : ∀ a ∈ as, SelfContained d (f a)) : SelfContained d (as.flatMap f) := by
  induction as with
  | nil => exact selfContained_nil
  | cons a rest ih =>
    obtain ⟨ha, hrest⟩ := List.forall_mem_cons.mp h
    exact ha.append (ih hrest)

theorem mentioned_optional (required : Bool) (type : GoType) :
    (type.optional required).mentioned = type.mentioned := by
  cases required <;> rfl

theorem mentioned_fieldTypeOf (required : Bool) (type : GoType) :
    (fieldTypeOf required type).mentioned = type.mentioned := by
  cases type with
  | slice element =>
    unfold fieldTypeOf
    dsimp only
    split
    · exact mentioned_optional _ _
    · rfl
  | string | float64 | int64 | bool | named | pointer => exact mentioned_optional _ _

theorem mentioned_ofPrimitive (p : Primitive) : (GoType.ofPrimitive p).mentioned = none := by
  cases p <;> rfl

theorem declared_object {objects : Members Schema} (h : (name, s) ∈ objects) :
    Resolves d (structs objects) name := by
  have hm : (name, Declaration.struct (structOf name s false)) ∈ structs objects :=
    List.mem_map.mpr ⟨(name, s), h, rfl⟩
  exact .declared hm (by simp [Declaration.heads, structOf])

theorem resolves_plainType (h : Fits (Known d) .element s) (name : String) :
    ∀ n ∈ (plainType name s).mentioned, Resolves d (structs (objectsOf name s)) n := by
  intro n hn
  unfold plainType at hn
  cases h with
  | @reference _ _ reference hk hknown =>
    rw [hk] at hn
    obtain rfl : referent reference = n := Option.some.inj hn
    exact .definition hknown
  | primitive hk =>
    rw [hk, mentioned_ofPrimitive] at hn
    cases hn
  | object hk =>
    rw [hk] at hn
    cases hn
    apply declared_object (s := s)
    rw [objectsOf_eq, hk]
    exact List.mem_append_right _ List.mem_cons_self
  | array hp => exact absurd rfl hp

/-- The type of an array mentions what that of its items does. -/
theorem resolves_items (hk : s.kind = .array) (hi : s.singleItems = some item)
    (h : Fits (Known d) .element item) (name : String) :
    ∀ n ∈ (valueType name s).mentioned,
      Resolves d (structs (objectsOfItems (name ++ "Item") s.items)) n := by
  intro n hn
  simp only [valueType, hk, hi] at hn
  rw [objectsOfItems_eq, hi]
  exact resolves_plainType h _ n hn

theorem resolves_valueType (h : Fits (Known d) .field s) (name : String) :
    ∀ n ∈ (valueType name s).mentioned, Resolves d (structs (objectsOf name s)) n := by
  have hplain : Fits (Known d) .element s → valueType name s = plainType name s →
      ∀ n ∈ (valueType name s).mentioned, Resolves d (structs (objectsOf name s)) n := by
    intro he hv n hn
    rw [hv] at hn
    exact resolves_plainType he name n hn
  cases h with
  | reference hk hknown => exact hplain (.reference hk hknown) (by simp [valueType, hk])
  | primitive hk => exact hplain (.primitive hk) (by simp [valueType, hk])
  | object hk hp => exact hplain (.object hk hp) (by simp [valueType, hk])
  | array _ hk hi he =>
    rw [objectsOf_eq, hk]
    exact resolves_items hk hi he name

/-- The fields of a struct mention the objects within the schema. -/
theorem resolves_structOf (h : ∀ p ∈ s.properties, Fits (Known d) .field p.2) (name : String)
    (embeds : Bool) :
    ∀ n ∈ (Declaration.struct (structOf name s embeds)).mentions,
      Resolves d (structs (objectsOfProperties name s.properties)) n := by
  intro n hn
  rcases List.mem_append.mp hn with hn | hn
  · split at hn
    · obtain rfl := List.mem_singleton.mp hn
      exact .errorResponse
    · cases hn
  · obtain ⟨field, hf, hn⟩ := List.mem_flatMap.mp hn
    obtain ⟨p, hp, rfl⟩ := List.mem_map.mp hf
    have hn : n ∈ (valueType (nestedTypeName name p.1) p.2).mentioned := by
      rw [← mentioned_fieldTypeOf]
      exact Option.mem_toList.mp hn
    apply (resolves_valueType (h p hp) _ n hn).mono
    intro q hq
    obtain ⟨o, ho, rfl⟩ := List.mem_map.mp hq
    exact List.mem_map.mpr ⟨o, mem_objectsOfProperties.mpr ⟨p, hp, ho⟩, rfl⟩

theorem selfContained_properties
    (h : ∀ p ∈ properties, ∀ name, SelfContained d (structs (objectsOf name p.2)))
    (parent : String) : SelfContained d (structs (objectsOfProperties parent properties)) := by
  induction properties with
  | nil =>
    rw [objectsOfProperties]
    exact selfContained_nil
  | cons p rest ih =>
    obtain ⟨property, s⟩ := p
    obtain ⟨hs, hrest⟩ := List.forall_mem_cons.mp h
    rw [objectsOfProperties, structs_append]
    exact (hs _).append (ih hrest)

theorem selfContained_objectsOf (h : Fits (Known d) position s) (name : String) :
    SelfContained d (structs (objectsOf name s)) := by
  induction h generalizing name with
  | reference hk | primitive hk | empty hk =>
    rw [objectsOf_eq, hk]
    exact selfContained_nil
  | object hk hp ih =>
    rw [objectsOf_eq, hk, structs_append]
    exact (selfContained_properties ih name).snoc (resolves_structOf hp name false)
  | array _ hk hi _ ih =>
    rw [objectsOf_eq, hk]
    dsimp only
    rw [objectsOfItems_eq, hi]
    exact ih _

theorem selfContained_struct (h : ∀ p ∈ s.properties, Fits (Known d) .field p.2) (name : String)
    (embeds : Bool) :
    SelfContained d (structs (objectsOfProperties name s.properties) ++
      [(name, .struct (structOf name s embeds))]) := by
  have hinner : SelfContained d (structs (objectsOfProperties name s.properties)) :=
    selfContained_properties (fun p hp name => selfContained_objectsOf (h p hp) name) name
  exact hinner.snoc (resolves_structOf h name embeds)

/-- A struct without fields mentions at most the common error type. -/
theorem selfContained_bare (name : String) (description : Option String) (embeds : Bool) :
    SelfContained d [(name, .struct ⟨name, description, embeds, []⟩)] := by
  apply selfContained_nil.snoc
  intro n hn
  cases embeds with
  | false => cases hn
  | true =>
    obtain rfl := List.mem_singleton.mp hn
    exact .errorResponse

theorem selfContained_type (h : Fits (Known d) .named s) (name : String) :
    SelfContained d (structs (objectsWithin name s) ++ [(name, typeDeclaration name s)]) := by
  unfold objectsWithin typeDeclaration
  cases h with
  | reference hk hknown =>
    rw [hk]
    apply selfContained_nil.snoc
    intro n hn
    simp only [Declaration.mentions, valueType, plainType, hk] at hn
    rw [List.mem_singleton.mp hn]
    exact .definition hknown
  | primitive hk =>
    rw [hk]
    apply selfContained_nil.snoc
    intro n hn
    simp [Declaration.mentions, valueType, plainType, hk, mentioned_ofPrimitive] at hn
  | object hk hp =>
    rw [hk]
    exact selfContained_struct hp name false
  | array _ hk hi he =>
    rw [hk]
    have hinner : SelfContained d (structs (objectsOfItems (name ++ "Item") s.items)) := by
      rw [objectsOfItems_eq, hi]
      exact selfContained_objectsOf he _
    apply hinner.snoc
    intro n hn
    exact resolves_items hk hi he name n (Option.mem_toList.mp hn)
  | empty hk =>
    rw [hk]
    exact selfContained_bare name s.description false

/-- Arguments of the URL are strings and numbers. -/
theorem unmentioned_url {parameters : List Parameter} {pieces : List Piece}
    {url : List UrlPart × List Argument} (h : Yields (emitUrl parameters pieces) url) :
    ∀ a ∈ url.2, a.type.mentioned = none := by
  intro a ha
  obtain ⟨p, -, hp⟩ := (exists_of_map_some (url_of_yields h).2).1 a ha
  obtain ⟨t, -, rfl⟩ := Option.map_eq_some_iff.mp hp
  exact mentioned_ofPrimitive t

theorem unmentioned_query {parameters : List Parameter}
    {query : List QueryItem × List Argument} (h : Yields (emitQuery parameters) query) :
    ∀ a ∈ query.2, a.type.mentioned = none := by
  intro a ha
  obtain ⟨p, -, hp⟩ := (exists_of_map_some (query_of_yields h).2).1 a ha
  obtain ⟨t, -, rfl⟩ := Option.map_eq_some_iff.mp hp
  exact (mentioned_optional _ _).trans (mentioned_ofPrimitive t)

theorem selfContained_request {body : Option Parameter}
    (h : ∀ p, body = some p → FitsBody (Known d) p) (operation : String) :
    SelfContained d (requestTypes operation body) := by
  unfold requestTypes
  cases hb : inlineBody body with
  | none => exact selfContained_nil
  | some s =>
    obtain ⟨hs, hnone⟩ := Option.filter_eq_some_iff.mp hb
    obtain ⟨p, hp, hschema⟩ := Option.bind_eq_some_iff.mp hs
    obtain ⟨t, ht, -, hfields⟩ := h p hp
    obtain rfl : s = t := Option.some.inj (hschema.symm.trans ht)
    exact selfContained_struct (hfields (by simpa using hnone)).2 _ false

/-- The body of a request has the type of a definition or the one that comes with the request. -/
theorem resolves_bodyArguments {body : Option Parameter}
    (h : ∀ p, body = some p → FitsBody (Known d) p) (operation : String) :
    ∀ a ∈ bodyArguments operation body, ∀ n ∈ a.type.mentioned,
      Resolves d (requestTypes operation body) n := by
  intro a ha n hn
  obtain ⟨s, hs, rfl⟩ := List.mem_map.mp ha
  obtain ⟨p, hp, hschema⟩ := Option.bind_eq_some_iff.mp (Option.mem_toList.mp hs)
  obtain ⟨t, ht, hknown, -⟩ := h p hp
  obtain rfl : s = t := Option.some.inj (hschema.symm.trans ht)
  cases hn
  unfold bodyTypeName
  cases hr : s.referenceName with
  | some reference => exact .definition (hknown reference hr)
  | none =>
    have hinline : inlineBody body = some s := by
      rw [inlineBody, Option.filter_eq_some_iff]
      exact ⟨Option.mem_toList.mp hs, by simp [hr]⟩
    unfold requestTypes
    rw [hinline]
    apply Resolves.declared
    · exact List.mem_append_right _ List.mem_cons_self
    · simp [Declaration.heads, structOf]

theorem selfContained_response {q : Nat × Response}
    (h : ∀ s, q.2.schema = some s → FitsResponse (Known d) q.1 s) (operation : String)
    (successes : Nat) : SelfContained d (responseTypes operation successes q) := by
  unfold responseTypes
  dsimp only
  generalize responseTypeName operation successes q.1 = name
  cases hs : q.2.schema with
  | none =>
    split
    · exact selfContained_bare name none false
    · exact selfContained_bare name none true
  | some s =>
    have hfits := h s hs
    unfold FitsResponse at hfits
    split
    · rw [if_pos ‹_›] at hfits
      exact selfContained_type hfits name
    · rw [if_neg ‹_›] at hfits
      simp only [Option.map_some, Option.getD_some, failureDeclaration, objectsWithin]
      rcases hfits with ⟨reference, hk⟩ | ⟨hk, hp⟩
      · rw [hk]
        exact selfContained_bare name none true
      · rw [hk, if_pos rfl]
        exact selfContained_struct hp name true

theorem heads_typeDeclaration (name : String) (s : Schema) :
    (typeDeclaration name s).heads = [.type name] := by
  unfold typeDeclaration
  cases s.kind <;> rfl

theorem heads_successDeclaration (name : String) (s : Option Schema) :
    (successDeclaration name s).heads = [.type name] := by
  cases s with
  | none => rfl
  | some s => exact heads_typeDeclaration name s

theorem heads_failureDeclaration (name : String) (s : Option Schema) :
    (failureDeclaration name s).heads = [.type name] := by
  cases s with
  | none => rfl
  | some s =>
    unfold failureDeclaration
    dsimp only [Declaration.heads]
    split <;> rfl

theorem heads_response (name : String) (q : Nat × Response) :
    Declaration.heads (if isSuccess q.1 then successDeclaration name q.2.schema
      else failureDeclaration name q.2.schema) = [.type name] := by
  split
  · exact heads_successDeclaration _ _
  · exact heads_failureDeclaration _ _

/-- A response has a type of its own. -/
theorem resolves_response {responses : List (Nat × Response)} {successes : Nat}
    {q : Nat × Response} (hq : q ∈ responses) :
    Resolves d (responses.flatMap (responseTypes operation successes))
      (armOf operation successes q).typeName := by
  apply Resolves.declared
  · apply List.mem_flatMap.mpr
    exact ⟨q, hq, List.mem_append_right _ List.mem_cons_self⟩
  · rw [heads_response]
    exact List.mem_cons_self

theorem OperationDeclared.selfContained (h : OperationDeclared d path method pathItem op added)
    (hfits : FitsOperation (Known d) d path pathItem op) : SelfContained d added := by
  cases h with
  | @intro parameters inputs url query name _ hp hi hurl hquery =>
    obtain ⟨⟨parameters', inputs', hp', hi', hinputs⟩, hresponses⟩ := hfits
    obtain rfl : parameters = parameters' := Except.ok.inj (hp.symm.trans hp')
    obtain rfl : inputs = inputs' := Except.ok.inj (hi.symm.trans hi')
    have htypes : SelfContained d (requestTypes name inputs.body ++ responsesTypes name op) := by
      apply (selfContained_request hinputs.body name).append
      apply SelfContained.flatMap
      intro q hq
      exact selfContained_response (hresponses q hq) name _
    have harms : ∀ a ∈ op.statusCodes.map (armOf name (successesOf op)),
        Resolves d (requestTypes name inputs.body ++ responsesTypes name op) a.typeName := by
      intro a ha
      obtain ⟨q, hq, rfl⟩ := List.mem_map.mp ha
      exact (resolves_response hq).append_right
    apply htypes.snoc
    intro n hn
    simp only [Declaration.mentions, List.mem_append, List.mem_flatMap, List.mem_map,
      Option.mem_toList] at hn
    rcases hn with ((hn | ⟨a, (ha | ha) | ha, hn⟩) | ⟨a, ha, rfl⟩) | ⟨a, ha, rfl⟩
    · rcases List.mem_cons.mp hn with rfl | hn
      · exact .client
      · obtain rfl := List.mem_singleton.mp hn
        exact .errorResponse
    · rw [unmentioned_url hurl a ha] at hn
      cases hn
    · exact (resolves_bodyArguments hinputs.body name a ha n hn).append_left
    · rw [unmentioned_query hquery a ha] at hn
      cases hn
    · exact harms a (List.mem_filter.mp ha).1
    · exact harms a (List.mem_map.mpr ha)

theorem OperationsDeclared.selfContained
    {operations : List (String × PathItem × Method × Operation)}
    (h : OperationsDeclared d operations added)
    (hfits : ∀ q ∈ operations, FitsOperation (Known d) d q.1 q.2.1 q.2.2.2) :
    SelfContained d added := by
  induction h with
  | nil => exact selfContained_nil
  | cons hq _ ih =>
    obtain ⟨hfirst, hrest⟩ := List.forall_mem_cons.mp hfits
    exact (hq.selfContained hfirst).append (ih hrest)

/-- Each declaration is one type or one method of the client, of the name it is recorded under. -/
def Single (declarations : Members Declaration) : Prop :=
  ∀ p ∈ declarations, p.2.heads = [.type p.1] ∨ p.2.heads = [.method "Client" p.1]

theorem Single.append (hf : Single first) (hs : Single second) : Single (first ++ second) :=
  List.forall_mem_append.mpr ⟨hf, hs⟩

theorem Single.flatMap {α : Type} {f : α → Members Declaration} (h : ∀ a, Single (f a))
    (as : List α) : Single (as.flatMap f) := by
  intro p hp
  obtain ⟨a, -, hp⟩ := List.mem_flatMap.mp hp
  exact h a p hp

theorem single_types (objects : Members Schema) (h : declaration.heads = [.type name]) :
    Single (structs objects ++ [(name, declaration)]) := by
  apply Single.append
  · intro p hp
    obtain ⟨o, -, rfl⟩ := List.mem_map.mp hp
    exact Or.inl rfl
  · intro p hp
    obtain rfl := List.mem_singleton.mp hp
    exact Or.inl h

theorem single_requestTypes (operation : String) (body : Option Parameter) :
    Single (requestTypes operation body) := by
  unfold requestTypes
  split
  · exact single_types _ rfl
  · exact fun _ h => absurd h List.not_mem_nil

theorem OperationsDeclared.single {operations : List (String × PathItem × Method × Operation)}
    (h : OperationsDeclared d operations added) : Single added := by
  induction h with
  | nil => exact fun _ h => absurd h List.not_mem_nil
  | cons hq _ ih =>
    refine Single.append ?_ ih
    cases hq
    apply Single.append
    · apply (single_requestTypes _ _).append
      apply Single.flatMap
      intro q
      exact single_types _ (heads_response _ q)
    · intro p hp
      obtain rfl := List.mem_singleton.mp hp
      exact Or.inr rfl

/-- Only the common declarations declare more than one thing. -/
theorem single_of_generate (h : (generate d options).1 = .ok file) :
    ∃ own, Single own ∧ file.declarations = surface d options ++ own := by
  obtain ⟨operations, hoperations, hdeclarations, -⟩ := declarations_of_generate h
  refine ⟨d.sortedDefinitions.flatMap definitionTypes ++ operations, ?_, ?_⟩
  · refine Single.append (Single.flatMap ?_ _) hoperations.single
    intro p
    exact single_types _ (heads_typeDeclaration _ p.2)
  · rw [hdeclarations, List.append_assoc]

theorem name_of_head (h : (generate d options).1 = .ok file) {p : String × Declaration}
    (hp : p ∈ file.declarations) (hn : .type name ∈ p.2.heads) : name = p.1 := by
  obtain ⟨own, hown, hdeclarations⟩ := single_of_generate h
  rw [hdeclarations] at hp
  rcases List.mem_append.mp hp with hp | hp
  · rcases List.mem_cons.mp hp with rfl | hp
    · simpa [Declaration.heads] using hn
    · obtain rfl := List.mem_singleton.mp hp
      simpa [Declaration.heads] using hn
  · rcases hown p hp with he | he
    · simpa [he] using hn
    · simp [he] at hn

theorem selfContained_of_generate (h : (generate d options).1 = .ok file) :
    SelfContained d file.declarations := by
  have hfits := generatable_of_generate h
  obtain ⟨operations, hoperations, hdeclarations, -⟩ := declarations_of_generate h
  rw [hdeclarations]
  apply SelfContained.append
  · apply SelfContained.append
    · intro p hp n hn
      rcases List.mem_cons.mp hp with rfl | hp
      · obtain rfl := List.mem_singleton.mp hn
        exact .client
      · obtain rfl := List.mem_singleton.mp hp
        obtain rfl := List.mem_singleton.mp hn
        exact .errorResponse
    · apply SelfContained.flatMap
      intro p hp
      have hmem := (Members.sorted_perm d.definitions).mem_iff.mp hp
      exact selfContained_type (hfits.definitions p hmem) _
  · apply hoperations.selfContained
    intro q hq
    obtain ⟨hm, ho⟩ := mem_operations.mp hq
    exact hfits.operations _ hm _ _ ho

/-- There is a type of the name in the file. -/
theorem Resolves.declared_in (hr : Resolves d file.declarations name)
    (h : (generate d options).1 = .ok file) :
    ∃ declaration, (name, declaration) ∈ file.declarations ∧
      .type name ∈ declaration.heads := by
  obtain ⟨operations, -, hdeclarations, -⟩ := declarations_of_generate h
  have hsurface : ∀ p ∈ surface d options, p ∈ file.declarations := by
    intro p hp
    rw [hdeclarations]
    exact List.mem_append_left _ (List.mem_append_left _ hp)
  cases hr with
  | client => exact ⟨_, hsurface _ List.mem_cons_self, List.mem_cons_self⟩
  | errorResponse =>
    exact ⟨_, hsurface _ (List.mem_cons_of_mem _ List.mem_cons_self), List.mem_cons_self⟩
  | declared hm hh => exact ⟨_, hm, hh⟩
  | @definition reference hk =>
    obtain ⟨s, hs⟩ := Option.isSome_iff_exists.mp (known_iff.mp hk)
    refine ⟨typeDeclaration (referent reference) s, ?_, ?_⟩
    · rw [hdeclarations]
      apply List.mem_append_left
      apply List.mem_append_right
      apply List.mem_flatMap.mpr
      have hmem := (Members.sorted_perm d.definitions).mem_iff.mpr (Members.mem_of_find? hs)
      exact ⟨_, hmem, List.mem_append_right _ List.mem_cons_self⟩
    · rw [heads_typeDeclaration]
      exact List.mem_cons_self

/-- What a client mentions is declared in its file, under its name and only there. -/
theorem mentions_declared_once (h : (generate d options).1 = .ok file) :
    ∀ p ∈ file.declarations, ∀ name ∈ p.2.mentions, ∃ declaration,
      (file.declarations.filter fun q => .type name ∈ q.2.heads) = [(name, declaration)] := by
  intro p hp name hn
  obtain ⟨declaration, hm, hh⟩ := (selfContained_of_generate h p hp name hn).declared_in h
  obtain ⟨_, -, -, hdistinct⟩ := declarations_of_generate h
  refine ⟨declaration, Members.filter_eq_singleton hdistinct hm (by simpa using hh) ?_⟩
  intro q hq hkept
  exact (name_of_head h hq (by simpa using hkept)).symm

/-- Operations of the fleet refer to definitions and to the types of their own requests. -/
theorem fleet_declared_once :
    ∃ file, (generate Fleet.document {}).1 = .ok file ∧
      ∀ p ∈ file.declarations, ∀ name ∈ p.2.mentions, ∃ declaration,
        (file.declarations.filter fun q => .type name ∈ q.2.heads) = [(name, declaration)] := by
  obtain ⟨file, hfile⟩ := exists_file Fleet.generates
  exact ⟨file, hfile, mentions_declared_once hfile⟩

end ApiContract.GoClient
