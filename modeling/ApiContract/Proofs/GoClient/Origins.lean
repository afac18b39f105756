import ApiContract.Proofs.GoClient.Spellings

namespace ApiContract.GoClient

open Emit Naming Text

variable {d : Document} {path : String} {method : Method} {item : PathItem} {op : Operation}
  {added : Members Declaration} {parameters : List Parameter} {m : MethodDeclaration}
  {p : Parameter} {x y : String}

/-- The parameters that are placed in the path, in its order. -/
def placedIn (path : String) (parameters : List Parameter) : List Parameter :=
  let inPath := parameters.filter (·.location = .path)
  parametersIn inPath (PathTemplate.interpolate path (inPath.map Parameter.name)).pieces

def queried (parameters : List Parameter) : List Parameter :=
  parameters.filter (·.location = .query)

/-- The parameters that are given one by one: those placed in the path and those of the query. -/
def givenTo (path : String) (parameters : List Parameter) : List Parameter :=
  placedIn path parameters ++ queried parameters

/-- How the parameters that are given one by one are spelt as arguments. -/
def spellings (path : String) (parameters : List Parameter) : List String :=
  (givenTo path parameters).map fun p => lowerCamelCase p.name

/-- The parts of a method come from the parameters and the responses of an operation. -/
structure MadeFrom (path : String) (parameters : List Parameter) (op : Operation)
    (m : MethodDeclaration) : Prop where
  arguments : ∃ own, List.Sublist own ["req"] ∧ (m.arguments.map Argument.identifier).Perm
    ((givenTo path parameters).map (fun p => argumentName p.name) ++ own)
  conversions : m.conversions = (placedIn path parameters).map pathConversion ++
    (queried parameters).map queryConversion
  placed_fit : ∀ p ∈ placedIn path parameters, (pathArgument? p).isSome
  queried_fit : ∀ p ∈ queried parameters, (queryArgument? p).isSome
  body : m.hasBody ↔ ∃ p ∈ parameters, p.location = .body
  arms : m.arms = op.statusCodes.map (armOf m.name (successesOf op))

theorem inputs_of_sortInputs {inputs : Inputs} (h : sortInputs {} parameters = .ok inputs)
    (path : String) :
    parametersIn inputs.path (PathTemplate.interpolate path
        (inputs.path.map Parameter.name)).pieces = placedIn path parameters ∧
      inputs.query = queried parameters := by
  obtain ⟨hpath, hquery, -⟩ := filters_of_sortInputs h
  rw [List.nil_append] at hpath hquery
  rw [hpath]
  exact ⟨rfl, hquery⟩

theorem body_isSome_iff {inputs : Inputs} (h : sortInputs {} parameters = .ok inputs) :
    inputs.body.isSome ↔ ∃ p ∈ parameters, p.location = .body := by
  obtain ⟨-, -, hbody⟩ := filters_of_sortInputs h
  have hsome : inputs.body.isSome ↔ ∃ p, p ∈ inputs.body.toList := by
    cases inputs.body <;> simp
  have hnone : ({} : Inputs).body.toList = [] := rfl
  rw [hsome, hbody, hnone, List.nil_append]
  simp only [List.mem_filter, decide_eq_true_eq]

def IsType : Declaration → Prop
  | .struct _ | .named _ => True
  | .client _ _ | .errorResponse | .method _ => False

theorem isType_structs (objects : Members Schema) : ∀ p ∈ structs objects, IsType p.2 :=
  List.forall_mem_map.mpr fun _ _ => trivial

theorem isType_typeDeclaration (name : String) (s : Schema) : IsType (typeDeclaration name s) := by
  unfold typeDeclaration
  split <;> trivial

theorem isType_requestTypes (operation : String) (body : Option Parameter) :
    ∀ p ∈ requestTypes operation body, IsType p.2 := by
  unfold requestTypes
  split
  · exact List.forall_mem_append.mpr
      ⟨isType_structs _, List.forall_mem_singleton.mpr trivial⟩
  · exact List.forall_mem_nil _

theorem isType_responseTypes (operation : String) (successes : Nat) (q : Nat × Response) :
    ∀ p ∈ responseTypes operation successes q, IsType p.2 := by
  refine List.forall_mem_append.mpr ⟨isType_structs _, List.forall_mem_singleton.mpr ?_⟩
  dsimp only
  split
  · cases q.2.schema with
    | none => trivial
    | some s => exact isType_typeDeclaration _ s
  · cases q.2.schema <;> trivial

theorem isType_definitionTypes (q : String × Schema) :
    ∀ p ∈ definitionTypes q, IsType p.2 :=
  List.forall_mem_append.mpr
    ⟨isType_structs _, List.forall_mem_singleton.mpr (isType_typeDeclaration _ q.2)⟩

theorem conversions_urlParts (parameters : List Parameter) (pieces : List Piece) :
    (pieces.filterMap (urlPart? parameters)).filterMap UrlPart.conversion? =
      (parametersIn parameters pieces).map pathConversion := by
  induction pieces with
  | nil => rfl
  | cons piece rest ih =>
    cases piece with
    | literal text => exact ih
    | parameter v =>
      rw [parametersIn_cons, List.map_append, ← ih]
      cases hf : parameters.find? (·.name = v) with
      | none =>
        have hpart : urlPart? parameters (.parameter v) = none := by simp [urlPart?, hf]
        rw [List.filterMap_cons_none hpart]
        rfl
      | some p =>
        have hpart : urlPart? parameters (.parameter v) =
            some (.argument (argumentName p.name) (pathConversion p)) := by simp [urlPart?, hf]
        rw [List.filterMap_cons_some hpart]
        rfl

theorem own_bodyArguments (operation : String) (body : Option Parameter) :
    List.Sublist ((bodyArguments operation body).map Argument.identifier) ["req"] := by
  unfold bodyArguments
  cases body.bind Parameter.schema with
  | none => exact List.nil_sublist _
  | some s => exact List.Sublist.refl _

theorem OperationDeclared.madeFrom {name : String}
    (h : OperationDeclared d path method item op added)
    (hname : name = operationName op.identifier method.name path)
    (hparameters : d.operationParameters item op = .ok parameters) :
    ∃ types m, added = types ++ [(name, .method m)] ∧ m.name = name ∧
      (∀ p ∈ types, IsType p.2) ∧ MadeFrom path parameters op m := by
  cases h with
  | @intro found inputs url query other hother hp hi hurl hquery =>
    obtain rfl := hname.trans hother.symm
    obtain rfl := Except.ok.inj (hparameters.symm.trans hp)
    obtain ⟨hin, hof⟩ := inputs_of_sortInputs hi path
    obtain ⟨hparts, hplaced⟩ := url_of_yields hurl
    obtain ⟨hitems, hgiven⟩ := query_of_yields hquery
    rw [hin] at hplaced
    rw [hof] at hitems hgiven
    refine ⟨_, _, rfl, rfl, List.forall_mem_append.mpr
      ⟨isType_requestTypes _ _, List.forall_mem_flatMap.mpr fun q _ => isType_responseTypes _ _ q⟩,
      ?_⟩
    constructor
    case arguments =>
      refine ⟨_, own_bodyArguments name inputs.body, ?_⟩
      have hurls := identifiers_of_map_some hplaced fun _ _ => identifier_of_pathArgument?
      have hqueries := identifiers_of_map_some hgiven fun _ _ => identifier_of_queryArgument?
      rw [List.map_map] at hurls hqueries
      rw [List.map_append, List.map_append, hurls, hqueries, givenTo, List.map_append,
        List.append_assoc, List.append_assoc]
      exact List.perm_append_comm.append_left _
    case conversions =>
      simp only [MethodDeclaration.conversions]
      rw [hparts, conversions_urlParts, hin, hitems, List.map_map]
      rfl
    case placed_fit =>
      intro p hp
      obtain ⟨a, ha⟩ := (exists_of_map_some hplaced).2 p hp
      exact Option.isSome_of_eq_some ha
    case queried_fit =>
      intro p hp
      obtain ⟨a, ha⟩ := (exists_of_map_some hgiven).2 p hp
      exact Option.isSome_of_eq_some ha
    case body => exact body_isSome_iff hi
    case arms => rfl

theorem spared_not_mem (name : String) : spared name ∉ keywords ++ methodLocals := by
  have hnone : ∀ y ∈ keywords ++ methodLocals, '_' ∉ y.toList := by decide
  unfold spared
  split
  · exact fun hm => hnone _ hm (by simp)
  · assumption

theorem spared_eq_iff (hy : y ∉ keywords ++ methodLocals) (hu : '_' ∉ y.toList) :
    spared x = y ↔ x = y := by
  unfold spared
  split
  · rename_i hx
    apply iff_of_false
    · rintro rfl
      simp at hu
    · rintro rfl
      exact hy hx
  · rfl

/-- What an argument is called, apart from the names that arguments are spared. -/
theorem MadeFrom.mem_arguments_iff (h : MadeFrom path parameters op m)
    (hy : y ∉ keywords ++ methodLocals) (hu : '_' ∉ y.toList) :
    y ∈ m.arguments.map Argument.identifier ↔ y ∈ spellings path parameters := by
  obtain ⟨own, hown, harguments⟩ := h.arguments
  have hreq : y ∉ own := by
    intro hm
    obtain rfl := List.mem_singleton.mp (hown.subset hm)
    exact hy (by decide)
  have hspared : ∀ p : Parameter, argumentName p.name = y ↔ lowerCamelCase p.name = y :=
    fun p => spared_eq_iff hy hu
  rw [harguments.mem_iff, List.mem_append, or_iff_left hreq, spellings]
  simp only [List.mem_map, hspared]

theorem qualifies_pathConversion (h : (pathArgument? p).isSome) (x : String) :
    .qualifies x ∈ (pathConversion p).usages [] ↔
      x = "strconv" ∧ (p.primitive? = some .number ∨ p.primitive? = some .integer) := by
  unfold pathArgument? at h
  unfold pathConversion
  cases hp : p.primitive? with
  | none => simp [hp] at h
  | some t => cases t <;> simp [Conversion.usages]

theorem qualifies_queryConversion (h : (queryArgument? p).isSome) (x : String) :
    .qualifies x ∈ (queryConversion p).usages [] ↔
      x = "strconv" ∧ p.primitive? ≠ some .string := by
  unfold queryArgument? at h
  unfold queryConversion
  cases hp : p.primitive? with
  | none => simp [hp] at h
  | some t => cases t <;> simp [Conversion.usages]

theorem builtin_pathConversion (p : Parameter) (x : String) :
    .builtin x ∉ (pathConversion p).usages [] := by
  unfold pathConversion
  split <;> simp [Conversion.usages]

theorem builtin_queryConversion (p : Parameter) (x : String) :
    .builtin x ∈ (queryConversion p).usages [] ↔
      x = "int64" ∧ p.primitive? = some .number := by
  unfold queryConversion
  cases p.primitive? with
  | none => simp [Conversion.usages]
  | some t => cases t <;> simp [Conversion.usages]

/-- The argument of a parameter is no string and becomes one. -/
def Converted (p : Parameter) : Prop :=
  p.location = .path ∧ (p.primitive? = some .number ∨ p.primitive? = some .integer) ∨
    p.location = .query ∧ p.primitive? ≠ some .string

instance (p : Parameter) : Decidable (Converted p) := inferInstanceAs (Decidable (_ ∨ _))

theorem location_of_mem_placedIn (h : p ∈ placedIn path parameters) : p.location = .path := by
  obtain ⟨v, -, hf⟩ := List.mem_filterMap.mp h
  simpa using (List.mem_filter.mp (List.mem_of_find?_eq_some hf)).2

theorem location_of_mem_queried (h : p ∈ queried parameters) : p.location = .query := by
  simpa using (List.mem_filter.mp h).2

theorem MadeFrom.qualifies_iff (h : MadeFrom path parameters op m) (x : String) :
    (∃ c ∈ m.conversions, .qualifies x ∈ c.usages []) ↔
      x = "strconv" ∧ ∃ p ∈ givenTo path parameters, Converted p := by
  have hplaced : ∀ p ∈ placedIn path parameters,
      .qualifies x ∈ (pathConversion p).usages [] ↔ x = "strconv" ∧ Converted p := by
    intro p hp
    rw [qualifies_pathConversion (h.placed_fit p hp)]
    simp [Converted, location_of_mem_placedIn hp]
  have hqueried : ∀ p ∈ queried parameters,
      .qualifies x ∈ (queryConversion p).usages [] ↔ x = "strconv" ∧ Converted p := by
    intro p hp
    rw [qualifies_queryConversion (h.queried_fit p hp)]
    simp [Converted, location_of_mem_queried hp]
  rw [h.conversions, givenTo]
  simp only [List.mem_append, List.mem_map]
  grind

theorem MadeFrom.builtin_iff (h : MadeFrom path parameters op m) (x : String) :
    (∃ c ∈ m.conversions, .builtin x ∈ c.usages []) ↔
      x = "int64" ∧ ∃ p ∈ queried parameters, p.primitive? = some .number := by
  rw [h.conversions]
  simp only [List.mem_append, List.mem_map]
  grind [builtin_pathConversion, builtin_queryConversion]

end ApiContract.GoClient
