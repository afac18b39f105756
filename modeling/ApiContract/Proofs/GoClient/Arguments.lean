import ApiContract.Proofs.GoClient.Emission
import ApiContract.Proofs.PathTemplate

namespace ApiContract.GoClient

open Emit

variable {p : Parameter} {parameters : List Parameter} {pieces : List Piece}

/-- How the argument of a path parameter becomes text. -/
def pathConversion (p : Parameter) : Conversion :=
  match p.primitive? with
  | some .number => .decimalFloat
  | some .integer => .decimalInteger
  | _ => .identity

/-- The argument of a path parameter: a string or a number. -/
def pathArgument? (p : Parameter) : Option Argument :=
  (p.primitive?.filter (· ≠ .boolean)).map fun t => ⟨argumentName p.name, .ofPrimitive t⟩

/-- How the argument of a query parameter becomes text. -/
def queryConversion (p : Parameter) : Conversion :=
  match p.primitive? with
  | some .number => .truncatedFloat
  | some .integer => .decimalInteger
  | some .boolean => .truthValue
  | _ => .identity

/-- The argument of a query parameter: a pointer, if it may be left out. -/
def queryArgument? (p : Parameter) : Option Argument :=
  p.primitive?.map fun t => ⟨argumentName p.name, (GoType.ofPrimitive t).optional p.isRequired⟩

def queryItem (p : Parameter) : QueryItem :=
  ⟨p.name, argumentName p.name, !p.isRequired, queryConversion p⟩

/-- The part of a URL for a piece of its template. -/
def urlPart? (parameters : List Parameter) : Piece → Option UrlPart
  | .literal text => some (.literal text)
  | .parameter v => (parameters.find? (·.name = v)).map fun p =>
      .argument (argumentName p.name) (pathConversion p)

/-- The parameters that stand in a template, in its order. -/
def parametersIn (parameters : List Parameter) (pieces : List Piece) : List Parameter :=
  (Piece.parameters pieces).filterMap fun v => parameters.find? (·.name = v)

/-- Parameters that are sorted by where they go are all there, in their order. -/
theorem filters_of_sortInputs {inputs sorted : Inputs}
    (h : sortInputs inputs parameters = .ok sorted) :
    sorted.path = inputs.path ++ parameters.filter (·.location = .path) ∧
      sorted.query = inputs.query ++ parameters.filter (·.location = .query) ∧
      sorted.body.toList = inputs.body.toList ++ parameters.filter (·.location = .body) := by
  induction parameters generalizing inputs with
  | nil =>
    cases h
    simp
  | cons p rest ih =>
    rw [sortInputs] at h
    cases hl : p.location with
    | path | query =>
      simp only [hl] at h
      simpa [hl] using ih h
    | body =>
      simp only [hl] at h
      split at h
      · cases h
      · rename_i hnone
        rw [Option.not_isSome_iff_eq_none] at hnone
        simpa [hl, hnone] using ih h
    | header | formData =>
      simp only [hl] at h
      cases h

theorem yields_pure_iff {α : Type} {a b : α} : Yields (Pure.pure a) b ↔ a = b := by
  constructor
  · rintro ⟨_, _, h⟩
    cases h
    rfl
  · rintro rfl
    exact ⟨⟨{ package := "" }, []⟩, _, rfl⟩

theorem yields_imported_iff {α : Type} {path : String} {a b : α} :
    Yields (addImport path >>= fun _ => Pure.pure a) b ↔ a = b := by
  constructor
  · intro h
    obtain ⟨_, -, h⟩ := yields_of_bind h
    exact yields_pure_iff.mp h
  · rintro rfl
    exact ⟨⟨{ package := "" }, []⟩, _, rfl⟩

theorem yields_pathArgument_iff {a : GoType × Conversion} :
    Yields (pathArgument p) a ↔
      pathArgument? p = some ⟨argumentName p.name, a.1⟩ ∧ pathConversion p = a.2 := by
  obtain ⟨type, conversion⟩ := a
  unfold pathArgument pathArgument? pathConversion
  cases p.primitive? with
  | none => exact iff_of_false not_yields_fail (by simp)
  | some t =>
    cases t with
    | string => simp [yields_pure_iff, GoType.ofPrimitive]
    | number | integer => simp [yields_imported_iff, GoType.ofPrimitive]
    | boolean => exact iff_of_false not_yields_fail (by simp)

theorem yields_queryArgument_iff {a : GoType × Conversion} :
    Yields (queryArgument p) a ↔
      p.primitive?.map GoType.ofPrimitive = some a.1 ∧ queryConversion p = a.2 := by
  obtain ⟨type, conversion⟩ := a
  unfold queryArgument queryConversion
  cases p.primitive? with
  | none => exact iff_of_false not_yields_fail (by simp)
  | some t =>
    cases t with
    | string => simp [yields_pure_iff, GoType.ofPrimitive]
    | number | integer | boolean => simp [yields_imported_iff, GoType.ofPrimitive]

theorem parametersIn_cons (v : String) (rest : List Piece) :
    parametersIn parameters (.parameter v :: rest) =
      (parameters.find? (·.name = v)).toList ++ parametersIn parameters rest := by
  unfold parametersIn
  rw [PathTemplate.parameters_parameter, List.filterMap_cons]
  cases parameters.find? (·.name = v) <;> rfl

/-- What comes out for a template: a part for each piece, an argument for each parameter. -/
theorem url_of_yields {url : List UrlPart × List Argument}
    (h : Yields (emitUrl parameters pieces) url) :
    url.1 = pieces.filterMap (urlPart? parameters) ∧
      url.2.map some = (parametersIn parameters pieces).map pathArgument? := by
  induction pieces generalizing url with
  | nil =>
    rw [emitUrl] at h
    rw [← yields_pure_iff.mp h]
    exact ⟨rfl, rfl⟩
  | cons piece rest ih =>
    cases piece with
    | literal text =>
      rw [emitUrl] at h
      obtain ⟨more, hmore, h⟩ := yields_of_bind h
      obtain ⟨hparts, harguments⟩ := ih hmore
      rw [← yields_pure_iff.mp h]
      exact ⟨congrArg (UrlPart.literal text :: ·) hparts, harguments⟩
    | parameter v =>
      rw [emitUrl.eq_def] at h
      dsimp only at h
      rw [parametersIn_cons]
      cases hf : parameters.find? (·.name = v) with
      | none =>
        rw [hf] at h
        have hpart : urlPart? parameters (.parameter v) = none := by simp [urlPart?, hf]
        rw [List.filterMap_cons_none hpart]
        exact ih h
      | some p =>
        rw [hf] at h
        obtain ⟨a, ha, h⟩ := yields_of_bind h
        obtain ⟨more, hmore, h⟩ := yields_of_bind h
        obtain ⟨hargument, hconversion⟩ := yields_pathArgument_iff.mp (yields_of_within ha)
        obtain ⟨hparts, harguments⟩ := ih hmore
        have hpart : urlPart? parameters (.parameter v) =
            some (.argument (argumentName p.name) a.2) := by
          simp [urlPart?, hf, hconversion]
        rw [← yields_pure_iff.mp h, List.filterMap_cons_some hpart, ← hparts, Option.toList_some,
          List.singleton_append, List.map_cons, List.map_cons, hargument, harguments]
        exact ⟨rfl, rfl⟩

/-- What comes out for a query: an item and an argument for each parameter. -/
theorem query_of_yields {query : List QueryItem × List Argument}
    (h : Yields (emitQuery parameters) query) :
    query.1 = parameters.map queryItem ∧ query.2.map some = parameters.map queryArgument? := by
  induction parameters generalizing query with
  | nil =>
    rw [emitQuery] at h
    rw [← yields_pure_iff.mp h]
    exact ⟨rfl, rfl⟩
  | cons p rest ih =>
    rw [emitQuery] at h
    obtain ⟨a, ha, h⟩ := yields_of_bind h
    obtain ⟨more, hmore, h⟩ := yields_of_bind h
    obtain ⟨htype, hconversion⟩ := yields_queryArgument_iff.mp (yields_of_within ha)
    obtain ⟨t, ht, htype⟩ := Option.map_eq_some_iff.mp htype
    have hargument : queryArgument? p =
        some ⟨argumentName p.name, a.1.optional p.isRequired⟩ := by
      rw [queryArgument?, ht, Option.map_some, htype]
    obtain ⟨hitems, harguments⟩ := ih hmore
    rw [← yields_pure_iff.mp h, List.map_cons, List.map_cons, List.map_cons, queryItem, hargument,
      harguments, hconversion, hitems]
    exact ⟨rfl, rfl⟩

theorem exists_of_map_some {α β : Type} {as : List α} {bs : List β} {f : β → Option α}
    (h : as.map some = bs.map f) :
    (∀ a ∈ as, ∃ b ∈ bs, f b = some a) ∧ ∀ b ∈ bs, ∃ a, f b = some a := by
  constructor
  · intro a ha
    have hm : some a ∈ bs.map f := h ▸ List.mem_map_of_mem ha
    exact List.mem_map.mp hm
  · intro b hb
    have hm : f b ∈ as.map some := h ▸ List.mem_map_of_mem hb
    obtain ⟨a, -, ha⟩ := List.mem_map.mp hm
    exact ⟨a, ha.symm⟩

theorem identifiers_of_map_some {arguments : List Argument} {f : Parameter → Option Argument}
    (h : arguments.map some = parameters.map f)
    (hf : ∀ p a, f p = some a → a.identifier = argumentName p.name) :
    arguments.map Argument.identifier = (parameters.map Parameter.name).map argumentName := by
  induction parameters generalizing arguments with
  | nil => simpa using h
  | cons p rest ih =>
    obtain ⟨a, more, rfl, ha, hmore⟩ := List.map_eq_cons_iff.mp h
    rw [List.map_cons, List.map_cons, List.map_cons, ih hmore, hf p a ha.symm]

theorem identifier_of_pathArgument? {a : Argument} (h : pathArgument? p = some a) :
    a.identifier = argumentName p.name := by
  obtain ⟨_, -, rfl⟩ := Option.map_eq_some_iff.mp h
  rfl

theorem identifier_of_queryArgument? {a : Argument} (h : queryArgument? p = some a) :
    a.identifier = argumentName p.name := by
  obtain ⟨_, -, rfl⟩ := Option.map_eq_some_iff.mp h
  rfl

/-- If every name in a template is that of a parameter, the parameters in it have these names. -/
theorem names_parametersIn
    (h : ∀ v ∈ Piece.parameters pieces, v ∈ parameters.map Parameter.name) :
    (parametersIn parameters pieces).map Parameter.name = Piece.parameters pieces := by
  unfold parametersIn
  generalize Piece.parameters pieces = names at h ⊢
  induction names with
  | nil => rfl
  | cons v rest ih =>
    obtain ⟨hv, hrest⟩ := List.forall_mem_cons.mp h
    cases hf : parameters.find? (·.name = v) with
    | none =>
      obtain ⟨p, hp, hname⟩ := List.mem_map.mp hv
      simpa [hname] using List.find?_eq_none.mp hf p hp
    | some p =>
      have hname : p.name = v := by simpa using List.find?_some hf
      simp only [List.filterMap_cons, hf, List.map_cons, hname, ih hrest]

theorem names_placed (path : String) (parameters : List Parameter) :
    let template := PathTemplate.interpolate path (parameters.map Parameter.name)
    (parametersIn parameters template.pieces).map Parameter.name = template.placed :=
  names_parametersIn fun _ => PathTemplate.mem_of_interpolate

end ApiContract.GoClient
