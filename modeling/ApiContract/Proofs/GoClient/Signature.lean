import ApiContract.Proofs.Filling
import ApiContract.Proofs.GoClient.Concatenation
import ApiContract.Proofs.GoClient.Headings
import ApiContract.Proofs.GoClient.Warnings
import Mathlib.Data.List.Nodup
import Mathlib.Data.List.Pairwise

namespace ApiContract.GoClient

open Emit Naming Text PathTemplate

/-- Where in a path the placeholder of a name begins first. -/
def occurrence? (name path : String) : Option Nat :=
  (splitFirst? (placeholder name) path.toList).map (·.1.length)

/-- The argument of a body. -/
def bodyArgument? (operation : String) (p : Parameter) : Option Argument :=
  p.schema.map fun s => ⟨"req", .pointer (.named (bodyTypeName operation s))⟩

/-- What makes text of the argument of a path parameter. -/
def pathOperand (p : Parameter) : String := (pathConversion p).apply (argumentName p.name)

/-- The arguments and the URL of a method agree with the parameters of its operation, some of which
are placed in its path. -/
structure SignatureAgrees (parameters : List Parameter) (path : String) (placed : List Parameter)
    (m : MethodDeclaration) : Prop where
  placed_perm : placed.Perm (parameters.filter fun p =>
    (occurrence? p.name path).isSome ∧ p.location = .path)
  placed_ascend : placed.Pairwise fun p q =>
    ∀ i ∈ occurrence? p.name path, ∀ j ∈ occurrence? q.name path, i < j
  arguments : m.arguments.map some = placed.map pathArgument? ++
    (parameters.filter (·.location = .body)).map (bodyArgument? m.name) ++
      (parameters.filter (·.location = .query)).map queryArgument?
  signature : ∃ results, "func (cl *Client) " ++ m.name ++ "(" ++ ", ".intercalate
    ("ctx context.Context" :: m.arguments.map fun a => a.identifier ++ " " ++ a.type.text) ++
      ") (" ++ results ++ ") \x7b" ∈ m.lines
  url : ∃ expression, "\tu, err := cl.baseURL.Parse(" ++ expression ++ ")" ∈ m.lines ∧
    ∀ value, evaluate value expression =
      fill (placed.map fun p => (p.name, value (pathOperand p))) (relative path)

variable {path : String} {ps : List Parameter} {p : Parameter}

theorem occurrence?_isSome (name path : String) :
    (occurrence? name path).isSome = (splitFirst? (placeholder name) (relative path)).isSome := by
  obtain ⟨slash, hslash⟩ := splitFirst?_relative path
  simp [occurrence?, hslash]

theorem occurrence?_lt {name other : String}
    (h : Precedes (splitFirst? (placeholder name) (relative path))
      (splitFirst? (placeholder other) (relative path))) :
    ∀ i ∈ occurrence? name path, ∀ j ∈ occurrence? other path, i < j := by
  obtain ⟨slash, hslash⟩ := splitFirst?_relative path
  have hbehind := h.behind slash
  rw [← hslash, ← hslash] at hbehind
  intro i hi j hj
  obtain ⟨x, hx, rfl⟩ := Option.map_eq_some_iff.mp hi
  obtain ⟨y, hy, rfl⟩ := Option.map_eq_some_iff.mp hj
  exact hbehind x hx y hy

section Placed

variable (hdistinct : (ps.map Parameter.name).Nodup)
include hdistinct

theorem find?_of_mem (hp : p ∈ ps) : ps.find? (·.name = p.name) = some p := by
  cases hf : ps.find? (·.name = p.name) with
  | none => simpa using List.find?_eq_none.mp hf p hp
  | some q =>
    have hname : q.name = p.name := by simpa using List.find?_some hf
    rw [List.inj_on_of_nodup_map hdistinct (List.mem_of_find?_eq_some hf) hp hname]

theorem mem_parametersIn_iff {pieces : List Piece} :
    p ∈ parametersIn ps pieces ↔ p ∈ ps ∧ p.name ∈ Piece.parameters pieces := by
  rw [parametersIn, List.mem_filterMap]
  constructor
  · rintro ⟨v, hv, hf⟩
    have hname : p.name = v := by simpa using List.find?_some hf
    exact ⟨List.mem_of_find?_eq_some hf, hname ▸ hv⟩
  · rintro ⟨hp, hv⟩
    exact ⟨p.name, hv, find?_of_mem hdistinct hp⟩

variable (hbraceless : ∀ p ∈ ps, Braceless p.name)
include hbraceless

theorem stands_parameters (path : String) :
    Stands (relative path) (ps.map Parameter.name) (interpolate path (ps.map Parameter.name)) :=
  stands_interpolate path hdistinct (List.forall_mem_map.mpr hbraceless)

/-- Placed are the parameters that occur in the path. -/
theorem parametersIn_perm (path : String) :
    (parametersIn ps (interpolate path (ps.map Parameter.name)).pieces).Perm
      (ps.filter fun p => (occurrence? p.name path).isSome) := by
  have hnames := names_placed path ps
  have hnodup : (interpolate path (ps.map Parameter.name)).placed.Nodup := nodup_placed hdistinct
  rw [← hnames] at hnodup
  apply (List.perm_ext_iff_of_nodup (hnodup.of_map _) ((hdistinct.of_map _).filter _)).mpr
  intro p
  rw [mem_parametersIn_iff hdistinct, List.mem_filter, occurrence?_isSome]
  apply and_congr_right
  intro hp
  exact mem_placed_iff hdistinct (List.forall_mem_map.mpr hbraceless) (List.mem_map_of_mem hp)

/-- In the order of the pieces the parameters occur one behind the other. -/
theorem parametersIn_ascend (path : String) :
    (parametersIn ps (interpolate path (ps.map Parameter.name)).pieces).Pairwise fun p q =>
      ∀ i ∈ occurrence? p.name path, ∀ j ∈ occurrence? q.name path, i < j := by
  have hstands := stands_parameters hdistinct hbraceless path
  have hplaced : (interpolate path (ps.map Parameter.name)).placed.Pairwise fun v w =>
      Precedes (spot? v (interpolate path (ps.map Parameter.name)).pieces)
        (spot? w (interpolate path (ps.map Parameter.name)).pieces) :=
    spots_ascend (nodup_placed hdistinct)
  rw [← names_placed] at hplaced
  apply (List.pairwise_map.mp hplaced).imp_of_mem
  intro p q hp hq hpq
  have hin : ∀ r ∈ parametersIn ps (interpolate path (ps.map Parameter.name)).pieces,
      r.name ∈ ps.map Parameter.name :=
    fun r hr => List.mem_map_of_mem ((mem_parametersIn_iff hdistinct).mp hr).1
  rw [← hstands.spots p.name (hin p hp), ← hstands.spots q.name (hin q hq)] at hpq
  exact occurrence?_lt hpq

theorem unplaced_eq (path : String) :
    (interpolate path (ps.map Parameter.name)).unplaced =
      (ps.filter fun p => (occurrence? p.name path).isNone).map Parameter.name := by
  have hnone : ∀ name, (splitFirst? (placeholder name) (relative path)).isNone =
      (occurrence? name path).isNone := by
    intro name
    rw [← Option.not_isSome, ← Option.not_isSome, occurrence?_isSome]
  rw [(stands_parameters hdistinct hbraceless path).unplaced, List.filter_map]
  simp only [hnone, Function.comp_def]

omit hdistinct hbraceless in
theorem atomic_urlPart? {piece : Piece} {part : UrlPart} (h : urlPart? ps piece = some part) :
    part.Atomic := by
  cases piece with
  | literal text =>
    cases h
    trivial
  | parameter v =>
    obtain ⟨p, -, rfl⟩ := Option.map_eq_some_iff.mp h
    exact atomic_apply (atomic_argumentName p.name) (pathConversion p)

/-- The text that stands in the place of a parameter of a name. -/
def textFor (value : String → String) (ps : List Parameter) (name : String) : String :=
  ((ps.find? (·.name = name)).map fun p => value (pathOperand p)).getD ""

omit hdistinct hbraceless in
theorem denoted_urlParts (value : String → String) (pieces : List Piece) :
    (pieces.filterMap (urlPart? ps)).flatMap (UrlPart.denoted value) =
      pieces.flatMap (Piece.filled (textFor value ps)) := by
  induction pieces with
  | nil => rfl
  | cons piece rest ih =>
    rw [List.flatMap_cons, ← ih]
    cases piece with
    | literal text => rfl
    | parameter v =>
      cases hf : ps.find? (·.name = v) with
      | none => simp [urlPart?, Piece.filled, textFor, hf]
      | some p => simp [urlPart?, Piece.filled, textFor, hf, UrlPart.denoted, pathOperand]

/-- The URL is the path in which placeholders have given way to arguments. -/
theorem fill_path (value : String → String) (path : String) :
    let template := interpolate path (ps.map Parameter.name)
    fill ((parametersIn ps template.pieces).map fun p => (p.name, value (pathOperand p)))
      (relative path) = template.pieces.flatMap (Piece.filled (textFor value ps)) := by
  intro template
  have hholds := holds_interpolate path (ps.map Parameter.name)
  have hstands := stands_parameters hdistinct hbraceless path
  have honce : template.placed.Nodup := nodup_placed hdistinct
  have hnames : Members.names ((parametersIn ps template.pieces).map fun p =>
      (p.name, value (pathOperand p))) = template.placed := by
    rw [Members.names, List.map_map]
    exact names_placed path ps
  have hmem : ∀ v ∈ template.placed, v ∈ ps.map Parameter.name :=
    fun v hv => PathTemplate.mem_of_interpolate hv
  rw [← hholds.sources]
  apply fill_sources
  · rwa [hnames]
  · rw [hnames]
    exact fun v hv => List.forall_mem_map.mpr hbraceless v (hmem v hv)
  · intro q hq
    obtain ⟨p, hp, rfl⟩ := List.mem_map.mp hq
    have hp := ((mem_parametersIn_iff hdistinct).mp hp).1
    simp [textFor, find?_of_mem hdistinct hp]
  · rw [hnames]
    exact fun v hv => hv
  · exact honce
  · rw [hnames, hholds.sources]
    exact fun v hv => hstands.spots v (hmem v hv)

end Placed

/-- The method that is declared with an operation, and what its arguments and its URL come from. -/
theorem OperationDeclared.exists_arguments {d : Document} {method : Method} {item : PathItem}
    {op : Operation} {added : Members Declaration} {name : String} {parameters : List Parameter}
    {inputs : Inputs} (h : OperationDeclared d path method item op added)
    (hname : name = operationName op.identifier method.name path)
    (hparameters : d.operationParameters item op = .ok parameters)
    (hinputs : sortInputs {} parameters = .ok inputs) :
    ∃ types m url query, added = types ++ [(name, .method m)] ∧ m.name = name ∧
      Yields (emitUrl inputs.path
        (interpolate path (inputs.path.map Parameter.name)).pieces) url ∧
      Yields (emitQuery inputs.query) query ∧ m.url = url.1 ∧
      m.arguments = url.2 ++ bodyArguments m.name inputs.body ++ query.2 := by
  cases h with
  | intro other hother hfound hsorted hurl hquery =>
    obtain rfl := hname.trans hother.symm
    obtain rfl := Except.ok.inj (hparameters.symm.trans hfound)
    obtain rfl := Except.ok.inj (hinputs.symm.trans hsorted)
    exact ⟨_, _, _, _, rfl, rfl, hurl, hquery, rfl, rfl⟩

theorem bodyArguments_eq {operation : String} {body : Option Parameter}
    (h : ∀ p, body = some p → ∃ s, p.schema = some s) :
    (bodyArguments operation body).map some = body.toList.map (bodyArgument? operation) := by
  cases body with
  | none => rfl
  | some p =>
    obtain ⟨s, hs⟩ := h p rfl
    simp [bodyArguments, bodyArgument?, hs]

/-- Parameters that differ in name or location and all go to the path differ in their names. -/
theorem nodup_pathNames {parameters : List Parameter}
    (h : (parameters.map fun p => (p.name, p.location)).Nodup) :
    ((parameters.filter (·.location = .path)).map Parameter.name).Nodup := by
  have hpairs : (parameters.filter (·.location = .path)).map (fun p => (p.name, p.location)) =
      ((parameters.filter (·.location = .path)).map Parameter.name).map (·, Location.path) := by
    rw [List.map_map]
    apply List.map_congr_left
    intro p hp
    have hlocation : p.location = .path := by simpa using (List.mem_filter.mp hp).2
    rw [hlocation]
    rfl
  have hsublist : ((parameters.filter (·.location = .path)).map
      fun p => (p.name, p.location)).Nodup := (List.filter_sublist.map _).nodup h
  rw [hpairs] at hsublist
  exact hsublist.of_map _

theorem braceless_path {parameters : List Parameter}
    (h : ∀ p ∈ parameters, p.location = .path → Braceless p.name) :
    ∀ p ∈ parameters.filter (·.location = .path), Braceless p.name := by
  intro p hp
  obtain ⟨hm, hlocation⟩ := List.mem_filter.mp hp
  exact h p hm (by simpa using hlocation)

theorem signatureAgrees_of_yields {parameters : List Parameter} {inputs : Inputs}
    {url : List UrlPart × List Argument} {query : List QueryItem × List Argument}
    {m : MethodDeclaration}
    (hdistinct : (parameters.map fun p => (p.name, p.location)).Nodup)
    (hbraceless : ∀ p ∈ parameters, p.location = .path → Braceless p.name)
    (hinputs : sortInputs {} parameters = .ok inputs)
    (hbody : ∀ p, inputs.body = some p → ∃ s, p.schema = some s)
    (hurl : Yields (emitUrl inputs.path
      (interpolate path (inputs.path.map Parameter.name)).pieces) url)
    (hquery : Yields (emitQuery inputs.query) query) (hparts : m.url = url.1)
    (harguments : m.arguments = url.2 ++ bodyArguments m.name inputs.body ++ query.2) :
    ∃ placed, SignatureAgrees parameters path placed m := by
  obtain ⟨hpath, hqueries, hbodies⟩ := filters_of_sortInputs hinputs
  rw [List.nil_append] at hpath hqueries
  have hnames : (inputs.path.map Parameter.name).Nodup := hpath ▸ nodup_pathNames hdistinct
  have hnamed : ∀ p ∈ inputs.path, Braceless p.name := hpath ▸ braceless_path hbraceless
  obtain ⟨hurlparts, hplaced⟩ := url_of_yields hurl
  refine ⟨parametersIn inputs.path
    (interpolate path (inputs.path.map Parameter.name)).pieces, ?_⟩
  constructor
  case placed_perm =>
    have hperm := parametersIn_perm hnames hnamed path
    rw [hpath, List.filter_filter] at hperm
    simpa [hpath] using hperm
  case placed_ascend => exact parametersIn_ascend hnames hnamed path
  case arguments =>
    rw [harguments, List.map_append, List.map_append, hplaced, bodyArguments_eq hbody, hbodies,
      (query_of_yields hquery).2, hqueries]
    rfl
  case signature => exact ⟨m.resultsText, signature_mem_lines m⟩
  case url =>
    refine ⟨m.urlText, by simp [MethodDeclaration.lines], fun value => ?_⟩
    have hatomic : ∀ part ∈ m.url, part.Atomic := by
      intro part hpart
      rw [hparts, hurlparts] at hpart
      obtain ⟨piece, -, hpiece⟩ := List.mem_filterMap.mp hpart
      exact atomic_urlPart? hpiece
    rw [evaluate_urlText m hatomic, hparts, hurlparts, denoted_urlParts,
      fill_path hnames hnamed value path]

/-- When an operation is emitted whose parameters are pairwise different in name and location, and
those in the path have no braces in their names, the arguments and the URL of its method agree with
the parameters and the path. There is a warning for each path parameter that the path does not have,
and besides these only those of the responses. -/
theorem emitOperation_signature (d : Document) (path : String) (method : Method) (item : PathItem)
    (op : Operation) {draft draft' : Draft} {parameters : List Parameter}
    (hparameters : d.operationParameters item op = .ok parameters)
    (hdistinct : (parameters.map fun p => (p.name, p.location)).Nodup)
    (hbraceless : ∀ p ∈ parameters, p.location = .path → Braceless p.name)
    (h : emitOperation d path method item op draft = (.ok (), draft')) :
    (∃ types m, draft'.file.declarations =
        draft.file.declarations ++ types ++ [(m.name, .method m)] ∧
      m.name = operationName op.identifier method.name path ∧
      ∃ placed, SignatureAgrees parameters path placed m) ∧
    draft'.warnings = draft.warnings ++
      (parameters.filter fun p => (occurrence? p.name path).isNone ∧ p.location = .path).map
        (fun p => unplacedWarning method path p.name) ++ op.statusCodeLog := by
  obtain ⟨added, hfile, hop⟩ := ensures_emitOperation d path method item op draft () draft' h
  have hfits := fitsOperation_of_emitOperation ⟨draft, draft', h⟩
  obtain ⟨_, inputs, hfound, hinputs, hfits⟩ := hfits.request
  obtain rfl := Except.ok.inj (hparameters.symm.trans hfound)
  constructor
  · obtain ⟨types, m, url, query, hadded, hname, hurl, hquery, hparts, harguments⟩ :=
      hop.exists_arguments rfl hparameters hinputs
    have hbody : ∀ p, inputs.body = some p → ∃ s, p.schema = some s := by
      intro p hp
      obtain ⟨s, hs, -⟩ := hfits.body p hp
      exact ⟨s, hs⟩
    refine ⟨types, m, ?_, hname, ?_⟩
    · rw [hfile.declarations, hadded, hname, ← List.append_assoc]
    · exact signatureAgrees_of_yields hdistinct hbraceless hinputs hbody hurl hquery hparts
        harguments
  · have hwarnings :=
      warns_emitOperation d path method item op hparameters hinputs draft () draft' h
    obtain ⟨hpath, -, -⟩ := filters_of_sortInputs hinputs
    rw [List.nil_append] at hpath
    rw [hwarnings, hpath, unplaced_eq (nodup_pathNames hdistinct) (braceless_path hbraceless),
      List.filter_filter, List.map_map]
    simp only [Bool.decide_and, Bool.decide_eq_true, List.append_assoc, Function.comp_def]

namespace Fleet

def trackPath : String := "/fleets/\x7bfleet\x7d/vessels/\x7bvessel\x7d/\x7bvessel\x7d"

def trackParameters : List Parameter := [
  { name := "vessel", location := .path, type := some .integer },
  { name := "dock", location := .path, type := some .string },
  { name := "per_page", location := .query, type := some .integer },
  { name := "fleet", location := .path, type := some .string }]

def track : Operation :=
  { parameters := trackParameters.map .inline
    responses := [("204", {})] }

end Fleet

open Fleet in
/-- A path has one of its three parameters twice and one not at all; the operation lists them in
another order. -/
theorem track_signature :
    ∃ draft' m, emitOperation document trackPath .get {} track empty = (.ok (), draft') ∧
      (∃ placed, SignatureAgrees trackParameters trackPath placed m) ∧
      draft'.warnings = [unplacedWarning .get trackPath "dock"] := by
  have hok : (emitOperation document trackPath .get {} track empty).1 = .ok () := by
    decide +kernel
  obtain ⟨draft', hrun⟩ := exists_draft hok
  have hparameters : document.operationParameters {} track = .ok trackParameters := rfl
  obtain ⟨⟨types, m, -, -, hm⟩, hwarnings⟩ := emitOperation_signature document trackPath .get {}
    track hparameters (by decide) (by decide) hrun
  have hunplaced : (trackParameters.filter fun p =>
      (occurrence? p.name trackPath).isNone ∧ p.location = .path).map
        (fun p => unplacedWarning .get trackPath p.name) =
      [unplacedWarning .get trackPath "dock"] := by
    decide
  refine ⟨draft', m, hrun, hm, ?_⟩
  rw [hwarnings, hunplaced]
  rfl

end ApiContract.GoClient
