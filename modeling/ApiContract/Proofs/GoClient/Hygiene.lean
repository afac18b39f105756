import ApiContract.Proofs.GoClient.Origins
import ApiContract.Proofs.GoClient.Responses
import ApiContract.Proofs.Json.Reordering
import Mathlib.Data.List.Nodup

namespace ApiContract.GoClient

open Emit Naming Reader Text

/-- A part of a URL with a blank in the place of its argument. -/
def UrlPart.unnamed : UrlPart → UrlPart
  | .literal text => .literal text
  | .argument _ conversion => .argument "_" conversion

/-- A method with a blank in its body in the place of each argument. -/
def MethodDeclaration.unnamed (m : MethodDeclaration) : MethodDeclaration :=
  { m with
    url := m.url.map UrlPart.unnamed
    query := m.query.map fun q => { q with identifier := "_" } }

/-- What a name that is no argument means in a method. -/
inductive Claims (m : MethodDeclaration) (x : String) : Prop
  | keyword (h : x ∈ keywords)
  | local (h : .declares x ∈ (Declaration.method m).innerUsages)
  | qualifier (h : .qualifies x ∈ (Declaration.method m).innerUsages)
  | predeclared (h : .builtin x ∈ (Declaration.method m.unnamed).innerUsages)

/-- The receiver, the arguments and the results of a method have different names, and no argument
has one that means something else in the method. -/
structure Hygienic (m : MethodDeclaration) : Prop where
  distinct : m.signature.Nodup
  unclaimed : ∀ x ∈ "ctx" :: m.arguments.map Argument.identifier, ¬ Claims m x

/-- The names that the method of an operation needs, apart from those that arguments are spared. -/
def neededNames (path : String) (parameters : List Parameter) (op : Operation) : List String :=
  op.codes.map (fun code => "res" ++ toString code) ++
    ["errors", "fmt", "http", "io", "json", "nil"] ++
    (if op.codes = [] then [] else ["new"]) ++
    (if ∃ p ∈ parameters, p.location = .body then ["bytes", "new"] else []) ++
    (if ∃ p ∈ givenTo path parameters, Converted p then ["strconv"] else []) ++
    (if ∃ p ∈ queried parameters, p.primitive? = some .number then ["int64"] else [])

variable {d : Document} {path : String} {method : Method} {item : PathItem} {op : Operation}
  {parameters : List Parameter} {m : MethodDeclaration} {x y : String}

theorem spared_injective (hx : '_' ∉ x.toList) (hy : '_' ∉ y.toList) (h : spared x = spared y) :
    x = y := by
  by_cases hm : y ∈ keywords ++ methodLocals
  · have hspared : spared y = y ++ "_" := if_pos hm
    rw [hspared] at h
    unfold spared at h
    split at h
    · exact String.append_left_inj _ |>.mp h
    · simp [h] at hx
  · have hspared : spared y = y := if_neg hm
    rw [hspared] at h
    exact (spared_eq_iff hm hy).mp h

theorem underscore_not_mem_lowerCamelCase (name : String) :
    '_' ∉ (lowerCamelCase name).toList := fun hm =>
  absurd (isWordCharacter_of_mem_lowerCamelCase name '_' hm) (by decide)

theorem spelt_unnamed (h : m.Spelt) : m.unnamed.Spelt := by
  have hblank : Spelt "_" := by simp [Spelt, isWordPart]
  constructor
  case name => exact h.name
  case arguments => exact h.arguments
  case url =>
    intro x conversion hx
    obtain ⟨part, -, hpart⟩ := List.mem_map.mp hx
    cases part with
    | literal text => cases hpart
    | argument y other =>
      cases hpart
      exact hblank
  case query => exact List.forall_mem_map.mpr fun _ _ => hblank
  case arms => exact h.arms

theorem conversions_unnamed (m : MethodDeclaration) : m.unnamed.conversions = m.conversions := by
  have hpart : ∀ part : UrlPart, part.unnamed.conversion? = part.conversion? := by
    intro part
    cases part <;> rfl
  simp only [MethodDeclaration.conversions, MethodDeclaration.unnamed, List.filterMap_map,
    List.map_map, Function.comp_def, hpart]

theorem eq_blank_of_mem_unnamed (h : x ∈ m.unnamed.namesWithin) :
    x = "_" ∨ ∃ a ∈ m.arms, a.typeName = x := by
  have hpart : ∀ part : UrlPart, ∀ y ∈ part.unnamed.identifier?, y = "_" := by
    intro part y hy
    cases part with
    | literal text => cases hy
    | argument z conversion =>
      cases hy
      rfl
  rcases List.mem_append.mp h with h | h
  · left
    rcases List.mem_append.mp h with h | h
    · obtain ⟨_, hp, hx⟩ := List.mem_filterMap.mp h
      obtain ⟨part, -, rfl⟩ := List.mem_map.mp hp
      exact hpart part x hx
    · obtain ⟨_, hq, rfl⟩ := List.mem_map.mp h
      obtain ⟨q, -, rfl⟩ := List.mem_map.mp hq
      rfl
  · exact Or.inr (List.mem_map.mp h)

/-- What Go lends the body of a method, apart from its arguments. -/
theorem builtin_mem_unnamed (h : m.Spelt) (ht : ∀ a ∈ m.arms, a.typeName ∉ predeclared)
    (x : String) :
    .builtin x ∈ (Declaration.method m.unnamed).innerUsages ↔
      x = "nil" ∨ (m.hasBody ∧ x = "new") ∨ (m.arms ≠ [] ∧ x = "new") ∨
      ∃ c ∈ m.conversions, .builtin x ∈ c.usages [] := by
  have hnames : ∀ name ∈ m.unnamed.namesWithin, .builtin x ∉ nameUsages name := by
    intro name hname hx
    obtain ⟨-, hp⟩ := eq_of_mem_nameUsages hx
    rcases eq_blank_of_mem_unnamed hname with rfl | ⟨a, ha, rfl⟩
    · exact absurd hp (by decide)
    · exact ht a ha hp
  have hbody : m.unnamed.hasBody = m.hasBody := rfl
  have harms : m.unnamed.arms = m.arms := rfl
  have hsome : m.arms ≠ [] ↔ ∃ a, a ∈ m.arms :=
    ⟨List.exists_mem_of_ne_nil _, fun ⟨_, ha⟩ => List.ne_nil_of_mem ha⟩
  rw [(usages_method (spelt_unnamed h)).2, mem_usages hnames, conversions_unnamed, hbody,
    harms, hsome]
  simp [MethodDeclaration.commonUsages]

theorem claims_iff_usages : Claims m x ↔ x ∈ keywords ∨
    .declares x ∈ (Declaration.method m).innerUsages ∨
    .qualifies x ∈ (Declaration.method m).innerUsages ∨
    .builtin x ∈ (Declaration.method m.unnamed).innerUsages := by
  constructor
  · rintro (h | h | h | h) <;> simp [h]
  · rintro (h | h | h | h)
    exacts [.keyword h, .local h, .qualifier h, .predeclared h]

/-- The names that mean something in a method and that no argument is spared. -/
theorem claims_iff (h : m.Spelt) (ht : ∀ a ∈ m.arms, a.typeName ∉ predeclared)
    (hx : x ∉ keywords ++ methodLocals) :
    Claims m x ↔ (∃ a ∈ m.arms, ¬ a.success ∧ x = a.identifier) ∨
      x ∈ ["errors", "fmt", "http", "io", "json", "nil"] ∨ (m.arms ≠ [] ∧ x = "new") ∨
      (m.hasBody ∧ x ∈ ["bytes", "new"]) ∨ (∃ c ∈ m.conversions, .qualifies x ∈ c.usages []) ∨
      ∃ c ∈ m.conversions, .builtin x ∈ c.usages [] := by
  obtain ⟨hkeyword, hlocal⟩ := not_or.mp (mt List.mem_append.mpr hx)
  rw [claims_iff_usages, declares_mem_innerUsages h, qualifies_mem_innerUsages h,
    builtin_mem_unnamed h ht]
  simp only [methodLocals, List.mem_cons, List.not_mem_nil, or_false, not_or] at hlocal
  simp only [List.mem_cons, List.not_mem_nil, or_false]
  grind

theorem identifier_injective {a b : Arm} (h : a.identifier = b.identifier) : a.code = b.code := by
  have hlists := congrArg String.toList h
  rw [identifier_toList, identifier_toList] at hlists
  simpa using Number.toDigits_injective (by simpa using hlists)

/-- The variable of a response is none of the names that arguments are spared, nor one that an
argument is given instead. -/
theorem plain_identifier (a : Arm) :
    a.identifier ∉ keywords ++ methodLocals ∧ '_' ∉ a.identifier.toList := by
  have hreserved : ∀ y ∈ keywords ++ methodLocals, y.toList.all (!·.isDigit) := by decide
  have hdigits : ∀ c ∈ Nat.toDigits 10 a.code, c.isDigit := fun c hc =>
    Nat.isDigit_of_mem_toDigits (by decide) (by decide) hc
  obtain ⟨c, hc⟩ := List.exists_mem_of_ne_nil _ (Nat.toDigits_ne_nil (n := a.code) (b := 10))
  constructor
  · intro hm
    have hletters := hreserved _ hm
    rw [identifier_toList, List.all_eq_true] at hletters
    simpa [hdigits c hc] using hletters c (by simp [hc])
  · rw [identifier_toList]
    simp

theorem mem_neededNames_iff : y ∈ neededNames path parameters op ↔
    (∃ code ∈ op.codes, y = "res" ++ toString code) ∨
      y ∈ ["errors", "fmt", "http", "io", "json", "nil"] ∨ (op.codes ≠ [] ∧ y = "new") ∨
      ((∃ p ∈ parameters, p.location = .body) ∧ y ∈ ["bytes", "new"]) ∨
      (y = "strconv" ∧ ∃ p ∈ givenTo path parameters, Converted p) ∨
      (y = "int64" ∧ ∃ p ∈ queried parameters, p.primitive? = some .number) := by
  have hgiven : ∀ (c : Prop) [Decidable c] (names : List String),
      y ∈ (if c then names else []) ↔ c ∧ y ∈ names := by
    intro c _ names
    split <;> simp [*]
  have hnonempty : y ∈ (if op.codes = [] then [] else ["new"]) ↔ op.codes ≠ [] ∧ y = "new" := by
    split <;> simp [*]
  simp only [neededNames, List.mem_append, hgiven, hnonempty, List.mem_map, List.mem_singleton]
  grind

theorem plain_of_mem_neededNames (h : y ∈ neededNames path parameters op) :
    y ∉ keywords ++ methodLocals ∧ '_' ∉ y.toList := by
  have hfixed : ∀ y ∈ ["errors", "fmt", "http", "io", "json", "nil", "new", "bytes", "strconv",
      "int64"], y ∉ keywords ++ methodLocals ∧ '_' ∉ y.toList := by decide
  rw [mem_neededNames_iff] at h
  rcases h with ⟨code, -, rfl⟩ | h
  · exact plain_identifier ⟨code, ""⟩
  · apply hfixed
    simp only [List.mem_cons, List.not_mem_nil, or_false] at h ⊢
    grind

theorem map_argumentName_givenTo (path : String) (parameters : List Parameter) :
    (givenTo path parameters).map (fun p => argumentName p.name) =
      (spellings path parameters).map spared := by
  rw [spellings, List.map_map]
  rfl

section Made

variable (hm : MadeFrom path parameters op m)

include hm

theorem MadeFrom.codes_perm : (m.arms.map Arm.code).Perm op.codes := by
  have hcodes : m.arms.map Arm.code = op.statusCodes.map Prod.fst := by
    rw [hm.arms, List.map_map]
    rfl
  rw [hcodes]
  exact op.map_statusCodes_perm

/-- The type of a response has a capital in its name. -/
theorem MadeFrom.typeName_not_mem : ∀ a ∈ m.arms, a.typeName ∉ predeclared := by
  have hnone : ∀ y ∈ predeclared, 'R' ∉ y.toList := by decide
  rw [hm.arms]
  refine List.forall_mem_map.mpr fun q _ hq => hnone _ hq ?_
  unfold armOf responseTypeName
  dsimp only
  split <;> simp

theorem MadeFrom.mem_needed_iff (h : m.Spelt) (hy : y ∉ keywords ++ methodLocals) :
    (y ∈ m.results.map Arm.identifier ∨ Claims m y) ↔ y ∈ neededNames path parameters op := by
  have hcodes : (∃ code ∈ op.codes, y = "res" ++ toString code) ↔
      ∃ a ∈ m.arms, y = a.identifier := by
    simp only [← hm.codes_perm.mem_iff, List.mem_map]
    constructor
    · rintro ⟨_, ⟨a, ha, rfl⟩, rfl⟩
      exact ⟨a, ha, rfl⟩
    · rintro ⟨a, ha, rfl⟩
      exact ⟨a.code, ⟨a, ha, rfl⟩, rfl⟩
  have hnone : op.codes ≠ [] ↔ m.arms ≠ [] := by
    rw [← List.length_pos_iff, ← hm.codes_perm.length_eq, List.length_map, List.length_pos_iff]
  have hresults : y ∈ m.results.map Arm.identifier ↔
      ∃ a ∈ m.arms, a.success ∧ y = a.identifier := by
    simp only [MethodDeclaration.results, List.mem_map, List.mem_filter]
    grind
  rw [claims_iff h hm.typeName_not_mem hy, mem_neededNames_iff, hcodes, hnone, hresults, hm.body,
    hm.qualifies_iff, hm.builtin_iff]
  grind

end Made

/-- The spellings differ from needed names exactly if the arguments do. -/
theorem spared_needed_iff {names : List String} (hn : ∀ x ∈ names, '_' ∉ x.toList) :
    ((names.map spared).Nodup ∧ ∀ x ∈ names.map spared, x ∉ neededNames path parameters op) ↔
      names.Nodup ∧ ∀ x ∈ names, x ∉ neededNames path parameters op := by
  have hinj : ∀ x ∈ names, ∀ y ∈ names, spared x = spared y → x = y :=
    fun x hx y hy => spared_injective (hn x hx) (hn y hy)
  have hmem : ∀ x, spared x ∈ neededNames path parameters op ↔
      x ∈ neededNames path parameters op := by
    intro x
    constructor
    · intro h
      obtain ⟨hfree, hplain⟩ := plain_of_mem_neededNames h
      rwa [← (spared_eq_iff hfree hplain).mp rfl] at h
    · intro h
      obtain ⟨hfree, hplain⟩ := plain_of_mem_neededNames h
      rwa [(spared_eq_iff hfree hplain).mpr rfl]
  rw [List.forall_mem_map]
  apply and_congr
  · exact ⟨fun h => h.of_map _, fun h => h.map_on hinj⟩
  · exact forall₂_congr fun x _ => not_congr (hmem x)

section Made

variable (hm : MadeFrom path parameters op m)

include hm

/-- The variables of responses are different, as their codes are. -/
theorem MadeFrom.nodup_results (hcodes : op.codes.Nodup) :
    (m.results.map Arm.identifier).Nodup := by
  have harms : (m.arms.map Arm.code).Nodup := hm.codes_perm.nodup_iff.mpr hcodes
  have hall : (m.arms.map Arm.identifier).Nodup := by
    apply (harms.of_map _).map_on
    intro a ha b hb hab
    exact List.inj_on_of_nodup_map harms ha hb (identifier_injective hab)
  exact (List.filter_sublist.map _).nodup hall

theorem MadeFrom.distinct_iff (hcodes : op.codes.Nodup) :
    m.signature.Nodup ↔ ((spellings path parameters).map spared).Nodup ∧
      ∀ x ∈ (spellings path parameters).map spared, x ∉ m.results.map Arm.identifier := by
  obtain ⟨own, hown, harguments⟩ := hm.arguments
  rw [map_argumentName_givenTo] at harguments
  have hfree : ∀ x ∈ (spellings path parameters).map spared, x ∉ keywords ++ methodLocals :=
    List.forall_mem_map.mpr fun x _ => spared_not_mem x
  have hfixed : ∀ x ∈ ["cl", "ctx", "err", "req"], x ∈ keywords ++ methodLocals := by decide
  have hlocals : List.Sublist ("cl" :: "ctx" :: "err" :: own) ["cl", "ctx", "err", "req"] :=
    ((hown.cons_cons _).cons_cons _).cons_cons _
  have hresults : ∀ x ∈ m.results.map Arm.identifier, x ∉ ["cl", "ctx", "err", "req"] :=
    List.forall_mem_map.mpr fun a _ => identifier_not_mem a (by decide)
  have hothers : ("cl" :: "ctx" :: "err" :: own ++ m.results.map Arm.identifier).Nodup := by
    apply List.nodup_append.mpr
    refine ⟨hlocals.nodup (by decide), hm.nodup_results hcodes, ?_⟩
    rintro x hx _ hy rfl
    exact hresults x hy (hlocals.subset hx)
  have hperm : m.signature.Perm ((spellings path parameters).map spared ++
      ("cl" :: "ctx" :: "err" :: own ++ m.results.map Arm.identifier)) := by
    rw [List.perm_iff_count]
    intro x
    simp only [MethodDeclaration.signature, List.count_cons, List.count_append,
      harguments.count_eq, List.count_nil]
    omega
  rw [hperm.nodup_iff, List.nodup_append, and_iff_right hothers]
  apply and_congr_right
  intro _
  constructor
  · exact fun h x hx hr => h x hx x (List.mem_append_right _ hr) rfl
  · rintro h x hx _ hy rfl
    rcases List.mem_append.mp hy with hy | hy
    · exact hfree x hx (hfixed x (hlocals.subset hy))
    · exact h x hx hy

/-- The context and the body are called by names that are spared. -/
theorem MadeFrom.not_claims (h : m.Spelt) (hx : x ∈ ["ctx", "req"]) : ¬ Claims m x := by
  have hresponse : ¬ ∃ a ∈ m.arms, ¬ a.success ∧ x = a.identifier := by
    rintro ⟨a, -, -, rfl⟩
    exact identifier_not_mem a (by decide) hx
  rw [claims_iff_usages, declares_mem_innerUsages h, qualifies_mem_innerUsages h,
    builtin_mem_unnamed h hm.typeName_not_mem, hm.qualifies_iff, hm.builtin_iff]
  simp only [List.mem_cons, List.not_mem_nil, or_false] at hx
  rcases hx with rfl | rfl <;> simpa [keywords] using hresponse

end Made

theorem MadeFrom.hygienic_iff (hm : MadeFrom path parameters op m) (h : m.Spelt)
    (hcodes : op.codes.Nodup) :
    Hygienic m ↔ (spellings path parameters).Nodup ∧
      ∀ x ∈ spellings path parameters, x ∉ neededNames path parameters op := by
  obtain ⟨own, hown, harguments⟩ := hm.arguments
  have hunclaimed : (∀ x ∈ "ctx" :: m.arguments.map Argument.identifier, ¬ Claims m x) ↔
      ∀ x ∈ (spellings path parameters).map spared, ¬ Claims m x := by
    have hown : ∀ x ∈ own, ¬ Claims m x := fun x hx =>
      hm.not_claims h (List.mem_cons_of_mem _ (hown.subset hx))
    have hctx : ¬ Claims m "ctx" := hm.not_claims h List.mem_cons_self
    rw [List.forall_mem_cons, and_iff_right hctx]
    simp only [harguments.mem_iff, map_argumentName_givenTo]
    rw [List.forall_mem_append, and_iff_left hown]
  have hneeded : ∀ x ∈ (spellings path parameters).map spared,
      (x ∉ m.results.map Arm.identifier ∧ ¬ Claims m x) ↔ x ∉ neededNames path parameters op := by
    refine List.forall_mem_map.mpr fun x _ => ?_
    rw [← not_or, hm.mem_needed_iff h (spared_not_mem x)]
  have hplain : ∀ x ∈ spellings path parameters, '_' ∉ x.toList :=
    List.forall_mem_map.mpr fun p _ => underscore_not_mem_lowerCamelCase p.name
  calc Hygienic m
      ↔ (((spellings path parameters).map spared).Nodup ∧
          ∀ x ∈ (spellings path parameters).map spared, x ∉ m.results.map Arm.identifier) ∧
          ∀ x ∈ (spellings path parameters).map spared, ¬ Claims m x := by
        rw [← hm.distinct_iff hcodes, ← hunclaimed]
        exact ⟨fun hy => ⟨hy.distinct, hy.unclaimed⟩, fun hy => ⟨hy.1, hy.2⟩⟩
    _ ↔ ((spellings path parameters).map spared).Nodup ∧
          ∀ x ∈ (spellings path parameters).map spared, x ∉ neededNames path parameters op := by
        rw [and_assoc, ← forall₂_and]
        exact and_congr_right fun _ => forall₂_congr hneeded
    _ ↔ _ := spared_needed_iff hplain

/-- When an operation is emitted, the identifiers in the signature of its method are different and
no argument takes a name that the method needs exactly if the spellings of its parameters are
different and none of them is such a name. Keywords and the locals that every method may have are no
matter. -/
theorem emitOperation_hygienic (d : Document) (path : String) (method : Method) (item : PathItem)
    (op : Operation) {draft draft' : Draft} {parameters : List Parameter}
    (hparameters : d.operationParameters item op = .ok parameters)
    (h : emitOperation d path method item op draft = (.ok (), draft')) :
    ∃ types m, draft'.file.declarations =
        draft.file.declarations ++ types ++ [(m.name, .method m)] ∧
      m.name = operationName op.identifier method.name path ∧
      "func (cl *Client) " ++ m.name ++ "(" ++ ", ".intercalate
        ("ctx context.Context" :: m.arguments.map fun a => a.identifier ++ " " ++ a.type.text) ++
        ") (" ++ ", ".intercalate
          (m.results.map (fun a => a.identifier ++ " *" ++ a.typeName) ++ ["err error"]) ++
        ") \x7b" ∈ m.lines ∧
      (Hygienic m ↔ (spellings path parameters).Nodup ∧
        ∀ x ∈ spellings path parameters, x ∉ neededNames path parameters op) := by
  obtain ⟨added, hfile, hop⟩ := ensures_emitOperation d path method item op draft () draft' h
  have hcodes := op.map_statusCodes_perm.nodup_iff.mp (hop.codes_nodup hfile.room.1)
  obtain ⟨types, m, hadded, hname, -, hmade⟩ := hop.madeFrom rfl hparameters
  have hspelt : m.Spelt := by
    have hall := hop.allSpelt
    rw [hadded] at hall
    exact allSpelt_singleton.mp (allSpelt_append.mp hall).2
  refine ⟨types, m, ?_, hname, signature_mem_lines m, hmade.hygienic_iff hspelt hcodes⟩
  rw [hfile.declarations, hadded, hname, ← List.append_assoc]

namespace Fleet

def moorParameters : List Parameter := [
  { name := "range", location := .query, type := some .string },
  { name := "berth_id", location := .path, type := some .integer },
  { name := "manifest", location := .body, schema := some {
      properties := [("tons", { types := some (.single .number) })] } }]

/-- An operation with a parameter that is called like a keyword. -/
def moor : Operation :=
  { parameters := moorParameters.map .inline
    responses := [("200", {}), ("409", {})] }

end Fleet

open Fleet in
theorem moor_hygienic :
    ∃ draft' m, emitOperation document "/berths/\x7bberth_id\x7d" .put {} moor empty =
        (.ok (), draft') ∧
      (m.name, .method m) ∈ draft'.file.declarations ∧ Hygienic m := by
  have hok : (emitOperation document "/berths/\x7bberth_id\x7d" .put {} moor empty).1 =
      .ok () := by
    decide +kernel
  obtain ⟨draft', hrun⟩ := exists_draft hok
  have hparameters : document.operationParameters {} moor = .ok moorParameters := rfl
  have hapart : (spellings "/berths/\x7bberth_id\x7d" moorParameters).Nodup ∧
      ∀ x ∈ spellings "/berths/\x7bberth_id\x7d" moorParameters,
        x ∉ neededNames "/berths/\x7bberth_id\x7d" moorParameters moor := by
    decide +kernel
  obtain ⟨types, m, hdeclarations, -, -, hiff⟩ := emitOperation_hygienic document
    "/berths/\x7bberth_id\x7d" .put {} moor hparameters hrun
  refine ⟨draft', m, hrun, ?_, hiff.mpr hapart⟩
  rw [hdeclarations]
  exact List.mem_append_right _ (List.mem_singleton_self _)

namespace Captured

/-- The query has a parameter that is spelt like the variable of the response. -/
def look : Operation :=
  { parameters := [.inline
      { name := "res200", location := .query, type := some .string, required := true }]
    responses := [("200", {})] }

def lookMethod : MethodDeclaration :=
  { name := "ListX"
    description := none
    deprecated := false
    method := .get
    url := [.literal "x"]
    arguments := [⟨"res200", .string⟩]
    query := [⟨"res200", "res200", false, .identity⟩]
    hasBody := false
    arms := [⟨200, "ListXRes"⟩] }

end Captured

/-- An argument and a result of one method are called alike. -/
theorem argument_called_like_result :
    ∃ draft' m, emitOperation Fleet.document "/x" .get {} Captured.look Fleet.empty =
        (.ok (), draft') ∧
      ("ListX", .method m) ∈ draft'.file.declarations ∧
      m.arguments.map Argument.identifier = ["res200"] ∧
      m.results.map Arm.identifier = ["res200"] ∧ ¬ Hygienic m := by
  have hmethod : (emitOperation Fleet.document "/x" .get {} Captured.look Fleet.empty).1 = .ok () ∧
      ("ListX", .method Captured.lookMethod) ∈ (emitOperation Fleet.document "/x" .get {}
        Captured.look Fleet.empty).2.file.declarations := by
    decide +kernel
  obtain ⟨draft', hrun⟩ := exists_draft hmethod.1
  rw [hrun] at hmethod
  refine ⟨draft', Captured.lookMethod, hrun, hmethod.2, rfl, rfl, fun hm => ?_⟩
  exact absurd hm.distinct (by decide)

end ApiContract.GoClient
