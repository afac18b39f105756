import ApiContract.Proofs.GoClient.Statements
import Mathlib.Data.List.Nodup
import Mathlib.Data.List.Pairwise

namespace ApiContract

namespace Operation

/-- The number of keys that denote a success. -/
def successes (op : Operation) : Nat := op.codes.countP isSuccess

end Operation

namespace GoClient

open Emit Naming

/-- The text of a case label. -/
def Statement.label? : Statement → Option String
  | .case label => some label
  | .returns _ => none

/-- The responses of an operation agree with what stands in a file and in its method: cases, types,
results and returns. -/
structure ResponsesAgree (op : Operation) (declarations : Members Declaration)
    (m : MethodDeclaration) : Prop where
  codes_perm : (m.arms.map Arm.code).Perm op.codes
  codes_ascend : (m.arms.map Arm.code).Pairwise (· < ·)
  cases : (statements m.lines).filterMap Statement.label? =
    m.arms.map fun a => toString a.code ++ ":"
  named : ∀ a ∈ m.arms, a.typeName =
    m.name ++ "Res" ++ if isSuccess a.code ∧ op.successes = 1 then "" else toString a.code
  named_apart : (m.arms.map Arm.typeName).Nodup
  declared : ∀ a ∈ m.arms, ∃ key r, (key, r) ∈ op.responses ∧ statusCode? key = some a.code ∧
    declarations.filter (·.1 = a.typeName) =
      [(a.typeName, if isSuccess a.code then successDeclaration a.typeName r.schema
        else failureDeclaration a.typeName r.schema)]
  used : ∀ a ∈ m.arms, ["\tcase " ++ toString a.code ++ ":",
    "\t\t" ++ ("res" ++ toString a.code) ++ (if isSuccess a.code then " = new(" else " := new(") ++
      a.typeName ++ ")"] <:+: m.lines
  results : ∃ arguments, "func (cl *Client) " ++ m.name ++ "(" ++ arguments ++ ") (" ++
    ", ".intercalate ((m.arms.filter fun a => isSuccess a.code).map
      (fun a => "res" ++ toString a.code ++ " *" ++ a.typeName) ++ ["err error"]) ++
    ") \x7b" ∈ m.lines
  results_count : (m.arms.filter fun a => isSuccess a.code).length = op.successes
  returns : ∀ values, .returns values ∈ statements m.lines → values.length = op.successes + 1
  failures : ∀ a ∈ m.arms, ¬ isSuccess a.code →
    (∃ s, (a.typeName, .struct s) ∈ declarations ∧ s.embedsError ∧ "\t*ErrorResponse" ∈ s.lines) ∧
      ∀ b ∈ m.arms, isSuccess b.code → b.typeName ≠ a.typeName

variable {d : Document} {path : String} {method : Method} {item : PathItem} {op : Operation}
  {added : Members Declaration} {before after : File Declaration} {m : MethodDeclaration}
  {declarations : Members Declaration}

theorem successesOf_eq (op : Operation) : successesOf op = op.successes := by
  have h := op.map_statusCodes_perm.countP_eq isSuccess
  rw [List.countP_map] at h
  exact h

/-- The cases of a method are those of its arms. -/
theorem labels_method (m : MethodDeclaration) :
    (statements m.lines).filterMap Statement.label? =
      m.arms.map fun a => toString a.code ++ ":" := by
  have hearly : ∀ n, (List.replicate n m.early).filterMap Statement.label? = [] := by
    intro n
    induction n with
    | zero => rfl
    | succ n ih => exact ih
  have hcases : ∀ arms : List Arm,
      (arms.map fun a => Statement.case (toString a.code ++ ":")).filterMap Statement.label? =
        arms.map fun a => toString a.code ++ ":" := by
    intro arms
    rw [List.filterMap_map, ← List.filterMap_eq_map]
    rfl
  rw [statements_method, List.filterMap_append, List.filterMap_append, hearly, hcases]
  exact List.append_nil _

theorem length_of_returns {values : List String}
    (h : .returns values ∈ statements m.lines) : values.length = m.results.length + 1 := by
  rw [statements_method] at h
  simp only [List.mem_append, List.mem_replicate, List.mem_map, List.mem_singleton] at h
  rcases h with (⟨-, h⟩ | ⟨a, -, h⟩) | h
  · cases h
    simp
  · cases h
  · cases h
    simp

theorem infix_lines_of_mem {a : Arm} (ha : a ∈ m.arms) : a.lines <:+: m.lines := by
  have harms : a.lines <:+: m.arms.flatMap Arm.lines := by
    obtain ⟨front, rest, hsplit⟩ := List.append_of_mem ha
    refine ⟨front.flatMap Arm.lines, rest.flatMap Arm.lines, ?_⟩
    rw [hsplit, List.flatMap_append, List.flatMap_cons, List.append_assoc]
  have hlines : m.arms.flatMap Arm.lines <:+: m.lines := ⟨_, _, (List.append_assoc ..).symm⟩
  exact harms.trans hlines

/-- The name of the type of a response is declared with it, among others. -/
theorem typeNames_sublist (operation : String) (successes : Nat)
    (responses : List (Nat × Response)) :
    ((responses.map (armOf operation successes)).map Arm.typeName).Sublist
      (Members.names (responses.flatMap (responseTypes operation successes))) := by
  induction responses with
  | nil => exact .slnil
  | cons q rest ih =>
    have hnames : Members.names ((q :: rest).flatMap (responseTypes operation successes)) =
        (responseTypes operation successes q).names ++
          Members.names (rest.flatMap (responseTypes operation successes)) := by
      simp [Members.names]
    have hlast : [(armOf operation successes q).typeName].Sublist
        (responseTypes operation successes q).names := by
      simp [responseTypes, Members.names, armOf]
    rw [hnames]
    exact hlast.append ih

/-- What is added under a name that was free is all that the name is declared as. -/
theorem filter_added (hroom : before.HasRoom added) {p : String × Declaration} (hp : p ∈ added) :
    (before.declarations ++ added).filter (·.1 = p.1) = [p] := by
  have hbefore : before.declarations.filter (·.1 = p.1) = [] := by
    apply List.filter_eq_nil_iff.mpr
    intro q hq hname
    have hname : q.1 = p.1 := by simpa using hname
    exact hroom.2 p.1 (List.mem_map_of_mem hp) (hname ▸ List.mem_map_of_mem hq)
  rw [List.filter_append, hbefore, List.nil_append]
  exact Members.filter_eq_singleton hroom.1 hp (by simp) (by simp)

/-- The type of a failure embeds the common error type. -/
theorem failureDeclaration_embeds (name : String) (s : Option Schema) :
    ∃ t, failureDeclaration name s = .struct t ∧ t.embedsError ∧ "\t*ErrorResponse" ∈ t.lines := by
  have hlines : ∀ t : StructDeclaration, t.embedsError → "\t*ErrorResponse" ∈ t.lines := by
    intro t ht
    simp [StructDeclaration.lines, ht]
  have hembeds : ∀ t : StructDeclaration, t.embedsError →
      ∃ u, Declaration.struct t = .struct u ∧ u.embedsError ∧ "\t*ErrorResponse" ∈ u.lines :=
    fun t ht => ⟨t, rfl, ht, hlines t ht⟩
  cases s with
  | none => exact hembeds _ rfl
  | some s =>
    rw [failureDeclaration]
    apply hembeds
    split <;> rfl

theorem OperationDeclared.exists_method {name : String}
    (h : OperationDeclared d path method item op added)
    (hname : name = operationName op.identifier method.name path) :
    ∃ request m, added = request ++ responsesTypes name op ++ [(name, .method m)] ∧
      m.name = name ∧ m.arms = op.statusCodes.map (armOf name (successesOf op)) := by
  cases h with
  | intro other hother =>
    obtain rfl := hname.trans hother.symm
    exact ⟨_, _, rfl, rfl, rfl⟩

/-- The case of an arm makes a value of the type of the arm. -/
theorem case_of_mem {a : Arm} (ha : a ∈ m.arms) :
    ["\tcase " ++ toString a.code ++ ":",
      "\t\t" ++ ("res" ++ toString a.code) ++
        (if isSuccess a.code then " = new(" else " := new(") ++ a.typeName ++ ")"] <:+:
      m.lines := by
  have hprefix : ["\tcase " ++ toString a.code ++ ":",
      "\t\t" ++ ("res" ++ toString a.code) ++
        (if isSuccess a.code then " = new(" else " := new(") ++ a.typeName ++ ")"] <+: a.lines := by
    unfold Arm.lines Arm.success
    split
    · exact ⟨_, rfl⟩
    · exact ⟨_, rfl⟩
  exact hprefix.isInfix.trans (infix_lines_of_mem ha)

section Arms

variable (harms : m.arms = op.statusCodes.map (armOf m.name (successesOf op))) {a : Arm}
  (ha : a ∈ m.arms)
include harms ha

theorem typeName_of_mem : a.typeName =
    m.name ++ "Res" ++ if isSuccess a.code ∧ op.successes = 1 then "" else toString a.code := by
  rw [harms] at ha
  obtain ⟨q, -, rfl⟩ := List.mem_map.mp ha
  rw [← successesOf_eq]
  unfold armOf responseTypeName
  split <;> simp

theorem declared_of_mem
    (hadded : ∀ p ∈ responsesTypes m.name op, declarations.filter (·.1 = p.1) = [p]) :
    ∃ key r, (key, r) ∈ op.responses ∧ statusCode? key = some a.code ∧
      declarations.filter (·.1 = a.typeName) =
        [(a.typeName, if isSuccess a.code then successDeclaration a.typeName r.schema
          else failureDeclaration a.typeName r.schema)] := by
  rw [harms] at ha
  obtain ⟨q, hq, rfl⟩ := List.mem_map.mp ha
  obtain ⟨key, hkey, hcode⟩ := Operation.mem_statusCodes.mp hq
  refine ⟨key, q.2, hkey, hcode, ?_⟩
  apply hadded (_, _)
  exact List.mem_flatMap.mpr ⟨q, hq, List.mem_append_right _ (List.mem_singleton_self _)⟩

end Arms

theorem responsesAgree_of_declared
    (harms : m.arms = op.statusCodes.map (armOf m.name (successesOf op)))
    (hadded : ∀ p ∈ responsesTypes m.name op, declarations.filter (·.1 = p.1) = [p])
    (hnames : (responsesTypes m.name op).names.Nodup) : ResponsesAgree op declarations m := by
  have hcodes : m.arms.map Arm.code = op.statusCodes.map Prod.fst := by
    rw [harms, List.map_map]
    rfl
  have hperm : (m.arms.map Arm.code).Perm op.codes := hcodes ▸ op.map_statusCodes_perm
  have hapart : (m.arms.map Arm.typeName).Nodup := by
    rw [harms]
    exact (typeNames_sublist ..).nodup hnames
  have hcount : m.results.length = op.successes := by
    have h := hperm.countP_eq isSuccess
    rw [List.countP_map] at h
    rw [MethodDeclaration.results, ← List.countP_eq_length_filter]
    exact h
  constructor
  case codes_perm => exact hperm
  case codes_ascend =>
    rw [hcodes]
    exact List.pairwise_map.mpr (Operation.ascending_of_nodup (codes_nodup_of_names hnames))
  case cases => exact labels_method m
  case named => exact fun a ha => typeName_of_mem harms ha
  case named_apart => exact hapart
  case declared => exact fun a ha => declared_of_mem harms ha hadded
  case used => exact fun a ha => case_of_mem ha
  case results => exact ⟨m.argumentsText, signature_mem_lines m⟩
  case results_count => exact hcount
  case returns =>
    intro values hv
    rw [length_of_returns hv, hcount]
  case failures =>
    intro a ha hfailure
    constructor
    · obtain ⟨key, r, -, -, hfilter⟩ := declared_of_mem harms ha hadded
      rw [if_neg hfailure] at hfilter
      obtain ⟨s, hs, hembeds⟩ := failureDeclaration_embeds a.typeName r.schema
      refine ⟨s, ?_, hembeds⟩
      have hmem := List.mem_singleton_self (a.typeName, failureDeclaration a.typeName r.schema)
      rw [← hfilter, hs] at hmem
      exact (List.mem_filter.mp hmem).1
    · intro b hb hsuccess hsame
      obtain rfl := List.inj_on_of_nodup_map hapart hb ha hsame
      exact hfailure hsuccess

/-- When an operation is emitted, its method and the types of its responses agree with the status
codes of the document. When two keys of responses denote one code it is not emitted. -/
theorem emitOperation_responses (d : Document) (path : String) (method : Method) (item : PathItem)
    (op : Operation) (draft : Draft) :
    (∀ draft', emitOperation d path method item op draft = (.ok (), draft') →
      ∃ types m, draft'.file.declarations =
          draft.file.declarations ++ types ++ [(m.name, .method m)] ∧
        m.name = operationName op.identifier method.name path ∧
        ResponsesAgree op draft'.file.declarations m) ∧
    ∀ key ∈ op.responses.names, ∀ other ∈ op.responses.names, key ≠ other →
      ∀ code, statusCode? key = some code → statusCode? other = some code →
        ∃ fault, (emitOperation d path method item op draft).1 = .error fault := by
  constructor
  · intro draft' h
    obtain ⟨added, hfile, hop⟩ := ensures_emitOperation d path method item op draft () draft' h
    obtain ⟨request, m, hadded, hname, harms⟩ := hop.exists_method rfl
    rw [← hname] at hadded harms
    refine ⟨request ++ responsesTypes m.name op, m, ?_, hname, ?_⟩
    · rw [hfile.declarations, hadded, ← List.append_assoc]
    · apply responsesAgree_of_declared harms
      · intro p hp
        rw [hfile.declarations]
        apply filter_added hfile.room
        simp [hadded, hp]
      · have hnames := hfile.room.1
        rw [hadded, Members.names, List.map_append, List.map_append, List.append_assoc] at hnames
        exact (List.nodup_append.mp (List.nodup_append.mp hnames).2.1).1
  · intro key hkey other hother hne code hcode hsame
    cases hm : emitOperation d path method item op draft with
    | mk result draft' =>
    cases result with
    | error fault => exact ⟨fault, rfl⟩
    | ok =>
      obtain ⟨added, hfile, hop⟩ := ensures_emitOperation d path method item op draft () draft' hm
      have hnodup := op.map_statusCodes_perm.nodup_iff.mp (hop.codes_nodup hfile.room.1)
      exact absurd hnodup (Operation.not_nodup_codes hkey hother hne hcode hsame)

namespace Fleet

def vessels : PathItem := { get := some list, post := some create }

/-- One code under two keys. -/
def echo : Operation := { responses := [("200", {}), ("+200", {}), ("default", {})] }

end Fleet

open Fleet in
/-- Two of the three responses of the list of vessels are successes and have numbers in the names of
their types. An operation with the keys 200 and +200 is not emitted. -/
theorem vessels_responses :
    (∃ draft' m,
      emitOperation document "/vessels" .get vessels list empty = (.ok (), draft') ∧
      list.codes = [400, 206, 200] ∧ list.successes = 2 ∧
      ResponsesAgree list draft'.file.declarations m) ∧
    ∃ fault, (emitOperation document "/echo" .get {} echo empty).1 = .error fault := by
  obtain ⟨hagree, -⟩ := emitOperation_responses document "/vessels" .get vessels list empty
  obtain ⟨-, hfails⟩ := emitOperation_responses document "/echo" .get {} echo empty
  constructor
  · have hok : (emitOperation document "/vessels" .get vessels list empty).1 = .ok () := by
      decide +kernel
    obtain ⟨draft', hrun⟩ := exists_draft hok
    obtain ⟨types, m, -, -, hm⟩ := hagree draft' hrun
    exact ⟨draft', m, hrun, by decide, by decide, hm⟩
  · have hcodes : statusCode? "200" = some 200 ∧ statusCode? "+200" = some 200 := by decide
    exact hfails "200" (by decide) "+200" (by decide) (by decide) 200 hcodes.1 hcodes.2

end GoClient

end ApiContract
