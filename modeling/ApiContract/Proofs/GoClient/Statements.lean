import ApiContract.Proofs.GoClient.FreeText
import ApiContract.Proofs.GoClient.Headings

namespace ApiContract.GoClient

/-- A statement that decides what a method returns: a case of its switch or a return. -/
inductive Statement where
  | case (label : String)
  | returns (values : List String)
deriving DecidableEq

/-- The values of a list with commas between them. -/
def listed (cs : List Char) : List String :=
  (Text.pieces (· = ',') cs).map fun value => String.ofList (value.dropWhile (· = ' '))

/-- The statement that a line holds, wherever it is indented to. -/
def Statement.ofLine? (line : String) : Option Statement :=
  let code := line.toList.dropWhile (· = '\t')
  match Text.dropStart? "case ".toList code with
  | some label => some (.case (String.ofList label))
  | none => (Text.dropStart? "return ".toList code).map fun values => .returns (listed values)

def statements (lines : List String) : List Statement := lines.filterMap Statement.ofLine?

/-- Two texts differ before one of them ends. -/
def diverges : List Char → List Char → Bool
  | c :: cs, e :: es => c ≠ e || diverges cs es
  | _, _ => false

theorem dropStart?_of_diverges {p cs : List Char} (h : diverges p cs) (rest : List Char) :
    Text.dropStart? p (cs ++ rest) = none := by
  fun_induction diverges p cs with
  | case1 c cs e es ih =>
    rw [List.cons_append, Text.dropStart?]
    split
    · exact ih (by simp_all)
    · rfl
  | case2 => cases h

/-- A line starts otherwise than a case or a return. -/
def Neutral (line : String) : Prop :=
  ∃ start rest, line.toList = start ++ rest ∧
    diverges "case ".toList (start.dropWhile (· = '\t')) ∧
    diverges "return ".toList (start.dropWhile (· = '\t'))

theorem neutral_ofList (start : List Char)
    (h : diverges "case ".toList (start.dropWhile (· = '\t')) ∧
      diverges "return ".toList (start.dropWhile (· = '\t'))) : Neutral (String.ofList start) :=
  ⟨start, [], by simp, h⟩

theorem Neutral.append {line : String} (h : Neutral line) (more : String) :
    Neutral (line ++ more) := by
  obtain ⟨start, rest, hline, h⟩ := h
  exact ⟨start, rest ++ more.toList, by simp [hline], h⟩

theorem Neutral.indented {indent line : String} (h : Neutral line)
    (ht : indent.toList.all (· = '\t')) : Neutral (indent ++ line) := by
  obtain ⟨start, rest, hline, h⟩ := h
  have hdrop : (indent.toList ++ start).dropWhile (· = '\t') = start.dropWhile (· = '\t') :=
    List.dropWhile_append_of_pos (by simpa using ht)
  exact ⟨indent.toList ++ start, rest, by simp [hline], by rwa [hdrop]⟩

theorem Neutral.ofLine?_eq_none {line : String} (h : Neutral line) :
    Statement.ofLine? line = none := by
  obtain ⟨start, rest, hline, hcase, hreturn⟩ := h
  have hne : (start.dropWhile (· = '\t')).isEmpty = false := by
    cases hs : start.dropWhile (· = '\t') with
    | nil => simp [hs, diverges] at hcase
    | cons c cs => rfl
  have hdrop : (start ++ rest).dropWhile (· = '\t') = start.dropWhile (· = '\t') ++ rest := by
    rw [List.dropWhile_append, hne]
    rfl
  simp only [Statement.ofLine?, hline, hdrop, dropStart?_of_diverges hcase,
    dropStart?_of_diverges hreturn, Option.map_none]

theorem Neutral.statements_cons {line : String} (h : Neutral line) (rest : List String) :
    statements (line :: rest) = statements rest := by
  rw [statements, List.filterMap_cons_none h.ofLine?_eq_none, statements]

theorem statements_append (first second : List String) :
    statements (first ++ second) = statements first ++ statements second :=
  List.filterMap_append

theorem statements_return {line : String} {values : List Char}
    (h : line.toList.dropWhile (· = '\t') = "return ".toList ++ values) (rest : List String) :
    statements (line :: rest) = .returns (listed values) :: statements rest := by
  have hcase : Text.dropStart? "case ".toList ("return ".toList ++ values) = none :=
    dropStart?_of_diverges rfl values
  have hline : Statement.ofLine? line = some (.returns (listed values)) := by
    simp only [Statement.ofLine?, h, Text.dropStart?_append, hcase, Option.map_some]
  rw [statements, List.filterMap_cons_some hline, statements]

theorem statements_case (label : String) (rest : List String) :
    statements (("\tcase " ++ label) :: rest) = .case label :: statements rest := by
  have hcode : ("\tcase " ++ label).toList.dropWhile (· = '\t') =
      "case ".toList ++ label.toList := by simp
  have hline : Statement.ofLine? ("\tcase " ++ label) = some (.case label) := by
    simp only [Statement.ofLine?, hcode, Text.dropStart?_append, String.ofList_toList]
  rw [statements, List.filterMap_cons_some hline, statements]

theorem listed_blank (cs : List Char) : listed (' ' :: cs) = listed cs := by
  unfold listed
  rw [Text.pieces, if_neg (by decide)]
  cases h : Text.pieces (· = ',') cs with
  | nil => exact absurd h (Text.pieces_ne_nil _ cs)
  | cons piece rest => simp

theorem listed_comma (first rest : List Char) :
    listed (first ++ ',' :: rest) = listed first ++ listed rest := by
  unfold listed
  rw [Text.pieces_append first rest (by decide), List.map_append]

/-- A value has no comma in it and no blank before it. -/
def Bare (value : String) : Prop := ',' ∉ value.toList ∧ value.toList.head? ≠ some ' '

theorem listed_bare {value : String} (h : Bare value) : listed value.toList = [value] := by
  obtain ⟨hcomma, hblank⟩ := h
  have hpieces : Text.pieces (· = ',') value.toList = [value.toList] := by
    apply Text.pieces_of_not_separates
    intro c hc
    exact decide_eq_false fun he => hcomma (he ▸ hc)
  have hdrop : value.toList.dropWhile (· = ' ') = value.toList := by
    cases hv : value.toList with
    | nil => rfl
    | cons c cs =>
      rw [hv] at hblank
      rw [List.dropWhile_cons_of_neg]
      simpa using hblank
  rw [listed, hpieces, List.map_singleton, hdrop, String.ofList_toList]

/-- A list is read back value by value. -/
theorem listed_intercalate {values : List String} (hne : values ≠ [])
    (h : ∀ v ∈ values, Bare v) : listed (", ".intercalate values).toList = values := by
  have hseparator : ", ".toList = [',', ' '] := rfl
  rw [String.toList_intercalate, hseparator]
  induction values with
  | nil => exact absurd rfl hne
  | cons value rest ih =>
    obtain ⟨hvalue, hrest⟩ := List.forall_mem_cons.mp h
    cases rest with
    | nil => simpa using listed_bare hvalue
    | cons next rest =>
      rw [List.map_cons, List.map_cons, List.intercalate_cons_cons, List.append_assoc,
        List.cons_append, List.singleton_append, listed_comma, listed_blank, listed_bare hvalue,
        ← List.map_cons, ih nofun hrest, List.singleton_append]

theorem statements_commentLines (description : Option String) :
    statements (commentLines description) = [] := by
  cases description with
  | none => rfl
  | some text =>
    unfold commentLines
    dsimp only
    split
    · rfl
    · rcases comment_eq text with he | ⟨rest, he⟩
      · rw [he]
        rfl
      · have hneutral : Neutral (String.ofList ('/' :: rest)) :=
          ⟨['/'], rest, String.toList_ofList, by decide⟩
        rw [he, hneutral.statements_cons]
        rfl

section Method

variable (m : MethodDeclaration)

/-- What a method returns on an error that comes before the response. -/
def MethodDeclaration.early : Statement := .returns (m.results.map (fun _ => "nil") ++ ["err"])

/-- What a method returns at its end. -/
def MethodDeclaration.last : Statement := .returns (m.results.map Arm.identifier ++ ["err"])

theorem listed_errorReturn :
    listed m.errorReturn.toList = m.results.map (fun _ => "nil") ++ ["err"] := by
  apply listed_intercalate
  · simp
  · intro v hv
    have hv : v = "nil" ∨ v = "err" := by
      simp at hv
      grind
    rcases hv with rfl | rfl <;> exact ⟨by decide, by decide⟩

theorem bare_identifier (a : Arm) : Bare a.identifier := by
  have hidentifier : a.identifier.toList = 'r' :: 'e' :: 's' :: Nat.toDigits 10 a.code := by
    simp [Arm.identifier]
  have hdigits : ',' ∉ Nat.toDigits 10 a.code := fun hc =>
    absurd (Nat.isDigit_of_mem_toDigits (by decide) (by decide) hc) (by decide)
  rw [Bare, hidentifier]
  simpa using hdigits

theorem listed_finalReturn :
    listed m.finalReturn.toList = m.results.map Arm.identifier ++ ["err"] := by
  apply listed_intercalate
  · simp
  · intro v hv
    rcases List.mem_append.mp hv with hv | hv
    · obtain ⟨a, -, rfl⟩ := List.mem_map.mp hv
      exact bare_identifier a
    · obtain rfl := List.mem_singleton.mp hv
      exact ⟨by decide, by decide⟩

theorem statements_fail : statements m.failLines = [m.early] := by
  have hreturn : ("\t\treturn " ++ m.errorReturn).toList.dropWhile (· = '\t') =
      "return ".toList ++ m.errorReturn.toList := by simp
  unfold MethodDeclaration.failLines MethodDeclaration.early
  rw [(neutral_ofList _ (by decide)).statements_cons, statements_return hreturn,
    (neutral_ofList _ (by decide)).statements_cons, listed_errorReturn]
  rfl

theorem statements_deprecation : statements m.deprecationLines = [] := by
  have hlast : Neutral ("// Deprecated: " ++ m.name ++ " is deprecated by the API.") :=
    ((neutral_ofList _ (by decide)).append _).append _
  unfold MethodDeclaration.deprecationLines
  split
  · rw [statements_append, hlast.statements_cons]
    split <;> rfl
  · rfl

theorem statements_query : statements m.queryLines = [] := by
  have hitem : ∀ q : QueryItem, statements q.lines = [] := by
    intro q
    have hsetter : Neutral q.setter :=
      ((((neutral_ofList _ (by decide)).append _).append _).append _).append _
    unfold QueryItem.lines
    split
    · rw [(((neutral_ofList _ (by decide)).append _).append _).statements_cons,
        (hsetter.indented rfl).statements_cons,
        (neutral_ofList _ (by decide)).statements_cons]
      rfl
    · exact (hsetter.indented rfl).statements_cons []
  have hitems : statements (m.query.flatMap QueryItem.lines) = [] := by
    rw [statements, List.filterMap_flatMap]
    exact List.flatMap_eq_nil_iff.mpr fun q _ => hitem q
  unfold MethodDeclaration.queryLines
  split
  · rfl
  · rw [statements_append, statements_append, hitems,
      (neutral_ofList _ (by decide)).statements_cons,
      (neutral_ofList _ (by decide)).statements_cons]
    rfl

theorem statements_request :
    statements m.requestLines = if m.hasBody then [m.early] else [] := by
  have hrequest : ∀ body, Neutral (m.requestLine body) := fun _ =>
    ((((neutral_ofList _ (by decide)).append _).append _).append _).append _
  have hreturn : ("\t\t\treturn " ++ m.errorReturn).toList.dropWhile (· = '\t') =
      "return ".toList ++ m.errorReturn.toList := by simp
  unfold MethodDeclaration.requestLines MethodDeclaration.early
  split
  · repeat rw [(neutral_ofList _ (by decide)).statements_cons]
    rw [statements_return hreturn, listed_errorReturn]
    repeat rw [(neutral_ofList _ (by decide)).statements_cons]
    rw [(hrequest _).statements_cons]
    rfl
  · exact (hrequest _).statements_cons []

theorem statements_arm (a : Arm) : statements a.lines = [.case (toString a.code ++ ":")] := by
  have hidentifier : Neutral a.identifier := (neutral_ofList _ (by decide)).append _
  have hdecode : Neutral ("\t\terr = json.NewDecoder(res.Body).Decode(" ++ a.identifier ++ ")") :=
    ((neutral_ofList _ (by decide)).append _).append _
  unfold Arm.lines
  rw [String.append_assoc, statements_case]
  split
  · rw [((((hidentifier.indented rfl).append _).append _).append _).statements_cons,
      hdecode.statements_cons]
    rfl
  · rw [((((hidentifier.indented rfl).append _).append _).append _).statements_cons,
      hdecode.statements_cons, (neutral_ofList _ (by decide)).statements_cons,
      ((neutral_ofList _ (by decide)).append _).statements_cons,
      (neutral_ofList _ (by decide)).statements_cons]
    rfl

theorem statements_otherwise : statements MethodDeclaration.otherwiseLines = [] := by
  unfold MethodDeclaration.otherwiseLines
  repeat rw [(neutral_ofList _ (by decide)).statements_cons]
  rfl

/-- The statements of a method: it returns early, switches and returns. -/
theorem statements_method :
    statements m.lines = List.replicate (if m.hasBody then 4 else 3) m.early ++
      m.arms.map (fun a => .case (toString a.code ++ ":")) ++ [m.last] := by
  have harms : statements (m.arms.flatMap Arm.lines) =
      m.arms.map fun a => .case (toString a.code ++ ":") := by
    rw [statements, List.filterMap_flatMap, List.map_eq_flatMap]
    exact List.flatMap_congr fun a _ => statements_arm a
  have hhead : Neutral ("func (cl *Client) " ++ m.name ++ "(" ++ m.argumentsText ++ ") (" ++
      m.resultsText ++ ") \x7b") :=
    ((((((neutral_ofList _ (by decide)).append _).append _).append _).append _).append _).append _
  have hurl : Neutral ("\tu, err := cl.baseURL.Parse(" ++ m.urlText ++ ")") :=
    ((neutral_ofList _ (by decide)).append _).append _
  have hblank : ∀ rest, statements ("" :: rest) = statements rest := fun _ => rfl
  have hreturn : ("\treturn " ++ m.finalReturn).toList.dropWhile (· = '\t') =
      "return ".toList ++ m.finalReturn.toList := by simp
  unfold MethodDeclaration.lines
  simp only [statements_append, statements_commentLines, statements_deprecation, statements_fail,
    statements_query, statements_request, harms, statements_otherwise]
  rw [hhead.statements_cons, hurl.statements_cons]
  repeat rw [(neutral_ofList _ (by decide)).statements_cons]
  rw [hblank]
  repeat rw [(neutral_ofList _ (by decide)).statements_cons]
  rw [hblank]
  repeat rw [(neutral_ofList _ (by decide)).statements_cons]
  rw [statements_return hreturn, listed_finalReturn,
    (neutral_ofList _ (by decide)).statements_cons]
  split <;> simp [statements, MethodDeclaration.last]

end Method

end ApiContract.GoClient
