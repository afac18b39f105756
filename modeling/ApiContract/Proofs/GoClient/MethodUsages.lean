import ApiContract.Proofs.GoClient.Usages

namespace ApiContract.GoClient

open Reader

/-- What is done when an operand becomes text. -/
def Conversion.usages (operand : List Usage) : Conversion → List Usage
  | .identity => operand
  | .decimalFloat | .decimalInteger | .truthValue => .qualifies "strconv" :: operand
  | .truncatedFloat => .qualifies "strconv" :: .builtin "int64" :: operand

def UrlPart.usages : UrlPart → List Usage
  | .literal _ => []
  | .argument identifier conversion => conversion.usages (nameUsages identifier)

def QueryItem.usages (q : QueryItem) : List Usage :=
  .qualifies "q" :: q.conversion.usages (nameUsages q.identifier) ++
    if q.optional then .builtin "nil" :: nameUsages q.identifier else []

def Arm.usages (a : Arm) : List Usage :=
  .qualifies "json" :: .qualifies "res" :: .builtin "new" :: nameUsages a.typeName ++
    if a.success then [] else [.builtin "nil", .declares a.identifier]

/-- The type that a type expression mentions has no signs in its name. -/
def SpeltType (t : GoType) : Prop := ∀ n ∈ t.mentioned, Spelt n

namespace MethodDeclaration

/-- The names that come from the document have no signs in them. -/
structure Spelt (m : MethodDeclaration) : Prop where
  name : GoClient.Spelt m.name
  arguments : ∀ a ∈ m.arguments, GoClient.Spelt a.identifier ∧ SpeltType a.type
  url : ∀ x conversion, .argument x conversion ∈ m.url → GoClient.Spelt x
  query : ∀ q ∈ m.query, GoClient.Spelt q.identifier
  arms : ∀ a ∈ m.arms, GoClient.Spelt a.typeName

/-- The names that the signature of a method binds: the receiver, the arguments and the results. -/
def signature (m : MethodDeclaration) : List String :=
  "cl" :: "ctx" :: (m.arguments.map Argument.identifier ++ m.results.map Arm.identifier ++ ["err"])

/-- The comment before a method. -/
def docs (m : MethodDeclaration) : List String := commentLines m.description ++ m.deprecationLines

def heading (m : MethodDeclaration) : String :=
  "func (cl *Client) " ++ m.name ++ "(" ++ m.argumentsText ++ ") (" ++ m.resultsText ++ ") \x7b"

/-- The lines behind the heading. -/
def body (m : MethodDeclaration) : List String :=
  ["\tu, err := cl.baseURL.Parse(" ++ m.urlText ++ ")"] ++ m.failLines ++ m.queryLines ++
    m.requestLines ++ m.failLines ++
    ["\tr.Header.Set(\"Content-Type\", \"application/json\")",
      "\tr.Header.Set(\"Accept\", \"application/json\")", "",
      "\tres, err := cl.httpClient.Do(r)"] ++ m.failLines ++
    ["\tdefer res.Body.Close()", "", "\tswitch res.StatusCode \x7b"] ++
    m.arms.flatMap Arm.lines ++ otherwiseLines ++
    ["\tif errors.Is(err, io.EOF) \x7b", "\t\terr = nil", "\t\x7d"] ++
    ["\treturn " ++ m.finalReturn] ++ ["\x7d"]

theorem lines_eq (m : MethodDeclaration) : m.lines = m.docs ++ m.heading :: m.body := by
  unfold lines docs heading body
  simp only [List.append_assoc, List.cons_append, List.nil_append]

/-- What is done for a query, if there is one. -/
def queryUsages (m : MethodDeclaration) : List Usage :=
  if m.query.isEmpty then []
  else .declares "q" :: .qualifies "u" :: .qualifies "q" :: m.query.flatMap QueryItem.usages

def requestUsages (m : MethodDeclaration) : List Usage :=
  .declares "r" :: .declares "err" :: .qualifies "http" :: .qualifies "u" :: .builtin "nil" ::
    if m.hasBody then
      [.declares "body", .declares "buf", .qualifies "io", .qualifies "bytes", .qualifies "json",
        .builtin "new"]
    else []

/-- What is done before the cases. -/
def exchangeUsages : List Usage :=
  [.qualifies "r", .qualifies "cl", .qualifies "res", .declares "res", .declares "err",
    .builtin "nil"]

/-- What is done behind the cases. -/
def closingUsages : List Usage :=
  [.qualifies "json", .qualifies "res", .qualifies "fmt", .qualifies "errors", .qualifies "io",
    .builtin "nil", .declares "errBody"]

/-- What the body of a method does with names. -/
def usages (m : MethodDeclaration) : List Usage :=
  [.qualifies "cl", .declares "u", .declares "err", .builtin "nil"] ++
    m.url.flatMap UrlPart.usages ++ m.queryUsages ++ m.requestUsages ++ exchangeUsages ++
      m.arms.flatMap Arm.usages ++ closingUsages

end MethodDeclaration

variable {m : MethodDeclaration} {cs : List Char} {us : List Usage}

theorem spelt_ascii {name : String} (h : name.toList.all Char.isAlphanum) : Spelt name := by
  intro c hc
  simp [isWordPart, Text.isWordCharacter, List.all_eq_true.mp h c hc]

theorem identifier_toList (a : Arm) :
    a.identifier.toList = 'r' :: 'e' :: 's' :: Nat.toDigits 10 a.code := by
  simp [Arm.identifier]

theorem spelt_identifier (a : Arm) : Spelt a.identifier := by
  apply spelt_ascii
  rw [identifier_toList, List.all_cons, List.all_cons, List.all_cons]
  simp only [Bool.and_eq_true, List.all_eq_true]
  refine ⟨rfl, rfl, rfl, fun c hc => ?_⟩
  have hdigit := Nat.isDigit_of_mem_toDigits (by decide) (by decide) hc
  simp [Char.isAlphanum, hdigit]

/-- Names that do not begin like the variable of a response. -/
theorem identifier_not_mem (a : Arm) {names : List String}
    (h : ∀ name ∈ names, name.toList.take 3 ≠ ['r', 'e', 's']) : a.identifier ∉ names := by
  intro hm
  apply h _ hm
  rw [identifier_toList]
  rfl

theorem ofToken?_identifier (a : Arm) : Usage.ofToken? (.name a.identifier) = none := by
  have hmem : a.identifier ∉ predeclared := identifier_not_mem a (by decide)
  rw [Usage.ofToken?, if_neg hmem]

theorem wordToken_identifier (a : Arm) :
    wordToken false false a.identifier.toList = [.name a.identifier] := by
  rw [identifier_toList]
  simp [wordToken, ← identifier_toList]

theorem nameUsages_identifier (a : Arm) : nameUsages a.identifier = [] := by
  rw [nameUsages, wordToken_identifier, List.filterMap_cons_none (ofToken?_identifier a),
    List.filterMap_nil]

theorem wordToken_digits (n : Nat) : wordToken false false (Nat.toDigits 10 n) = [.number] := by
  cases hd : Nat.toDigits 10 n with
  | nil => exact absurd hd Nat.toDigits_ne_nil
  | cons c rest =>
    have hdigit : c.isDigit :=
      Nat.isDigit_of_mem_toDigits (by decide) (by decide) (hd ▸ List.mem_cons_self)
    rw [wordToken, if_pos hdigit]

theorem fragment_apply {operand : String} (h : Fragment operand.toList us)
    (conversion : Conversion) :
    Fragment (conversion.apply operand).toList (conversion.usages us) := by
  have hcall : ∀ {before after : String} (vs : List Usage), Fixed before.toList vs →
      Joint after.toList [] → Fragment (before ++ operand ++ after).toList (vs ++ us) := by
    intro before after vs hbefore hafter
    have hrest := h.close hafter
    rw [List.append_nil] at hrest
    rw [String.toList_append, String.toList_append, List.append_assoc]
    exact hbefore.append hrest
  cases conversion with
  | identity => exact h
  | decimalFloat | decimalInteger | truthValue =>
    exact hcall [.qualifies "strconv"] (fixed_ofList _ (by decide)) (joint_ofList _ (by decide))
  | truncatedFloat =>
    exact hcall [.qualifies "strconv", .builtin "int64"] (fixed_ofList _ (by decide))
      (joint_ofList _ (by decide))

theorem fragment_urlText (h : m.Spelt) :
    Fragment m.urlText.toList (m.url.flatMap UrlPart.usages) := by
  have hparts : ∀ part ∈ m.url, Fragment part.text.toList part.usages := by
    intro part hpart
    cases part with
    | literal s => exact fragment_stringLiteral s
    | argument x conversion => exact fragment_apply (h.url x conversion hpart).fragment conversion
  unfold MethodDeclaration.urlText
  split
  · rename_i hempty
    rw [List.isEmpty_iff.mp hempty]
    exact (fixed_ofList _ (by decide)).fragment
  · rw [String.toList_intercalate, List.map_map]
    exact fragment_intercalate (joint_ofList _ (by decide)) hparts

/-- A list, given with what is done in each part of it. -/
theorem fragment_list {parts : List (String × List Usage)}
    (h : ∀ p ∈ parts, Fragment p.1.toList p.2) :
    Fragment (", ".intercalate (parts.map Prod.fst)).toList (parts.flatMap Prod.snd) := by
  rw [String.toList_intercalate, List.map_map]
  exact fragment_intercalate joint_comma h

theorem fragment_values {values : List String} (h : ∀ v ∈ values, Spelt v) :
    Fragment (", ".intercalate values).toList (values.flatMap nameUsages) := by
  have hparts : ∀ p ∈ values.map fun v => (v, nameUsages v), Fragment p.1.toList p.2 :=
    List.forall_mem_map.mpr fun v hv => (h v hv).fragment
  simpa [List.flatMap_map, Function.comp_def] using fragment_list hparts

/-- What is returned on an error. -/
theorem fragment_errorReturn (m : MethodDeclaration) :
    Fragment m.errorReturn.toList (m.results.map fun _ => .builtin "nil") := by
  have hspelt : ∀ v ∈ m.results.map (fun _ => "nil") ++ ["err"], Spelt v := by
    intro v hv
    have hv : v = "nil" ∨ v = "err" := by
      simp at hv
      grind
    rcases hv with rfl | rfl <;> exact spelt_ascii rfl
  have hnil : nameUsages "nil" = [.builtin "nil"] := by decide
  have herr : nameUsages "err" = [] := by decide
  have hvalues := fragment_values hspelt
  rwa [List.flatMap_append, List.flatMap_map, List.flatMap_singleton, hnil, herr, List.append_nil,
    ← List.map_eq_flatMap] at hvalues

theorem reads_fail (m : MethodDeclaration) : Reads m.failLines [.builtin "nil"] := by
  have hif : Reads ["\tif err != nil \x7b"] [.builtin "nil"] := reads_ofList _ (by decide)
  have hopen : Opening "\t\treturn ".toList [] [] := opening_ofList _ (by decide)
  have hreturn : Reads ["\t\treturn " ++ m.errorReturn] _ :=
    hopen.reads (fragment_errorReturn m) (by simp)
  have hclose : Reads ["\t\x7d"] [] := reads_ofList _ (by decide)
  apply ((hif.append hreturn).append hclose).congr
  grind

theorem fragment_operand {q : QueryItem} (h : Spelt q.identifier) :
    Fragment q.operand.toList (nameUsages q.identifier) := by
  unfold QueryItem.operand
  split
  · rw [String.toList_append]
    have hstar : Fixed "*".toList [] := fixed_ofList _ (by decide)
    exact hstar.append h.fragment
  · exact h.fragment

/-- The line that sets a query item, wherever it is indented to. -/
theorem reads_setter {q : QueryItem} {line : String} (h : Spelt q.identifier)
    (hopen : Opening cs [.qualifies "q"] [])
    (hline : line.toList = cs ++ ((stringLiteral q.key).toList ++
      (", ".toList ++ ((q.conversion.apply q.operand).toList ++ ")".toList)))) :
    Reads [line] (.qualifies "q" :: q.conversion.usages (nameUsages q.identifier)) := by
  have hvalue := (fragment_apply (fragment_operand h) q.conversion).close joint_paren
  have hrest := (fragment_stringLiteral q.key).join joint_comma hvalue
  simpa using hopen.reads hrest hline

theorem reads_item {q : QueryItem} (h : Spelt q.identifier) : Reads q.lines q.usages := by
  unfold QueryItem.lines QueryItem.usages QueryItem.setter
  split
  · have hopen : Opening "\tif ".toList [] [] := opening_ofList _ (by decide)
    have hset : Opening "\t\tq.Set(".toList [.qualifies "q"] [] := opening_ofList _ (by decide)
    have htest : Joint " != nil \x7b".toList [.builtin "nil"] := joint_ofList _ (by decide)
    have hif : Reads ["\tif " ++ q.identifier ++ " != nil \x7b"] _ :=
      hopen.reads (h.fragment.close htest) (by simp)
    have hclose : Reads ["\t\x7d"] [] := reads_ofList _ (by decide)
    apply ((hif.append (reads_setter h hset (by simp))).append hclose).congr
    grind
  · have hset : Opening "\tq.Set(".toList [.qualifies "q"] [] := opening_ofList _ (by decide)
    apply (reads_setter h hset (by simp)).congr
    simp

theorem reads_query (h : m.Spelt) : Reads m.queryLines m.queryUsages := by
  have hfirst : Reads ["\tq := u.Query()"] [.qualifies "u", .declares "q"] :=
    reads_ofList _ (by decide)
  have hlast : Reads ["\tu.RawQuery = q.Encode()"] [.qualifies "u", .qualifies "q"] :=
    reads_ofList _ (by decide)
  have hitems : Reads (m.query.flatMap QueryItem.lines) (m.query.flatMap QueryItem.usages) :=
    Reads.flatMap fun q hq => reads_item (h.query q hq)
  unfold MethodDeclaration.queryLines MethodDeclaration.queryUsages
  split
  · exact reads_nil
  · apply ((hfirst.append hitems).append hlast).congr
    grind

theorem reads_requestLine (m : MethodDeclaration) {body : String}
    (h : Joint (", u.String(), " ++ body ++ ")").toList us) :
    Reads [m.requestLine body] (.qualifies "http" :: us ++ [.declares "r", .declares "err"]) := by
  have hopen : Opening "\tr, err := http.NewRequestWithContext(ctx, ".toList [.qualifies "http"]
      ["r", "err"] := opening_ofList _ (by decide)
  apply hopen.reads ((fragment_stringLiteral m.method.name).close h)
  unfold MethodDeclaration.requestLine
  simp only [String.toList_append, List.append_assoc]

theorem reads_request (m : MethodDeclaration) : Reads m.requestLines m.requestUsages := by
  unfold MethodDeclaration.requestLines MethodDeclaration.requestUsages
  split
  · have hencode : Reads ["\tvar body io.Reader", "\tif req != nil \x7b",
        "\t\tbuf := new(bytes.Buffer)",
        "\t\tif err := json.NewEncoder(buf).Encode(req); err != nil \x7b"]
        [.declares "body", .declares "buf", .declares "err", .qualifies "io", .qualifies "bytes",
          .qualifies "json", .builtin "new", .builtin "nil"] := by
      apply Reads.of_subset
      case h =>
        repeat apply Reads.cons_ofList _ (by decide)
        exact reads_nil
      case hu => decide
    have hopen : Opening "\t\t\treturn ".toList [] [] := opening_ofList _ (by decide)
    have hreturn : Reads ["\t\t\treturn " ++ m.errorReturn] _ :=
      hopen.reads (fragment_errorReturn m) (by simp)
    have hclose : Reads ["\t\t\x7d"] [] := reads_ofList _ (by decide)
    have hassign : Reads ["\t\tbody = buf"] [] := reads_ofList _ (by decide)
    have hend : Reads ["\t\x7d"] [] := reads_ofList _ (by decide)
    have hbody : Joint (", u.String(), " ++ "body" ++ ")").toList [.qualifies "u"] := by
      decide
    have hlines := ((hencode.append hreturn).append hclose).append hassign
    apply ((hlines.append hend).append (reads_requestLine m hbody)).congr
    grind
  · have hnil : Joint (", u.String(), " ++ "nil" ++ ")").toList
        [.qualifies "u", .builtin "nil"] := by
      decide
    apply (reads_requestLine m hnil).congr
    grind

theorem reads_case (n : Nat) : Reads ["\tcase " ++ toString n ++ ":"] [] := by
  have hcase : Lexed "\tcase ".toList [.name "case"] := by decide
  have hcolon : Lexed [':', '\n'] [.sign ':', .line] := by decide
  have hdigits : ∀ c ∈ Nat.toDigits 10 n, isWordPart c := by
    intro c hc
    have hdigit := Nat.isDigit_of_mem_toDigits (by decide) (by decide) hc
    simp [isWordPart, Text.isWordCharacter, Char.isAlphanum, hdigit]
  have hline : LexedLine ("\tcase " ++ toString n ++ ":") [.name "case", .number, .sign ':'] := by
    have hrest := (pending_word hdigits).append_lexed hcolon (by decide)
    rw [wordToken_digits] at hrest
    have hall := hcase.append hrest
    simpa [LexedLine] using hall
  have hnone : usages [.name "case", .number, .sign ':'] = [] := by decide
  constructor
  · exact List.forall_mem_singleton.mpr ⟨_, hline⟩
  · intro u
    rw [List.flatMap_singleton, hline.sentences_eq (by simp), List.flatMap_singleton, hnone]

/-- The line that makes the variable of an arm, which declares it or not. -/
theorem opening_new (a : Arm) :
    Opening ("\t\t" ++ a.identifier ++ " = new(").toList [.builtin "new"] [] ∧
      Opening ("\t\t" ++ a.identifier ++ " := new(").toList [.builtin "new"] [a.identifier] := by
  have hindent : Lexed ['\t', '\t'] [] := by decide
  have hrun : ∀ {rest : List Char} {ts : List Token}, Lexed rest ts → Separates rest →
      run between (['\t', '\t'] ++ (a.identifier.toList ++ rest)) =
        (between, .name a.identifier :: ts) := by
    intro rest ts h hs
    have hlexed := hindent.append ((pending_word (spelt_identifier a)).append_lexed h hs)
    rwa [wordToken_identifier] at hlexed
  have hassign : Lexed [' ', '=', ' ', 'n', 'e', 'w', '('] [.sign '=', .name "new", .sign '('] := by
    decide
  have hdefine : Lexed [' ', ':', '=', ' ', 'n', 'e', 'w', '(']
      [.sign ':', .sign '=', .name "new", .sign '('] := by
    decide
  have hnew : Usage.ofToken? (.name "new") = some (.builtin "new") := by decide
  have hsign : ∀ c, Usage.ofToken? (.sign c) = none := fun _ => rfl
  have hvar : a.identifier ∉ ["var", "if"] := identifier_not_mem a (by decide)
  have hnone := ofToken?_identifier a
  simp only [List.mem_cons, List.not_mem_nil, or_false, not_or] at hvar
  constructor
  · have hchars : ("\t\t" ++ a.identifier ++ " = new(").toList =
        ['\t', '\t'] ++ (a.identifier.toList ++ [' ', '=', ' ', 'n', 'e', 'w', '(']) := by simp
    rw [Opening, hchars, hrun hassign (by decide)]
    simp [hnone, hnew, hsign, hvar]
  · have hchars : ("\t\t" ++ a.identifier ++ " := new(").toList =
        ['\t', '\t'] ++ (a.identifier.toList ++ [' ', ':', '=', ' ', 'n', 'e', 'w', '(']) := by simp
    rw [Opening, hchars, hrun hdefine (by decide)]
    simp [hnone, hnew, hsign, hvar, assigned?]

theorem reads_arm {a : Arm} (h : Spelt a.typeName) : Reads a.lines a.usages := by
  have hname := (spelt_identifier a).fragment
  rw [nameUsages_identifier] at hname
  have hdecoder : Opening "\t\terr = json.NewDecoder(res.Body).Decode(".toList
      [.qualifies "json", .qualifies "res"] [] := opening_ofList _ (by decide)
  have hdecode : Reads ["\t\terr = json.NewDecoder(res.Body).Decode(" ++ a.identifier ++ ")"] _ :=
    hdecoder.reads (hname.close joint_paren) (by simp)
  have htype := h.fragment.close joint_paren
  have hcase := reads_case a.code
  unfold Arm.lines Arm.usages
  split
  · have hnew : Reads ["\t\t" ++ a.identifier ++ " = new(" ++ a.typeName ++ ")"] _ :=
      (opening_new a).1.reads htype (by simp)
    apply ((hcase.append hnew).append hdecode).congr
    grind
  · have hnew : Reads ["\t\t" ++ a.identifier ++ " := new(" ++ a.typeName ++ ")"] _ :=
      (opening_new a).2.reads htype (by simp)
    have hif : Reads ["\t\tif err == nil \x7b"] [.builtin "nil"] := reads_ofList _ (by decide)
    have hopen : Opening "\t\t\terr = ".toList [] [] := opening_ofList _ (by decide)
    have hassign : Reads ["\t\t\terr = " ++ a.identifier] _ := hopen.reads hname (by simp)
    have hclose : Reads ["\t\t\x7d"] [] := reads_ofList _ (by decide)
    apply (((((hcase.append hnew).append hdecode).append hif).append hassign).append hclose).congr
    grind

theorem reads_parse (h : m.Spelt) :
    Reads (["\tu, err := cl.baseURL.Parse(" ++ m.urlText ++ ")"] ++ m.failLines)
      ([.qualifies "cl", .declares "u", .declares "err", .builtin "nil"] ++
        m.url.flatMap UrlPart.usages) := by
  have hurl : Opening "\tu, err := cl.baseURL.Parse(".toList [.qualifies "cl"] ["u", "err"] :=
    opening_ofList _ (by decide)
  have hparse : Reads ["\tu, err := cl.baseURL.Parse(" ++ m.urlText ++ ")"] _ :=
    hurl.reads ((fragment_urlText h).close joint_paren) (by simp)
  apply (hparse.append (reads_fail m)).congr
  grind

/-- The lines between a request that has been made and the cases for its response. -/
theorem reads_exchange (m : MethodDeclaration) :
    Reads (m.failLines ++ ["\tr.Header.Set(\"Content-Type\", \"application/json\")",
      "\tr.Header.Set(\"Accept\", \"application/json\")", "",
      "\tres, err := cl.httpClient.Do(r)"] ++ m.failLines ++
        ["\tdefer res.Body.Close()", "", "\tswitch res.StatusCode \x7b"])
      MethodDeclaration.exchangeUsages := by
  have hdo : Reads ["\tr.Header.Set(\"Content-Type\", \"application/json\")",
      "\tr.Header.Set(\"Accept\", \"application/json\")", "",
      "\tres, err := cl.httpClient.Do(r)"]
      [.qualifies "r", .qualifies "cl", .declares "res", .declares "err"] := by
    apply Reads.of_subset
    case h =>
      repeat apply Reads.cons_ofList _ (by decide)
      exact reads_nil
    case hu => decide
  have hswitch : Reads ["\tdefer res.Body.Close()", "", "\tswitch res.StatusCode \x7b"]
      [.qualifies "res"] := by
    apply Reads.of_subset
    case h =>
      repeat apply Reads.cons_ofList _ (by decide)
      exact reads_nil
    case hu => decide
  exact ((((reads_fail m).append hdo).append (reads_fail m)).append hswitch).of_subset (by decide)

/-- The lines behind the cases. -/
theorem reads_closing (m : MethodDeclaration) :
    Reads (MethodDeclaration.otherwiseLines ++
      ["\tif errors.Is(err, io.EOF) \x7b", "\t\terr = nil", "\t\x7d"] ++
        ["\treturn " ++ m.finalReturn] ++ ["\x7d"]) MethodDeclaration.closingUsages := by
  have hotherwise : Reads (MethodDeclaration.otherwiseLines ++
      ["\tif errors.Is(err, io.EOF) \x7b", "\t\terr = nil", "\t\x7d"])
      MethodDeclaration.closingUsages := by
    apply Reads.of_subset
    case h =>
      repeat apply Reads.cons_ofList _ (by decide)
      exact reads_nil
    case hu => decide
  have hspelt : ∀ v ∈ m.results.map Arm.identifier ++ ["err"], Spelt v := by
    refine List.forall_mem_append.mpr ⟨?_, List.forall_mem_singleton.mpr (spelt_ascii rfl)⟩
    exact List.forall_mem_map.mpr fun a _ => spelt_identifier a
  have herr : nameUsages "err" = [] := by decide
  have hvalues : Fragment m.finalReturn.toList [] := by
    have hnames := fragment_values hspelt
    rwa [List.flatMap_append, List.flatMap_map, List.flatMap_singleton, herr, List.append_nil,
      List.flatMap_eq_nil_iff.mpr fun a _ => nameUsages_identifier a] at hnames
  have hopen : Opening "\treturn ".toList [] [] := opening_ofList _ (by decide)
  have hreturn : Reads ["\treturn " ++ m.finalReturn] _ := hopen.reads hvalues (by simp)
  have hclose : Reads ["\x7d"] [] := reads_ofList _ (by decide)
  exact (hotherwise.append hreturn).append hclose

/-- Whatever the method, this is what its body does with names. -/
theorem reads_body (h : m.Spelt) : Reads m.body m.usages := by
  have harms : Reads (m.arms.flatMap Arm.lines) (m.arms.flatMap Arm.usages) :=
    Reads.flatMap fun a ha => reads_arm (h.arms a ha)
  have hrequest := ((reads_parse h).append (reads_query h)).append (reads_request m)
  have hbody := ((hrequest.append (reads_exchange m)).append harms).append (reads_closing m)
  unfold MethodDeclaration.body MethodDeclaration.usages
  simpa only [List.append_assoc] using hbody

/-- What is done when a type is written. -/
def typeUsages : GoType → List Usage
  | .slice t | .pointer t => typeUsages t
  | t => nameUsages t.text

theorem qualifies_not_mem_nameUsages (x name : String) : .qualifies x ∉ nameUsages name := by
  unfold nameUsages wordToken
  split
  · simp
  · split <;> simp [Usage.ofToken?]

theorem qualifies_not_mem_typeUsages (x : String) (t : GoType) : .qualifies x ∉ typeUsages t := by
  induction t with
  | slice t ih | pointer t ih => exact ih
  | _ => exact qualifies_not_mem_nameUsages x _

theorem fragment_type {t : GoType} (h : SpeltType t) :
    Fragment t.text.toList (typeUsages t) := by
  induction t with
  | named name => exact (h name rfl).fragment
  | slice t ih =>
    have hsign : Fixed "[]".toList [] := fixed_ofList _ (by decide)
    rw [GoType.text, String.toList_append]
    exact hsign.append (ih h)
  | pointer t ih =>
    have hsign : Fixed "*".toList [] := fixed_ofList _ (by decide)
    rw [GoType.text, String.toList_append]
    exact hsign.append (ih h)
  | string | float64 | int64 | bool => exact (spelt_ascii (by decide)).fragment

/-- A name and what is written behind it. -/
theorem fragment_pair {first separator second : String} (h : Spelt first)
    (hb : Joint separator.toList []) (hs : Fragment second.toList us) :
    Fragment (first ++ separator ++ second).toList (nameUsages first ++ us) := by
  rw [String.toList_append, String.toList_append, List.append_assoc]
  exact h.fragment.join hb hs

namespace MethodDeclaration

/-- The arguments as they are written, with what is done in each. -/
def argumentParts (m : MethodDeclaration) : List (String × List Usage) :=
  ("ctx context.Context", [.qualifies "context"]) :: m.arguments.map fun a =>
    (a.identifier ++ " " ++ a.type.text, nameUsages a.identifier ++ typeUsages a.type)

/-- The results as they are written, with what is done in each. -/
def resultParts (m : MethodDeclaration) : List (String × List Usage) :=
  m.results.map (fun a => (a.identifier ++ " *" ++ a.typeName, nameUsages a.typeName)) ++
    [("err error", [.builtin "error"])]

theorem argumentsText_eq (m : MethodDeclaration) :
    m.argumentsText = ", ".intercalate (m.argumentParts.map Prod.fst) := by
  rw [argumentsText, argumentParts, List.map_cons, List.map_map]
  rfl

theorem resultsText_eq (m : MethodDeclaration) :
    m.resultsText = ", ".intercalate (m.resultParts.map Prod.fst) := by
  rw [resultsText, resultParts, List.map_append, List.map_map]
  rfl

end MethodDeclaration

/-- Nothing but the context of a request comes from another package. -/
theorem qualifies_mem_argumentParts (x : String) :
    .qualifies x ∈ m.argumentParts.flatMap Prod.snd ↔ x = "context" := by
  simp [MethodDeclaration.argumentParts, qualifies_not_mem_nameUsages,
    qualifies_not_mem_typeUsages]

theorem qualifies_not_mem_resultParts (x : String) :
    .qualifies x ∉ m.resultParts.flatMap Prod.snd := by
  simp [MethodDeclaration.resultParts, qualifies_not_mem_nameUsages]

theorem fragment_argumentsText (h : m.Spelt) :
    Fragment m.argumentsText.toList (m.argumentParts.flatMap Prod.snd) := by
  have hrun : Reader.run between "ctx context.Context".toList =
      (code true "Context".toList, [.name "ctx", .qualifier "context"]) := by decide
  have hblank : Joint " ".toList [] := by decide
  rw [m.argumentsText_eq]
  apply fragment_list
  rw [MethodDeclaration.argumentParts, List.forall_mem_cons]
  constructor
  · exact ⟨_, pending_of_run hrun, by decide, by decide⟩
  · exact List.forall_mem_map.mpr fun a ha =>
      fragment_pair (h.arguments a ha).1 hblank (fragment_type (h.arguments a ha).2)

theorem fragment_resultsText (h : m.Spelt) :
    Fragment m.resultsText.toList (m.resultParts.flatMap Prod.snd) := by
  have hrun : Reader.run between "err error".toList =
      (code false "error".toList, [.name "err"]) := by decide
  have hpointer : Joint " *".toList [] := by decide
  rw [m.resultsText_eq]
  apply fragment_list
  rw [MethodDeclaration.resultParts, List.forall_mem_append, List.forall_mem_map,
    List.forall_mem_singleton]
  constructor
  · intro a ha
    have hname := fragment_pair (spelt_identifier a) hpointer
      (h.arms a (List.mem_filter.mp ha).1).fragment
    rwa [nameUsages_identifier, List.nil_append] at hname
  · exact ⟨_, pending_of_run hrun, by decide, by decide⟩

theorem lexedLine_heading (h : m.Spelt) : ∃ ts, LexedLine m.heading ts ∧ Token.line ∉ ts ∧
    isHeading ts ∧ ∀ x, .qualifies x ∈ usages ts ↔ x = "context" := by
  have hopen : Opening "func (cl *Client) ".toList [] [] := opening_ofList _ (by decide)
  have hfirst : Joint "(".toList [] := by decide
  have hmiddle : Joint ") (".toList [] := by decide
  have hlast : Joint ") \x7b".toList [] := by decide
  have hend := (fragment_resultsText h).close hlast
  have hinner := (fragment_argumentsText h).join hmiddle hend
  have hrest := h.name.fragment.join hfirst hinner
  have hheading : m.heading.toList = "func (cl *Client) ".toList ++ (m.name.toList ++
      ("(".toList ++ (m.argumentsText.toList ++ (") (".toList ++
        (m.resultsText.toList ++ ") \x7b".toList))))) := by
    unfold MethodDeclaration.heading
    simp only [String.toList_append, List.append_assoc]
  obtain ⟨ts, hlex, hline, hhead, husages⟩ := hopen.lexedLine hrest hheading
  refine ⟨ts, hlex, hline, ?_, fun x => ?_⟩
  · rw [isHeading, hhead]
    decide
  · simp only [husages, List.mem_append, qualifies_not_mem_nameUsages, qualifies_mem_argumentParts,
      qualifies_not_mem_resultParts, List.map_nil, List.not_mem_nil, false_or, or_false]

theorem newline_not_mem {name : String} (h : Spelt name) : '\n' ∉ name.toList := fun hm =>
  absurd (h '\n' hm) (by decide)

theorem silent_docs (h : m.Spelt) : Silent m.docs := by
  have hname := newline_not_mem h.name
  have hdeprecated : Silent ["// Deprecated: " ++ m.name ++ " is deprecated by the API."] := by
    have hrest : '\n' ∉ " Deprecated: ".toList ++ (m.name.toList ++
        " is deprecated by the API.".toList) := by
      simp [hname]
    exact silent_slashes hrest (by simp)
  have hblank : Silent ["//"] := silent_slashes List.not_mem_nil rfl
  refine silent_append.mpr ⟨silent_commentLines m.description, ?_⟩
  unfold MethodDeclaration.deprecationLines
  split
  · refine silent_append.mpr ⟨?_, hdeprecated⟩
    split
    · exact List.forall_mem_nil _
    · exact hblank
  · exact List.forall_mem_nil _

/-- The context is all that the heading of a method has from another package. -/
theorem usages_method (h : m.Spelt) :
    (∀ x, .qualifies x ∈ (Declaration.method m).outerUsages ↔ x = "context") ∧
      ∀ u, u ∈ (Declaration.method m).innerUsages ↔ u ∈ m.usages := by
  obtain ⟨ts, hlex, hline, hheading, hcontext⟩ := lexedLine_heading h
  have hlines : (Declaration.method m).lines = m.docs ++ m.heading :: m.body := m.lines_eq
  obtain ⟨houter, hinner⟩ :=
    usages_of_heading hlines (silent_docs h).leads hlex hline hheading (reads_body h)
  exact ⟨fun x => by simp [houter, hcontext], hinner⟩

def UrlPart.identifier? : UrlPart → Option String
  | .literal _ => none
  | .argument identifier _ => some identifier

/-- How an argument in the URL becomes text. -/
def UrlPart.conversion? : UrlPart → Option Conversion
  | .literal _ => none
  | .argument _ conversion => some conversion

namespace MethodDeclaration

/-- The names in the body of a method that come from the document. -/
def namesWithin (m : MethodDeclaration) : List String :=
  m.url.filterMap UrlPart.identifier? ++ m.query.map QueryItem.identifier ++
    m.arms.map Arm.typeName

/-- How the arguments become text. -/
def conversions (m : MethodDeclaration) : List Conversion :=
  m.url.filterMap UrlPart.conversion? ++ m.query.map QueryItem.conversion

/-- What is done in every method. -/
def commonUsages : List Usage :=
  [.declares "u", .declares "err", .declares "r", .declares "res", .declares "errBody",
    .qualifies "cl", .qualifies "u", .qualifies "r", .qualifies "res", .qualifies "http",
    .qualifies "json", .qualifies "fmt", .qualifies "errors", .qualifies "io", .builtin "nil"]

end MethodDeclaration

variable {u : Usage}

/-- Nothing but a use of an identifier of Go comes with a name. -/
theorem eq_of_mem_nameUsages {name : String} (h : u ∈ nameUsages name) :
    u = .builtin name ∧ name ∈ predeclared := by
  unfold nameUsages wordToken at h
  split at h
  · cases h
  · rw [String.ofList_toList] at h
    split at h
    · cases h
    · obtain ⟨t, ht, hu⟩ := List.mem_filterMap.mp h
      obtain rfl := List.mem_singleton.mp ht
      simp only [Usage.ofToken?] at hu
      split at hu
      · exact ⟨(Option.some.inj hu).symm, ‹_›⟩
      · cases hu

theorem not_mem_nameUsages (h : ∀ name, u ≠ .builtin name) (name : String) :
    u ∉ nameUsages name := fun hm => h name (eq_of_mem_nameUsages hm).1

theorem mem_conversion (h : u ∉ us) (conversion : Conversion) :
    u ∈ conversion.usages us ↔ u ∈ conversion.usages [] := by
  cases conversion <;> simp [Conversion.usages, h]

theorem mem_urlUsages (h : ∀ name ∈ m.url.filterMap UrlPart.identifier?, u ∉ nameUsages name) :
    u ∈ m.url.flatMap UrlPart.usages ↔
      ∃ c ∈ m.url.filterMap UrlPart.conversion?, u ∈ c.usages [] := by
  generalize m.url = url at h ⊢
  induction url with
  | nil => simp
  | cons part rest ih =>
    cases part with
    | literal s =>
      rw [List.filterMap_cons_none rfl] at h
      rw [List.flatMap_cons, List.filterMap_cons_none rfl]
      exact ih h
    | argument x c =>
      have hname : UrlPart.identifier? (.argument x c) = some x := rfl
      have hconversion : UrlPart.conversion? (.argument x c) = some c := rfl
      rw [List.filterMap_cons_some hname] at h
      obtain ⟨hx, hrest⟩ := List.forall_mem_cons.mp h
      rw [List.flatMap_cons, List.filterMap_cons_some hconversion, List.mem_append, ih hrest,
        UrlPart.usages, mem_conversion hx]
      simp

theorem mem_queryUsages (h : ∀ name ∈ m.query.map QueryItem.identifier, u ∉ nameUsages name) :
    u ∈ m.queryUsages ↔
      (m.query ≠ [] ∧ u ∈ [.declares "q", .qualifies "u", .qualifies "q"]) ∨
      (∃ q ∈ m.query, q.optional ∧ u = .builtin "nil") ∨
      ∃ c ∈ m.query.map QueryItem.conversion, u ∈ c.usages [] := by
  have hitem : ∀ q ∈ m.query, u ∈ q.usages ↔ u = .qualifies "q" ∨
      (q.optional ∧ u = .builtin "nil") ∨ u ∈ q.conversion.usages [] := by
    intro q hq
    have hname := h _ (List.mem_map_of_mem hq)
    unfold QueryItem.usages
    rw [List.cons_append, List.mem_cons, List.mem_append, mem_conversion hname]
    split <;> simp [*, or_comm]
  unfold MethodDeclaration.queryUsages
  split
  · rename_i hempty
    simp [List.isEmpty_iff.mp hempty]
  · rename_i hne
    have hsome : ∃ q, q ∈ m.query := List.exists_mem_of_ne_nil _ (by simpa using hne)
    simp only [List.mem_cons, List.mem_flatMap, List.mem_map]
    grind

theorem mem_requestUsages :
    u ∈ m.requestUsages ↔
      u ∈ [.declares "r", .declares "err", .qualifies "http", .qualifies "u", .builtin "nil"] ∨
      m.hasBody ∧ u ∈ [.declares "body", .declares "buf", .qualifies "io", .qualifies "bytes",
        .qualifies "json", .builtin "new"] := by
  unfold MethodDeclaration.requestUsages
  split <;> simp [*, or_assoc]

theorem mem_armUsages (h : ∀ name ∈ m.arms.map Arm.typeName, u ∉ nameUsages name) :
    u ∈ m.arms.flatMap Arm.usages ↔
      ∃ a ∈ m.arms, u ∈ [.qualifies "json", .qualifies "res", .builtin "new"] ∨
        ¬ a.success ∧ u ∈ [.builtin "nil", .declares a.identifier] := by
  have harm : ∀ a ∈ m.arms, u ∈ a.usages ↔
      u ∈ [.qualifies "json", .qualifies "res", .builtin "new"] ∨
        ¬ a.success ∧ u ∈ [.builtin "nil", .declares a.identifier] := by
    intro a ha
    have hname := h _ (List.mem_map_of_mem ha)
    unfold Arm.usages
    split <;> simp [*, or_assoc]
  rw [List.mem_flatMap]
  exact exists_congr fun a => and_congr_right (harm a)

/-- What is done in the body of a method, apart from its use of the names in the document. -/
theorem mem_usages (h : ∀ name ∈ m.namesWithin, u ∉ nameUsages name) :
    u ∈ m.usages ↔ u ∈ MethodDeclaration.commonUsages ∨
      (m.query ≠ [] ∧ u ∈ [.declares "q", .qualifies "q"]) ∨
      (m.hasBody ∧ u ∈ [.declares "body", .declares "buf", .qualifies "bytes", .builtin "new"]) ∨
      (∃ a ∈ m.arms, u = .builtin "new" ∨ ¬ a.success ∧ u = .declares a.identifier) ∨
      ∃ c ∈ m.conversions, u ∈ c.usages [] := by
  obtain ⟨hnames, harms⟩ := List.forall_mem_append.mp h
  obtain ⟨hurl, hquery⟩ := List.forall_mem_append.mp hnames
  have hcommon : u ∈ MethodDeclaration.commonUsages ↔
      u ∈ [.qualifies "cl", .declares "u", .declares "err", .builtin "nil"] ++
        [.declares "r", .declares "err", .qualifies "http", .qualifies "u", .builtin "nil"] ++
        MethodDeclaration.exchangeUsages ++ MethodDeclaration.closingUsages :=
    mem_iff_of_subset (by decide) u
  have hwithin : ∀ u ∈ [.qualifies "u", .builtin "nil", .qualifies "io", .qualifies "json",
      .qualifies "res"], u ∈ MethodDeclaration.commonUsages := by decide
  unfold MethodDeclaration.usages MethodDeclaration.conversions
  simp only [List.mem_append, mem_urlUsages hurl, mem_queryUsages hquery, mem_requestUsages,
    mem_armUsages harms]
  simp only [List.mem_append] at hcommon
  grind

/-- The variables that the body of a method declares. -/
theorem declares_mem_innerUsages (h : m.Spelt) (x : String) :
    .declares x ∈ (Declaration.method m).innerUsages ↔
      x ∈ ["u", "err", "r", "res", "errBody"] ∨ (m.query ≠ [] ∧ x = "q") ∨
      (m.hasBody ∧ x ∈ ["body", "buf"]) ∨ ∃ a ∈ m.arms, ¬ a.success ∧ x = a.identifier := by
  have hconversion : ∀ c : Conversion, .declares x ∉ c.usages [] := by
    intro c
    cases c <;> simp [Conversion.usages]
  have hname : ∀ name, Usage.declares x ∉ nameUsages name := not_mem_nameUsages (by simp)
  rw [(usages_method h).2, mem_usages fun name _ => hname name]
  simp [MethodDeclaration.commonUsages, hconversion]

/-- The variables and the packages that stand before a dot in the body of a method. -/
theorem qualifies_mem_innerUsages (h : m.Spelt) (x : String) :
    .qualifies x ∈ (Declaration.method m).innerUsages ↔
      x ∈ ["cl", "u", "r", "res"] ∨ (m.query ≠ [] ∧ x = "q") ∨
      x ∈ ["http", "json", "fmt", "errors", "io"] ∨ (m.hasBody ∧ x = "bytes") ∨
      ∃ c ∈ m.conversions, .qualifies x ∈ c.usages [] := by
  rw [(usages_method h).2, mem_usages fun name _ => qualifies_not_mem_nameUsages x name]
  simp [MethodDeclaration.commonUsages]
  grind

end ApiContract.GoClient
