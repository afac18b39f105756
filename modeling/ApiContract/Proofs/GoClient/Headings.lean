import ApiContract.Proofs.GoClient.DeclarationOrder
import ApiContract.Proofs.GoClient.References
import Mathlib.Data.List.Forall2

namespace ApiContract.GoClient

/-- A line begins something at the top level. -/
def opens (line : String) : Bool :=
  "type ".toList.isPrefixOf line.toList || "func ".toList.isPrefixOf line.toList

/-- A line begins with neither of the words, as its first character tells. -/
def Indented (line : String) : Prop := ∃ c rest, line.toList = c :: rest ∧ c ≠ 't' ∧ c ≠ 'f'

theorem indented_ofList (c : Char) (rest : List Char) (h : c ≠ 't' ∧ c ≠ 'f') :
    Indented (String.ofList (c :: rest)) :=
  ⟨c, rest, by simp, h⟩

theorem Indented.append {line : String} (h : Indented line) (more : String) :
    Indented (line ++ more) := by
  obtain ⟨c, rest, hc, h⟩ := h
  exact ⟨c, rest ++ more.toList, by simp [hc], h⟩

theorem Indented.not_opens {line : String} (h : Indented line) : opens line = false := by
  obtain ⟨c, rest, hc, ht, hf⟩ := h
  simp [opens, hc, List.isPrefixOf, ht.symm, hf.symm]

theorem Indented.filter_cons {line : String} (h : Indented line) (rest : List String) :
    (line :: rest).filter opens = rest.filter opens := by
  simp [h.not_opens]

theorem filter_blank (rest : List String) : ("" :: rest).filter opens = rest.filter opens := rfl

theorem opens_type (rest : List Char) :
    opens (String.ofList ('t' :: 'y' :: 'p' :: 'e' :: ' ' :: rest)) = true := by
  simp [opens, List.isPrefixOf]

theorem opens_func (rest : List Char) :
    opens (String.ofList ('f' :: 'u' :: 'n' :: 'c' :: ' ' :: rest)) = true := by
  simp [opens, List.isPrefixOf]

theorem filter_indented {lines : List String} (h : ∀ line ∈ lines, Indented line) :
    lines.filter opens = [] := by
  rw [List.filter_eq_nil_iff]
  intro line hl
  simp [(h line hl).not_opens]

theorem comment_eq (text : String) :
    comment text = "" ∨ ∃ rest, comment text = String.ofList ('/' :: rest) := by
  have hline : ∀ line, ∃ rest, commentLine line = '/' :: rest := by
    intro line
    unfold commentLine
    split
    · exact ⟨_, rfl⟩
    · exact ⟨_, rfl⟩
  unfold comment
  cases Text.lines (Text.trimEnd text.toList) with
  | nil => exact Or.inl rfl
  | cons line more =>
    obtain ⟨rest, hrest⟩ := hline line
    right
    cases more with
    | nil => exact ⟨rest, by simp [Text.joinWith, hrest]⟩
    | cons next more =>
      refine ⟨rest ++ '\n' :: Text.joinWith ['\n'] ((next :: more).map commentLine), ?_⟩
      simp [Text.joinWith, hrest]

theorem filter_commentLines (description : Option String) :
    (commentLines description).filter opens = [] := by
  cases description with
  | none => rfl
  | some text =>
    unfold commentLines
    dsimp only
    split
    · rfl
    · rcases comment_eq text with he | ⟨rest, he⟩
      · rw [he]
        rfl
      · rw [he]
        exact (indented_ofList '/' rest (by decide)).filter_cons []

theorem filter_fields (nameWidth typeWidth : Nat) (fields : List Field) :
    (fields.map (Field.line nameWidth typeWidth)).filter opens = [] := by
  apply filter_indented
  intro line hl
  obtain ⟨f, -, rfl⟩ := List.mem_map.mp hl
  exact (((((indented_ofList _ _ (by decide)).append _).append _).append _).append _).append _

theorem filter_struct (s : StructDeclaration) :
    s.lines.filter opens = ["type " ++ s.name ++ " struct \x7b"] := by
  have hembeds : (if s.embedsError then ["\t*ErrorResponse"] else []).filter opens = [] := by
    split
    · exact (indented_ofList _ _ (by decide)).filter_cons []
    · rfl
  have hopen : opens ("type " ++ s.name ++ " struct \x7b") = true := by
    simp [opens, List.isPrefixOf]
  have hclose : opens "\x7d" = false := rfl
  simp [StructDeclaration.lines, filter_commentLines, filter_fields, hembeds, hopen, hclose]

theorem filter_named (n : NamedDeclaration) :
    n.lines.filter opens =
      ["type " ++ n.name ++ (if n.isAlias then " = " else " ") ++ n.target.text] := by
  have hopen : opens ("type " ++ n.name ++ (if n.isAlias then " = " else " ") ++ n.target.text) =
      true := by
    simp [opens, List.isPrefixOf]
  simp [NamedDeclaration.lines, filter_commentLines, hopen]

theorem filter_client (title baseUrl : String) :
    (clientLines title baseUrl).filter opens =
      ["type Client struct \x7b",
        "func NewClient(httpClient *http.Client, baseURL string) (*Client, error) \x7b"] := by
  have htitle : Indented (if title = "" then "// Client calls the API."
      else "// Client calls the " ++ title ++ " API.") := by
    split
    · exact indented_ofList _ _ (by decide)
    · exact ((indented_ofList _ _ (by decide)).append _).append _
  unfold clientLines
  rw [htitle.filter_cons, List.filter_cons_of_pos (opens_type _)]
  repeat rw [(indented_ofList _ _ (by decide)).filter_cons]
  rw [filter_blank]
  repeat rw [(indented_ofList _ _ (by decide)).filter_cons]
  rw [(((indented_ofList _ _ (by decide)).append _).append _).filter_cons,
    List.filter_cons_of_pos (opens_func _)]
  repeat rw [(indented_ofList _ _ (by decide)).filter_cons]
  rw [((indented_ofList _ _ (by decide)).append _).filter_cons]
  repeat rw [(indented_ofList _ _ (by decide)).filter_cons]
  rfl

theorem filter_errorResponse :
    errorResponseLines.filter opens =
      ["type ErrorResponse struct \x7b", "func (e *ErrorResponse) Error() string \x7b"] := by
  unfold errorResponseLines
  rw [(indented_ofList _ _ (by decide)).filter_cons, List.filter_cons_of_pos (opens_type _)]
  repeat rw [(indented_ofList _ _ (by decide)).filter_cons]
  rw [filter_blank, List.filter_cons_of_pos (opens_func _)]
  repeat rw [(indented_ofList _ _ (by decide)).filter_cons]
  rfl

section Method

variable (m : MethodDeclaration)

theorem filter_deprecation : m.deprecationLines.filter opens = [] := by
  have hlast : Indented ("// Deprecated: " ++ m.name ++ " is deprecated by the API.") :=
    ((indented_ofList _ _ (by decide)).append _).append _
  unfold MethodDeclaration.deprecationLines
  split
  · rw [List.filter_append, hlast.filter_cons]
    split <;> rfl
  · rfl

theorem filter_fail : m.failLines.filter opens = [] := by
  unfold MethodDeclaration.failLines
  rw [(indented_ofList _ _ (by decide)).filter_cons,
    ((indented_ofList _ _ (by decide)).append _).filter_cons,
    (indented_ofList _ _ (by decide)).filter_cons]
  rfl

theorem filter_query : m.queryLines.filter opens = [] := by
  have hitem : ∀ q : QueryItem, q.lines.filter opens = [] := by
    intro q
    unfold QueryItem.lines
    split
    · rw [(((indented_ofList _ _ (by decide)).append _).append _).filter_cons,
        ((indented_ofList _ _ (by decide)).append _).filter_cons,
        (indented_ofList _ _ (by decide)).filter_cons]
      rfl
    · exact ((indented_ofList _ _ (by decide)).append _).filter_cons []
  have hitems : (m.query.flatMap QueryItem.lines).filter opens = [] := by
    rw [List.filter_flatMap]
    simp [hitem]
  unfold MethodDeclaration.queryLines
  split
  · rfl
  · rw [List.filter_append, List.filter_append, hitems,
      (indented_ofList _ _ (by decide)).filter_cons,
      (indented_ofList _ _ (by decide)).filter_cons]
    rfl

theorem filter_request : m.requestLines.filter opens = [] := by
  have hrequest : ∀ body, Indented (m.requestLine body) := fun _ =>
    ((((indented_ofList _ _ (by decide)).append _).append _).append _).append _
  unfold MethodDeclaration.requestLines
  split
  · repeat rw [(indented_ofList _ _ (by decide)).filter_cons]
    rw [((indented_ofList _ _ (by decide)).append _).filter_cons]
    repeat rw [(indented_ofList _ _ (by decide)).filter_cons]
    exact (hrequest _).filter_cons []
  · exact (hrequest _).filter_cons []

theorem filter_arm (a : Arm) : a.lines.filter opens = [] := by
  unfold Arm.lines
  rw [(((indented_ofList _ _ (by decide)).append _).append _).filter_cons]
  split
  · rw [(((((indented_ofList _ _ (by decide)).append _).append _).append _).append _).filter_cons,
      (((indented_ofList _ _ (by decide)).append _).append _).filter_cons]
    rfl
  · rw [(((((indented_ofList _ _ (by decide)).append _).append _).append _).append _).filter_cons,
      (((indented_ofList _ _ (by decide)).append _).append _).filter_cons,
      (indented_ofList _ _ (by decide)).filter_cons,
      ((indented_ofList _ _ (by decide)).append _).filter_cons,
      (indented_ofList _ _ (by decide)).filter_cons]
    rfl

theorem filter_otherwise : MethodDeclaration.otherwiseLines.filter opens = [] := by
  unfold MethodDeclaration.otherwiseLines
  repeat rw [(indented_ofList _ _ (by decide)).filter_cons]
  rfl

theorem filter_method :
    m.lines.filter opens =
      ["func (cl *Client) " ++ m.name ++ "(" ++ m.argumentsText ++ ") (" ++ m.resultsText ++
        ") \x7b"] := by
  have harms : (m.arms.flatMap Arm.lines).filter opens = [] := by
    rw [List.filter_flatMap]
    simp [filter_arm]
  have hopen : opens ("func (cl *Client) " ++ m.name ++ "(" ++ m.argumentsText ++ ") (" ++
      m.resultsText ++ ") \x7b") = true := by
    simp [opens, List.isPrefixOf]
  have hurl : Indented ("\tu, err := cl.baseURL.Parse(" ++ m.urlText ++ ")") :=
    ((indented_ofList _ _ (by decide)).append _).append _
  have hreturn : Indented ("\treturn " ++ m.finalReturn) :=
    (indented_ofList _ _ (by decide)).append _
  unfold MethodDeclaration.lines
  simp only [List.filter_append, filter_commentLines, filter_deprecation, filter_fail,
    filter_query, filter_request, harms, filter_otherwise]
  rw [List.filter_cons_of_pos hopen, hurl.filter_cons]
  repeat rw [(indented_ofList _ _ (by decide)).filter_cons]
  rw [filter_blank]
  repeat rw [(indented_ofList _ _ (by decide)).filter_cons]
  rw [filter_blank]
  repeat rw [(indented_ofList _ _ (by decide)).filter_cons]
  rw [hreturn.filter_cons]
  repeat rw [(indented_ofList _ _ (by decide)).filter_cons]
  rfl

theorem signature_mem_lines :
    "func (cl *Client) " ++ m.name ++ "(" ++ m.argumentsText ++ ") (" ++ m.resultsText ++ ") \x7b" ∈
      m.lines := by
  apply List.mem_of_mem_filter (p := opens)
  rw [filter_method]
  exact List.mem_singleton_self _

end Method

/-- How a line begins what it declares. -/
inductive Head.Begins : Head → String → Prop
  | type {name line : String} (rest : String) :
      line = "type " ++ name ++ " " ++ rest → Begins (.type name) line
  | function {name line : String} (rest : String) :
      line = "func " ++ name ++ "(" ++ rest → Begins (.function name) line
  | method {receiver name line : String} (self rest : String) :
      line = "func (" ++ self ++ " *" ++ receiver ++ ") " ++ name ++ "(" ++ rest →
      Begins (.method receiver name) line

/-- The lines of a declaration that begin something at the top level are those that begin what it
declares, in this order. -/
theorem lines_begin (declaration : Declaration) :
    List.Forall₂ Head.Begins declaration.heads (declaration.lines.filter opens) := by
  cases declaration with
  | client title baseUrl =>
    simp only [Declaration.lines, filter_client]
    apply List.Forall₂.cons
    · exact .type "struct \x7b" rfl
    · apply List.Forall₂.cons _ .nil
      exact .function "httpClient *http.Client, baseURL string) (*Client, error) \x7b" rfl
  | errorResponse =>
    simp only [Declaration.lines, filter_errorResponse]
    apply List.Forall₂.cons
    · exact .type "struct \x7b" rfl
    · apply List.Forall₂.cons _ .nil
      exact .method "e" ") string \x7b" rfl
  | struct s =>
    simp only [Declaration.lines, filter_struct]
    apply List.Forall₂.cons _ .nil
    apply Head.Begins.type "struct \x7b"
    rw [String.append_assoc, String.append_assoc, String.append_assoc]
    rfl
  | named n =>
    simp only [Declaration.lines, filter_named]
    apply List.Forall₂.cons _ .nil
    split
    · apply Head.Begins.type ("= " ++ n.target.text)
      rw [String.append_assoc, String.append_assoc, String.append_assoc]
      rfl
    · exact .type n.target.text rfl
  | method m =>
    simp only [Declaration.lines, filter_method]
    apply List.Forall₂.cons _ .nil
    apply Head.Begins.method "cl" (m.argumentsText ++ ") (" ++ m.resultsText ++ ") \x7b")
    have hstart : "func (cl *Client) " = "func (" ++ "cl" ++ " *" ++ "Client" ++ ") " := rfl
    rw [hstart]
    simp only [String.append_assoc]

namespace Head

/-- The name that a head takes in the package. Methods have names of their own on each type. -/
def packageName? : Head → Option String
  | type name | function name => some name
  | method _ _ => none

def clientMethod? : Head → Option String
  | method receiver name => if receiver = "Client" then some name else none
  | type _ | function _ => none

end Head

namespace File

/-- All that is declared at the top level. -/
def heads (file : File Declaration) : List Head := file.declarations.flatMap fun p => p.2.heads

/-- The names of the types and functions of the package. -/
def packageNames (file : File Declaration) : List String :=
  file.heads.filterMap Head.packageName?

def clientMethods (file : File Declaration) : List String :=
  file.heads.filterMap Head.clientMethod?

end File

variable {d : Document} {options : Options} {file : File Declaration} {own : Members Declaration}

/-- Where each declaration declares one thing, that has the name which is recorded. -/
theorem Single.sublist (h : Single own) {f : Head → Option String}
    (htype : ∀ name, f (.type name) = some name ∨ f (.type name) = none)
    (hmethod : ∀ name, f (.method "Client" name) = some name ∨ f (.method "Client" name) = none) :
    List.Sublist ((own.flatMap fun p => p.2.heads).filterMap f) own.names := by
  induction own with
  | nil => exact .slnil
  | cons p rest ih =>
    obtain ⟨hp, hrest⟩ := List.forall_mem_cons.mp h
    have hfirst : List.Sublist (p.2.heads.filterMap f) [p.1] := by
      rcases hp with he | he
      · rw [he]
        rcases htype p.1 with hf | hf <;> simp [hf]
      · rw [he]
        rcases hmethod p.1 with hf | hf <;> simp [hf]
    rw [List.flatMap_cons, List.filterMap_append]
    exact hfirst.append (ih hrest)

theorem heads_of_generate (h : (generate d options).1 = .ok file) :
    ∃ own, Single own ∧
      file.heads = [.type "Client", .function "NewClient", .type "ErrorResponse",
        .method "ErrorResponse" "Error"] ++ own.flatMap (fun p => p.2.heads) ∧
      ("Client" :: "ErrorResponse" :: own.names).Nodup := by
  obtain ⟨own, hown, hdeclarations⟩ := single_of_generate h
  obtain ⟨_, -, -, hdistinct⟩ := declarations_of_generate h
  refine ⟨own, hown, ?_, ?_⟩
  · rw [File.heads, hdeclarations, List.flatMap_append]
    rfl
  · rw [File.names, hdeclarations] at hdistinct
    exact hdistinct

theorem clientMethods_nodup (h : (generate d options).1 = .ok file) :
    file.clientMethods.Nodup := by
  obtain ⟨own, hown, hheads, hdistinct⟩ := heads_of_generate h
  have hsublist : List.Sublist ((own.flatMap fun p => p.2.heads).filterMap Head.clientMethod?)
      own.names :=
    hown.sublist (fun _ => Or.inr rfl) (fun _ => Or.inl rfl)
  obtain ⟨-, hnames⟩ := List.nodup_cons.mp hdistinct
  rw [File.clientMethods, hheads, List.filterMap_append]
  exact hsublist.nodup (List.nodup_cons.mp hnames).2

theorem Single.mem_packageNames_iff (h : Single own) (name : String) :
    name ∈ (own.flatMap fun p => p.2.heads).filterMap Head.packageName? ↔
      .type name ∈ own.flatMap fun p => p.2.heads := by
  constructor
  · intro hm
    obtain ⟨head, hhead, hname⟩ := List.mem_filterMap.mp hm
    obtain ⟨p, hp, hin⟩ := List.mem_flatMap.mp hhead
    rcases h p hp with he | he
    · rw [he] at hin
      obtain rfl := List.mem_singleton.mp hin
      obtain rfl := Option.some.inj hname
      exact hhead
    · rw [he] at hin
      obtain rfl := List.mem_singleton.mp hin
      cases hname
  · intro hm
    exact List.mem_filterMap.mpr ⟨_, hm, rfl⟩

theorem packageNames_nodup_iff (h : (generate d options).1 = .ok file) :
    file.packageNames.Nodup ↔ .type "NewClient" ∉ file.heads := by
  obtain ⟨own, hown, hheads, hdistinct⟩ := heads_of_generate h
  have hsublist : List.Sublist ((own.flatMap fun p => p.2.heads).filterMap Head.packageName?)
      own.names :=
    hown.sublist (fun _ => Or.inl rfl) (fun _ => Or.inr rfl)
  have hnew : .type "NewClient" ∈ file.heads ↔
      "NewClient" ∈ (own.flatMap fun p => p.2.heads).filterMap Head.packageName? := by
    rw [hown.mem_packageNames_iff, hheads]
    simp
  have hnames : file.packageNames = "Client" :: "NewClient" :: "ErrorResponse" ::
      (own.flatMap fun p => p.2.heads).filterMap Head.packageName? := by
    rw [File.packageNames, hheads, List.filterMap_append]
    rfl
  rw [hnames, hnew]
  generalize (own.flatMap fun p => p.2.heads).filterMap Head.packageName? = types at hsublist
  constructor
  · intro hn hm
    obtain ⟨hfirst, -⟩ := List.nodup_cons.mp (List.nodup_cons.mp hn).2
    exact hfirst (List.mem_cons_of_mem _ hm)
  · intro hm
    have hown : ("Client" :: "ErrorResponse" :: types).Nodup :=
      ((hsublist.cons_cons _).cons_cons _).nodup hdistinct
    obtain ⟨hclient, herror⟩ := List.nodup_cons.mp hown
    refine List.nodup_cons.mpr ⟨?_, List.nodup_cons.mpr ⟨?_, herror⟩⟩
    · simpa using hclient
    · simpa using hm

theorem not_ok_of_repeated (h : ¬ (calledFor d).names.Nodup) (file : File Declaration) :
    (generate d options).1 ≠ .ok file := by
  intro hg
  obtain ⟨_, -, -, hdistinct⟩ := declarations_of_generate hg
  rw [File.names, ← names_roles, roles_of_generate hg] at hdistinct
  exact h hdistinct

/-- In a client that is generated the methods of the client have different names, and so have the
types and functions of the package, unless a type is named like the constructor. No client is
generated from a document that calls for a name twice, and if nothing else is wrong with the
document, that is the reason which is given. -/
theorem generate_distinct (d : Document) (options : Options) :
    (∀ file, (generate d options).1 = .ok file →
      file.clientMethods.Nodup ∧ (file.packageNames.Nodup ↔ .type "NewClient" ∉ file.heads)) ∧
    (¬ (calledFor d).names.Nodup →
      (∀ file, (generate d options).1 ≠ .ok file) ∧
      (Generatable (Known d) d → ∃ fault name, (generate d options).1 = .error fault ∧
        fault.cause = .declaredTwice name)) := by
  constructor
  · intro file h
    exact ⟨clientMethods_nodup h, packageNames_nodup_iff h⟩
  · intro hrepeated
    refine ⟨not_ok_of_repeated hrepeated, ?_⟩
    intro hd
    cases hg : (generate d options).1 with
    | ok file => exact absurd hg (not_ok_of_repeated hrepeated file)
    | error fault =>
      obtain ⟨name, hname⟩ := hd.declaredTwice hg
      exact ⟨fault, name, rfl, hname⟩

namespace Clash

def agent : Schema := { types := some (.single .string) }

/-- Two definitions whose names become one. -/
def document : Document :=
  { swagger := "2.0", definitions := [("agent", agent), ("Agent", agent)] }

theorem generatable : Generatable (Known document) document := by
  have hagent : Fits (Known document) .named agent := by
    have hkind : agent.kind = .primitive .string := by decide
    exact .primitive hkind
  constructor
  · intro p hp
    rcases List.mem_cons.mp hp with rfl | hp
    · exact hagent
    · rw [List.mem_singleton.mp hp]
      exact hagent
  · intro p hp
    exact absurd hp List.not_mem_nil

end Clash

theorem fleet_distinct :
    (∃ file, (generate Fleet.document {}).1 = .ok file ∧ file.clientMethods.Nodup ∧
      file.packageNames.Nodup) ∧
    ∃ fault name, (generate Clash.document {}).1 = .error fault ∧
      fault.cause = .declaredTwice name := by
  constructor
  · obtain ⟨file, hfile⟩ := exists_file Fleet.generates
    obtain ⟨hmethods, hpackage⟩ := (generate_distinct Fleet.document {}).1 file hfile
    have hheads : (generate Fleet.document {}).1.toOption.all
        fun file => !file.heads.contains (.type "NewClient") := by decide +kernel
    rw [hfile] at hheads
    refine ⟨file, hfile, hmethods, hpackage.mpr ?_⟩
    simpa [Except.toOption] using hheads
  · have hrepeated : ¬ (calledFor Clash.document).names.Nodup := by decide
    exact ((generate_distinct Clash.document {}).2 hrepeated).2 Clash.generatable

namespace Constructor

/-- A definition that is named like the function which comes with the client. -/
def document : Document :=
  { swagger := "2.0"
    host := some "h.example"
    definitions := [("NewClient", { types := some (.single .object) })] }

end Constructor

/-- The constructor's name is not recorded, so it is free for a definition. -/
theorem constructor_declared_twice :
    ∃ file, (generate Constructor.document {}).1 = .ok file ∧ ¬ file.packageNames.Nodup := by
  have hsome : (generate Constructor.document {}).1.toOption.isSome := by decide
  obtain ⟨file, hfile⟩ := exists_file hsome
  have hnames : (generate Constructor.document {}).1.toOption.all
      fun file => file.packageNames = ["Client", "NewClient", "ErrorResponse", "NewClient"] := by
    decide
  rw [hfile] at hnames
  have hnames : file.packageNames = ["Client", "NewClient", "ErrorResponse", "NewClient"] := by
    simpa [Except.toOption] using hnames
  refine ⟨file, hfile, ?_⟩
  rw [hnames]
  decide

end ApiContract.GoClient
