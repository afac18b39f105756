import ApiContract.Proofs.GoClient.Literal
import ApiContract.Proofs.GoClient.Spellings

namespace ApiContract.GoClient

open Reader

namespace Declaration

/-- The names that the heading of the function in a declaration binds. -/
def bound : Declaration → List String
  | client _ _ => ["httpClient", "baseURL"]
  | errorResponse => ["e"]
  | struct _ | named _ => []
  | method m => m.signature

/-- The code of a declaration uses a package: its name stands before a dot outside of the body of a
function, or in a body where it is not that of a variable. -/
def Uses (declaration : Declaration) (name : String) : Prop :=
  .qualifies name ∈ declaration.outerUsages ∨
    .qualifies name ∈ declaration.innerUsages ∧ name ∉ declaration.bound ∧
      .declares name ∉ declaration.innerUsages

end Declaration

variable {cs rest : List Char} {us vs : List Usage} {lines more : List String}
  {line s : String} {f : Field} {t : StructDeclaration} {n : NamedDeclaration}
  {m : MethodDeclaration} {declaration : Declaration} {title : String}

/-- Lines in which no name stands before a dot. -/
def Undotted (lines : List String) : Prop := ∃ us, Reads lines us ∧ ∀ x, .qualifies x ∉ us

theorem undotted_nil : Undotted [] := ⟨[], reads_nil, fun _ => List.not_mem_nil⟩

theorem Undotted.append (h : Undotted lines) (hm : Undotted more) : Undotted (lines ++ more) := by
  obtain ⟨us, hus, hnone⟩ := h
  obtain ⟨vs, hvs, hnomore⟩ := hm
  exact ⟨us ++ vs, hus.append hvs, fun x => List.not_mem_append (hnone x) (hnomore x)⟩

theorem undotted_map {α : Type} {as : List α} {f : α → String} (h : ∀ a ∈ as, Undotted [f a]) :
    Undotted (as.map f) := by
  induction as with
  | nil => exact undotted_nil
  | cons a rest ih =>
    obtain ⟨ha, hrest⟩ := List.forall_mem_cons.mp h
    exact ha.append (ih hrest)

theorem Silent.undotted (h : Silent lines) : Undotted lines :=
  ⟨[], h.reads, fun _ => List.not_mem_nil⟩

theorem Fragment.undotted (h : Fragment line.toList us) (hu : ∀ x, .qualifies x ∉ us) :
    Undotted [line] := by
  obtain ⟨ts, hpending, rfl, hinner⟩ := h
  have hend : Lexed ['\n'] [.line] := rfl
  have hlex : LexedLine line ts := hpending.append_lexed hend rfl
  have hline : Token.line ∉ ts := fun hm => (hinner _ hm).1 rfl
  refine ⟨usages ts, ⟨List.forall_mem_singleton.mpr ⟨ts, hlex⟩, fun u => ?_⟩, fun x hx => ?_⟩
  · rw [List.flatMap_singleton, hlex.sentences_eq hline, List.flatMap_singleton]
  · rcases List.mem_append.mp hx with hx | hx
    · exact hu x hx
    · simp at hx

theorem Undotted.not_uses (h : Undotted declaration.lines) (hne : declaration.lines ≠ [])
    (x : String) : ¬ declaration.Uses x := by
  obtain ⟨us, hus, hnone⟩ := h
  rintro (hx | ⟨hx, -⟩)
  · exact hnone x (mem_of_mem_usages hne hus (.inl hx))
  · exact hnone x (mem_of_mem_usages hne hus (.inr hx))

theorem fixed_blanks (n : Nat) : Fixed (List.replicate n ' ') [] := by
  have hrun : run between (List.replicate n ' ') = (between, []) := by
    induction n with
    | zero => rfl
    | succ n ih =>
      have hblank : step between ' ' = (between, []) := rfl
      rw [List.replicate_succ, run, hblank, ih]
      rfl
  rw [Fixed, hrun]
  exact ⟨rfl, rfl, List.forall_mem_nil _⟩

/-- A part that is filled up with blanks. -/
theorem fragment_padded (width : Nat) (h : Fragment s.toList us) (hr : Fragment rest vs) :
    Fragment ((pad width s ++ " ").toList ++ rest) (us ++ vs) := by
  have hblanks : (pad width s ++ " ").toList ++ rest =
      s.toList ++ (List.replicate (width - s.length + 1) ' ' ++ rest) := by
    simp [pad, List.replicate_succ']
  rw [hblanks]
  exact h.append ((fixed_blanks _).append hr) rfl

theorem fragment_tags (h : '\x60' ∉ f.property.toList) : Fragment f.tags.toList [] := by
  have htag : '\x60' ∉ f.jsonTag.toList := by
    unfold Field.jsonTag
    split <;> simp [h]
  have htags : f.tags.toList = '\x60' :: ("json:\"".toList ++ f.jsonTag.toList ++
      "\" tfsdk:\"".toList ++ f.property.toList ++ ['"'] ++ ['\x60']) := by
    simp [Field.tags]
  have hinside : '\x60' ∉ "json:\"".toList ++ f.jsonTag.toList ++ "\" tfsdk:\"".toList ++
      f.property.toList ++ ['"'] := by
    simp [h, htag]
  rw [htags]
  exact ⟨_, (lexed_raw hinside).pending, rfl, by simp [Token.Inner]⟩

theorem undotted_field (h : Spelt f.name ∧ SpeltType f.type) (hq : '\x60' ∉ f.property.toList)
    (nameWidth typeWidth : Nat) : Undotted [f.line nameWidth typeWidth] := by
  have htab : Fixed "\t".toList [] := fixed_ofList _ (by decide)
  have htype := fragment_padded typeWidth (fragment_type h.2) (fragment_tags hq)
  have hname := htab.append (fragment_padded nameWidth h.1.fragment htype)
  have hline : (f.line nameWidth typeWidth).toList = "\t".toList ++
      ((pad nameWidth f.name ++ " ").toList ++ ((pad typeWidth f.type.text ++ " ").toList ++
        f.tags.toList)) := by
    unfold Field.line
    simp only [String.toList_append, List.append_assoc]
  rw [← hline] at hname
  apply hname.undotted
  simp [qualifies_not_mem_nameUsages, qualifies_not_mem_typeUsages]

/-- The code of a struct uses no package if no backtick ends one of its tags. -/
theorem not_uses_struct (h : SpeltDeclaration (.struct t))
    (hq : ∀ f ∈ t.fields, '\x60' ∉ f.property.toList) (x : String) :
    ¬ (Declaration.struct t).Uses x := by
  have hopen : Fixed "type ".toList [] := fixed_ofList _ (by decide)
  have hbrace : Joint " struct \x7b".toList [] := by decide
  have hheader : Fragment ("type " ++ t.name ++ " struct \x7b").toList (nameUsages t.name) := by
    have hall := hopen.append (h.1.fragment.close hbrace)
    simpa using hall
  have hembeds : Undotted (if t.embedsError then ["\t*ErrorResponse"] else []) := by
    split
    · exact ⟨[], reads_ofList _ (by decide), fun _ => List.not_mem_nil⟩
    · exact undotted_nil
  have hclose : Undotted ["\x7d"] := ⟨[], reads_ofList _ (by decide), fun _ => List.not_mem_nil⟩
  have hfields := undotted_map fun f hf => undotted_field (h.2 f hf) (hq f hf)
    (widest (t.fields.map Field.name)) (widest (t.fields.map (·.type.text)))
  have hlines : Undotted (Declaration.struct t).lines :=
    ((((silent_commentLines t.description).undotted.append (hheader.undotted fun x =>
      qualifies_not_mem_nameUsages x _)).append hembeds).append hfields).append hclose
  apply hlines.not_uses
  simp [Declaration.lines, StructDeclaration.lines]

theorem not_uses_named (h : SpeltDeclaration (.named n)) (x : String) :
    ¬ (Declaration.named n).Uses x := by
  have hopen : Fixed "type ".toList [] := fixed_ofList _ (by decide)
  have hsign : ∀ isAlias : Bool, Joint (if isAlias then " = " else " ").toList [] := by decide
  have hline : Fragment ("type " ++ n.name ++ (if n.isAlias then " = " else " ") ++
      n.target.text).toList (nameUsages n.name ++ typeUsages n.target) := by
    have hall := hopen.append (fragment_pair h.1 (hsign n.isAlias) (fragment_type h.2))
    simpa using hall
  have hlines : Undotted (Declaration.named n).lines :=
    (silent_commentLines n.description).undotted.append (hline.undotted fun x =>
      List.not_mem_append (qualifies_not_mem_nameUsages x _) (qualifies_not_mem_typeUsages x _))
  apply hlines.not_uses
  simp [Declaration.lines, NamedDeclaration.lines]

/-- The lines before the constructor, of which two come from the document. -/
theorem leads_clientType (h : '\n' ∉ title.toList) (baseUrl : String) :
    Leads ([titleComment title] ++ ["type Client struct \x7b", "\thttpClient *http.Client",
      "\tbaseURL    *url.URL", "\x7d", "",
      "// NewClient returns a Client that sends requests through httpClient, or",
      "// http.DefaultClient when httpClient is nil. An empty baseURL means"] ++
      ["// " ++ stringLiteral baseUrl ++ "."]) [.qualifies "http", .qualifies "url"] := by
  have htitle : Silent [titleComment title] := by
    obtain ⟨rest, hrest, hn⟩ := titleComment_toList h
    exact silent_slashes hn hrest
  have hbase : Silent ["// " ++ stringLiteral baseUrl ++ "."] := by
    have hn : '\n' ∉ ' ' :: ((stringLiteral baseUrl).toList ++ ['.']) := by
      simp [newline_not_mem_stringLiteral]
    exact silent_slashes hn (by simp)
  have hfixed : Leads ["type Client struct \x7b", "\thttpClient *http.Client",
      "\tbaseURL    *url.URL", "\x7d", "",
      "// NewClient returns a Client that sends requests through httpClient, or",
      "// http.DefaultClient when httpClient is nil. An empty baseURL means"]
      [.qualifies "http", .qualifies "url"] := by
    apply Leads.of_subset
    case h =>
      repeat apply Leads.cons_ofList _ (by decide +kernel)
      exact leads_nil
    case hu => decide +kernel
  exact (htitle.leads.append hfixed).append hbase.leads

theorem reads_constructor (baseUrl : String) :
    Reads (["\tif baseURL == \"\" \x7b"] ++ ["\t\tbaseURL = " ++ stringLiteral baseUrl] ++
      ["\t\x7d", "\tu, err := url.Parse(baseURL)", "\tif err != nil \x7b", "\t\treturn nil, err",
        "\t\x7d", "\tif !strings.HasSuffix(u.Path, \"/\") \x7b", "\t\tu.Path += \"/\"", "\t\x7d",
        "\tif httpClient == nil \x7b", "\t\thttpClient = http.DefaultClient", "\t\x7d",
        "\treturn &Client\x7bhttpClient: httpClient, baseURL: u\x7d, nil", "\x7d"])
      [.qualifies "url", .qualifies "strings", .qualifies "u", .qualifies "http", .builtin "nil",
        .declares "u", .declares "err"] := by
  have hif : Reads ["\tif baseURL == \"\" \x7b"] [] := reads_ofList _ (by decide)
  have hopen : Opening "\t\tbaseURL = ".toList [] [] := opening_ofList _ (by decide)
  have hbase : Reads ["\t\tbaseURL = " ++ stringLiteral baseUrl] _ :=
    hopen.reads (fragment_stringLiteral baseUrl) (by simp)
  refine (hif.append hbase).append ?_
  apply Reads.of_subset
  case h =>
    repeat apply Reads.cons_ofList _ (by decide)
    exact reads_nil
  case hu => decide

/-- The code of the client uses three packages if the title is one line. -/
theorem uses_client (h : '\n' ∉ title.toList) (baseUrl x : String) :
    (Declaration.client title baseUrl).Uses x ↔ x ∈ ["http", "url", "strings"] := by
  obtain ⟨houter, hinner⟩ : _ ∧ ∀ u, u ∈ (Declaration.client title baseUrl).innerUsages ↔ _ :=
    usages_of_heading_ofList _ [.qualifies "http", .builtin "string", .builtin "error"] (by rfl)
      (leads_clientType h baseUrl) (by decide +kernel) (reads_constructor baseUrl)
  rw [Declaration.Uses, houter, hinner, hinner]
  simp only [List.mem_cons, List.not_mem_nil, or_false, false_or, Usage.qualifies.injEq,
    reduceCtorEq, Usage.declares.injEq, Declaration.bound]
  grind

theorem uses_errorResponse (x : String) : Declaration.errorResponse.Uses x ↔ x = "fmt" := by
  have hfront : Leads ["// ErrorResponse is the body the API returns with a failure status.",
      "type ErrorResponse struct \x7b", "\tCode    string `json:\"code\" tfsdk:\"code\"`",
      "\tMessage string `json:\"message\" tfsdk:\"message\"`", "\x7d", ""]
      [.builtin "string"] := by
    apply Leads.of_subset
    case h =>
      repeat apply Leads.cons_ofList _ (by decide)
      exact leads_nil
    case hu => decide
  have hbody : Reads ["\treturn fmt.Sprintf(\"error %s: %s\", e.Code, e.Message)", "\x7d"]
      [.qualifies "fmt", .qualifies "e"] := by
    apply Reads.of_subset
    case h =>
      repeat apply Reads.cons_ofList _ (by decide)
      exact reads_nil
    case hu => decide
  obtain ⟨houter, hinner⟩ : _ ∧ ∀ u, u ∈ Declaration.errorResponse.innerUsages ↔ _ :=
    usages_of_heading_ofList _ [.builtin "string"] (by rfl) hfront (by decide) hbody
  rw [Declaration.Uses, houter, hinner, hinner]
  simp only [List.mem_cons, List.not_mem_nil, or_false, false_or, Usage.qualifies.injEq,
    reduceCtorEq, Declaration.bound]
  grind

/-- The packages that the body of a method may use. -/
def bodyPackages : List String := ["http", "json", "fmt", "errors", "io", "bytes", "strconv"]

theorem eq_strconv_of_mem_conversion {x : String} {conversion : Conversion}
    (h : .qualifies x ∈ conversion.usages []) : x = "strconv" := by
  cases conversion <;> simp_all [Conversion.usages]

/-- No variable is called like a package, apart from the arguments. -/
theorem free_of_mem_bodyPackages {x : String} (h : x ∈ bodyPackages) :
    x ∉ ["cl", "ctx", "u", "err", "r", "res", "errBody", "q", "body", "buf"] ∧
      ∀ a : Arm, x ≠ a.identifier := by
  constructor
  · have hnone : ∀ y ∈ bodyPackages,
        y ∉ ["cl", "ctx", "u", "err", "r", "res", "errBody", "q", "body", "buf"] := by decide
    exact hnone x h
  · rintro a rfl
    exact identifier_not_mem a (by decide) h

/-- The code of a method uses the context, and the packages that its body needs unless an argument
takes the name. -/
theorem uses_method (h : m.Spelt) (x : String) :
    (Declaration.method m).Uses x ↔ x = "context" ∨
      (x ∈ ["http", "json", "fmt", "errors", "io"] ∨ (m.hasBody ∧ x = "bytes") ∨
        ∃ c ∈ m.conversions, .qualifies x ∈ c.usages []) ∧
      x ∉ m.arguments.map Argument.identifier := by
  have hresults : x ∈ m.results.map Arm.identifier → ∃ a : Arm, x = a.identifier := by
    intro hx
    obtain ⟨a, -, rfl⟩ := List.mem_map.mp hx
    exact ⟨a, rfl⟩
  have hbound : x ∈ (Declaration.method m).bound ↔ x ∈ ["cl", "ctx", "err"] ∨
      x ∈ m.arguments.map Argument.identifier ∨ x ∈ m.results.map Arm.identifier := by
    simp only [Declaration.bound, MethodDeclaration.signature, List.mem_cons, List.mem_append,
      List.not_mem_nil, or_false]
    grind
  rw [Declaration.Uses, (usages_method h).1, qualifies_mem_innerUsages h,
    declares_mem_innerUsages h, hbound]
  apply or_congr_right
  constructor
  · rintro ⟨hx, hfree, hundeclared⟩
    simp only [List.mem_cons, List.not_mem_nil, or_false, not_or] at hx hfree hundeclared ⊢
    grind
  · rintro ⟨hx, hargument⟩
    have hpackage : x ∈ bodyPackages := by
      rcases hx with hx | ⟨-, rfl⟩ | ⟨c, -, hc⟩
      · exact (List.sublist_append_left _ ["bytes", "strconv"]).subset hx
      · decide
      · rw [eq_strconv_of_mem_conversion hc]
        decide
    obtain ⟨hfree, hresponse⟩ := free_of_mem_bodyPackages hpackage
    simp only [List.mem_cons, List.not_mem_nil, or_false, not_or] at hx hfree ⊢
    grind

end ApiContract.GoClient
