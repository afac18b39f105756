import ApiContract.Proofs.GoClient.References
import ApiContract.Proofs.GoClient.Silence

namespace ApiContract

namespace Text

variable {separates : Char → Bool} {cs : List Char}

theorem pieces_append (a b : List Char) {c : Char} (hc : separates c) :
    pieces separates (a ++ c :: b) = pieces separates a ++ pieces separates b := by
  induction a with
  | nil => simp [pieces, hc]
  | cons x a ih =>
    rw [List.cons_append, pieces, pieces, ih]
    split
    · rfl
    · cases h : pieces separates a with
      | nil => exact absurd h (pieces_ne_nil separates a)
      | cons piece rest => rfl

theorem pieces_of_not_separates (h : ∀ c ∈ cs, separates c = false) :
    pieces separates cs = [cs] := by
  induction cs with
  | nil => rfl
  | cons c cs ih =>
    obtain ⟨hc, hrest⟩ := List.forall_mem_cons.mp h
    rw [pieces, ih hrest]
    simp [hc]

theorem joinWith_eq_intercalate (separator : List Char) (pieces : List (List Char)) :
    joinWith separator pieces = separator.intercalate pieces := by
  induction pieces with
  | nil => rfl
  | cons piece rest ih =>
    cases rest with
    | nil => simp [joinWith]
    | cons next rest => rw [joinWith, ih, List.intercalate_cons_cons]

end Text

namespace GoClient

/-- A line is neither blank nor a comment from its start. -/
def isCode (line : List Char) : Bool := !line.all Text.isBlank && !List.isPrefixOf ['/', '/'] line

/-- The lines of a text that are neither blank nor comments. -/
def codeLines (cs : List Char) : List (List Char) := (Text.pieces (· = '\n') cs).filter isCode

theorem codeLines_append (a b : List Char) :
    codeLines (a ++ '\n' :: b) = codeLines a ++ codeLines b := by
  rw [codeLines, Text.pieces_append a b (by decide), List.filter_append]
  rfl

theorem codeLines_intercalate (lines : List (List Char)) :
    codeLines (['\n'].intercalate lines) = lines.flatMap codeLines := by
  induction lines with
  | nil => rfl
  | cons line rest ih =>
    cases rest with
    | nil => simp
    | cons next rest =>
      rw [List.intercalate_cons_cons, List.append_assoc, List.singleton_append, codeLines_append,
        ih]
      rfl

/-- A comment that is one line has no code. -/
theorem codeLines_slashes {rest : List Char} (h : '\n' ∉ rest) :
    codeLines ('/' :: '/' :: rest) = [] := by
  have hline : ∀ c ∈ '/' :: '/' :: rest, decide (c = '\n') = false := by
    intro c hc
    simp only [List.mem_cons] at hc
    rcases hc with rfl | rfl | hc
    · rfl
    · rfl
    · exact decide_eq_false fun he => h (he ▸ hc)
  rw [codeLines, Text.pieces_of_not_separates hline]
  simp [isCode]

/-- Every line of a text is commented out. -/
theorem codeLines_comment (text : String) : codeLines (comment text).toList = [] := by
  rw [comment, String.toList_ofList, Text.joinWith_eq_intercalate, codeLines_intercalate]
  apply List.flatMap_eq_nil_iff.mpr
  intro line hl
  obtain ⟨source, hsource, rfl⟩ := List.mem_map.mp hl
  unfold commentLine
  split
  · exact codeLines_slashes List.not_mem_nil
  · apply codeLines_slashes
    intro hm
    rcases List.mem_cons.mp hm with he | hm
    · exact absurd he (by decide)
    · exact Text.newline_not_mem_of_mem_lines hsource ((Text.trimEnd_isPrefix source).subset hm)

theorem codeLines_commentLines (description : Option String) :
    (commentLines description).flatMap (codeLines ·.toList) = [] := by
  cases description with
  | none => rfl
  | some text =>
    unfold commentLines
    dsimp only
    split
    · rfl
    · simp [codeLines_comment]

/-- The comment with the title, which is written as it is. -/
def titleComment (title : String) : String :=
  if title = "" then "// Client calls the API." else "// Client calls the " ++ title ++ " API."

/-- The lines of code that a title leaves in the file, all after its first line. -/
def strayLines (title : String) : List (List Char) := codeLines (titleComment title).toList

theorem titleComment_toList {title : String} (h : '\n' ∉ title.toList) :
    ∃ rest, (titleComment title).toList = '/' :: '/' :: rest ∧ '\n' ∉ rest := by
  unfold titleComment
  split
  · exact ⟨" Client calls the API.".toList, rfl, by decide⟩
  · refine ⟨" Client calls the ".toList ++ title.toList ++ " API.".toList, by simp, ?_⟩
    simpa using h

theorem strayLines_of_not_mem {title : String} (h : '\n' ∉ title.toList) :
    strayLines title = [] := by
  obtain ⟨rest, hrest, hn⟩ := titleComment_toList h
  rw [strayLines, hrest, codeLines_slashes hn]

namespace Declaration

def codeLines (declaration : Declaration) : List (List Char) :=
  GoClient.codeLines declaration.text.toList

theorem codeLines_eq (declaration : Declaration) :
    declaration.codeLines = declaration.lines.flatMap (GoClient.codeLines ·.toList) := by
  have hnewline : "\n".toList = ['\n'] := rfl
  rw [codeLines, text, String.toList_intercalate, hnewline, codeLines_intercalate,
    List.flatMap_map]

/-- The declaration of the client has the code of the one without a title, after what the title
leaves. -/
theorem codeLines_client (title baseUrl : String) :
    (client title baseUrl).codeLines = strayLines title ++ (client "" baseUrl).codeLines := by
  obtain ⟨rest, hlines⟩ : ∃ rest, ∀ title, clientLines title baseUrl = titleComment title :: rest :=
    ⟨_, fun _ => rfl⟩
  have hnone : strayLines "" = [] := strayLines_of_not_mem (by decide)
  rw [codeLines_eq, codeLines_eq, lines, lines, hlines, hlines, List.flatMap_cons,
    List.flatMap_cons, ← strayLines, ← strayLines, hnone, List.nil_append]

theorem codeLines_deprecation (m : MethodDeclaration) :
    m.deprecationLines.flatMap (GoClient.codeLines ·.toList) =
      if m.deprecated then
        GoClient.codeLines ("// Deprecated: " ++ m.name ++ " is deprecated by the API.").toList
      else [] := by
  have hslashes : GoClient.codeLines ['/', '/'] = [] := codeLines_slashes List.not_mem_nil
  unfold MethodDeclaration.deprecationLines
  split
  · split
    · simp
    · simp [hslashes]
  · rfl

/-- Any other declaration has the code of the one without its texts. -/
theorem codeLines_silent {declaration : Declaration}
    (h : ∀ title baseUrl, declaration ≠ client title baseUrl) :
    declaration.silent.codeLines = declaration.codeLines := by
  rw [codeLines_eq, codeLines_eq]
  cases declaration with
  | client title baseUrl => exact absurd rfl (h title baseUrl)
  | errorResponse => rfl
  | struct s => simp [silent, lines, StructDeclaration.lines, codeLines_commentLines]
  | named n => simp [silent, lines, NamedDeclaration.lines, codeLines_commentLines]
  | method m =>
    simp only [silent, lines, MethodDeclaration.lines, List.flatMap_append,
      codeLines_commentLines, codeLines_deprecation]
    rfl

end Declaration

/-- What stands before the first declaration. -/
def preamble {α : Type} (f : File α) : String :=
  "// Code generated by swag. DO NOT EDIT.\n\npackage " ++ f.package ++ "\n" ++
    File.importText f.imports

theorem codeLines_fileText (f : File Declaration) :
    codeLines (fileText f).toList =
      codeLines (preamble f).toList ++ f.declarations.values.flatMap Declaration.codeLines := by
  have htext : ∀ (before : List Char) (declarations : List Declaration),
      codeLines (before ++ declarations.flatMap fun d => '\n' :: (d.text.toList ++ ['\n'])) =
        codeLines before ++ declarations.flatMap Declaration.codeLines := by
    intro before declarations
    induction declarations generalizing before with
    | nil => simp
    | cons first rest ih =>
      have hrest := ih []
      rw [List.nil_append] at hrest
      rw [List.flatMap_cons, List.cons_append, codeLines_append, List.append_assoc,
        List.singleton_append, codeLines_append, hrest]
      rfl
  have hfile : fileText f = preamble f ++
      String.join (f.declarations.values.map fun d => "\n" ++ d.text ++ "\n") := rfl
  have hjoin : (String.join (f.declarations.values.map fun d => "\n" ++ d.text ++ "\n")).toList =
      f.declarations.values.flatMap fun d => '\n' :: (d.text.toList ++ ['\n']) := by
    rw [String.toList_join, List.flatMap_map]
    simp
  rw [hfile, String.toList_append, hjoin, htext]

variable {d e : Document} {options : Options} {f g : File Declaration}

def titleOf (d : Document) : String := (d.info.map Info.title).getD ""

/-- The code of a client is that of the client without its texts, but for what the title leaves
before the code of the first declaration. -/
theorem codeLines_of_generate (h : (generate d options).1 = .ok f) :
    codeLines (fileText f).toList =
      codeLines (preamble (f.map Declaration.silent)).toList ++ strayLines (titleOf d) ++
        (f.map Declaration.silent).declarations.values.flatMap Declaration.codeLines := by
  obtain ⟨own, hown, hdeclarations⟩ := single_of_generate h
  have hsilent : own.flatMap (fun p => p.2.silent.codeLines) =
      own.flatMap fun p => p.2.codeLines := by
    apply List.flatMap_congr
    intro p hp
    apply Declaration.codeLines_silent
    intro title baseUrl he
    rcases hown p hp with hheads | hheads
    · simp [he, Declaration.heads] at hheads
    · simp [he, Declaration.heads] at hheads
  obtain ⟨baseUrl, hsurface⟩ : ∃ baseUrl, surface d options =
      [("Client", .client (titleOf d) baseUrl), ("ErrorResponse", .errorResponse)] := ⟨_, rfl⟩
  rw [hsurface] at hdeclarations
  have hfull : f.declarations.values =
      .client (titleOf d) baseUrl :: .errorResponse :: own.map Prod.snd := by
    rw [hdeclarations]
    rfl
  have hsilenced : (f.map Declaration.silent).declarations.values =
      .client "" baseUrl :: .errorResponse :: own.map fun p => p.2.silent := by
    rw [File.map, hdeclarations, Members.values, List.map_map]
    rfl
  rw [codeLines_fileText, hfull, hsilenced, List.flatMap_cons, List.flatMap_cons,
    Declaration.codeLines_client, List.flatMap_cons, List.flatMap_cons, List.flatMap_map,
    List.flatMap_map, hsilent]
  simp only [List.append_assoc]
  rfl

/-- The clients of documents that differ in their texts at most have the same code, but for what the
titles leave at one place. -/
theorem codeLines_of_silent_eq (h : d.silent = e.silent) (hf : (generate d options).1 = .ok f)
    (hg : (generate e options).1 = .ok g) :
    ∃ before after, codeLines (fileText f).toList = before ++ strayLines (titleOf d) ++ after ∧
      codeLines (fileText g).toList = before ++ strayLines (titleOf e) ++ after := by
  have hsilent := generate_silent d options
  rw [h, generate_silent e options, hf, hg] at hsilent
  have hfile : g.map Declaration.silent = f.map Declaration.silent := Except.ok.inj hsilent
  have hcode := codeLines_of_generate hg
  rw [hfile] at hcode
  exact ⟨_, _, codeLines_of_generate hf, hcode⟩

theorem codeLines_eq_iff (h : d.silent = e.silent) (hf : (generate d options).1 = .ok f)
    (hg : (generate e options).1 = .ok g) :
    codeLines (fileText f).toList = codeLines (fileText g).toList ↔
      strayLines (titleOf d) = strayLines (titleOf e) := by
  obtain ⟨before, after, hf, hg⟩ := codeLines_of_silent_eq h hf hg
  rw [hf, hg, List.append_left_inj, List.append_right_inj]

/-- From documents that differ in their texts at most no client is generated for the same reason, or
two clients whose lines, without the blank ones and the comments, are the same but for those that
the titles leave at one place. They are the same if no title is broken into lines. -/
theorem texts_in_comments (d e : Document) (h : d.silent = e.silent) (options : Options) :
    (∃ fault, (generate d options).1 = .error fault ∧ (generate e options).1 = .error fault) ∨
    ∃ f g, (generate d options).1 = .ok f ∧ (generate e options).1 = .ok g ∧
      (∃ before after,
        codeLines (fileText f).toList = before ++ strayLines (titleOf d) ++ after ∧
        codeLines (fileText g).toList = before ++ strayLines (titleOf e) ++ after) ∧
      (codeLines (fileText f).toList = codeLines (fileText g).toList ↔
        strayLines (titleOf d) = strayLines (titleOf e)) ∧
      ('\n' ∉ (titleOf d).toList → '\n' ∉ (titleOf e).toList →
        codeLines (fileText f).toList = codeLines (fileText g).toList) := by
  have hsilent := generate_silent d options
  rw [h, generate_silent e options] at hsilent
  cases hd : (generate d options).1 with
  | error fault =>
    cases he : (generate e options).1 with
    | error other =>
      rw [hd, he] at hsilent
      cases hsilent
      exact Or.inl ⟨fault, rfl, rfl⟩
    | ok g => simp [hd, he, Except.map] at hsilent
  | ok f =>
    cases he : (generate e options).1 with
    | error fault => simp [hd, he, Except.map] at hsilent
    | ok g =>
      refine Or.inr ⟨f, g, rfl, rfl, codeLines_of_silent_eq h hd he,
        codeLines_eq_iff h hd he, ?_⟩
      intro hnd hne
      rw [codeLines_eq_iff h hd he, strayLines_of_not_mem hnd, strayLines_of_not_mem hne]

namespace Fleet

/-- The same document with texts for its readers. -/
def told : Document :=
  { document with
    info := some { title := "Fleet" }
    paths := [
      ("/vessels/{name}", {
        parameters := [.reference "#/parameters/name"]
        get := some { get with summary := some "Finds a vessel.\r\n\nreturn" } }),
      ("/vessels", {
        get := some { list with description := some "type Client" }, post := some create })]
    definitions := [
      ("vessel", { vessel with description := some "A vessel\n  \nand its crew.\n" }),
      ("agent", { types := some (.single .string), description := some " " })] }

end Fleet

theorem fleet_in_comments :
    Fleet.told.silent = Fleet.document.silent ∧
    ∃ f g, (generate Fleet.told {}).1 = .ok f ∧ (generate Fleet.document {}).1 = .ok g ∧
      codeLines (fileText f).toList = codeLines (fileText g).toList := by
  have hsilent : Fleet.told.silent = Fleet.document.silent := rfl
  refine ⟨hsilent, ?_⟩
  obtain ⟨file, hfile⟩ := exists_file Fleet.generates
  rcases texts_in_comments Fleet.told Fleet.document hsilent {} with
    ⟨fault, -, hfault⟩ | ⟨f, g, hf, hg, -, -, hlines⟩
  · rw [hfile] at hfault
    cases hfault
  · exact ⟨f, g, hf, hg, hlines (by decide) (by decide)⟩

namespace Entitled

def document (title : String) : Document :=
  { swagger := "2.0", info := some { title }, host := some "h.example" }

def injected : String := "func init() \x7b panic(0) \x7d"

/-- A title of three lines, of which the second is a function. -/
def broken : String := "x\n" ++ injected ++ "\n//"

end Entitled

/-- What follows a line break in the title is not in a comment. -/
theorem title_leaves_comment :
    (Entitled.document Entitled.broken).silent = (Entitled.document "x").silent ∧
    ∃ f g, (generate (Entitled.document Entitled.broken) {}).1 = .ok f ∧
      (generate (Entitled.document "x") {}).1 = .ok g ∧
      Entitled.injected.toList ∈ codeLines (fileText f).toList ∧
      codeLines (fileText f).toList ≠ codeLines (fileText g).toList := by
  have hsilent : (Entitled.document Entitled.broken).silent =
      (Entitled.document "x").silent := rfl
  have hsome : ∀ title, (generate (Entitled.document title) {}).1.toOption.isSome := by
    intro title
    rfl
  have hstray : strayLines Entitled.broken = [Entitled.injected.toList] := by decide
  have hnone : strayLines "x" = [] := strayLines_of_not_mem (by decide)
  refine ⟨hsilent, ?_⟩
  obtain ⟨f, hf⟩ := exists_file (hsome Entitled.broken)
  obtain ⟨g, hg⟩ := exists_file (hsome "x")
  have htitles : titleOf (Entitled.document Entitled.broken) = Entitled.broken ∧
      titleOf (Entitled.document "x") = "x" := ⟨rfl, rfl⟩
  obtain ⟨before, after, hcode, -⟩ := codeLines_of_silent_eq hsilent hf hg
  have hiff := codeLines_eq_iff hsilent hf hg
  rw [htitles.1, hstray] at hcode
  rw [htitles.1, htitles.2, hstray, hnone] at hiff
  refine ⟨f, g, hf, hg, ?_, by simp [hiff]⟩
  rw [hcode]
  simp

end GoClient

end ApiContract
