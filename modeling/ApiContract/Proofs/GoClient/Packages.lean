import ApiContract.Proofs.GoClient.DeclarationUsages
import ApiContract.Proofs.GoClient.Imports
import ApiContract.Proofs.GoClient.Structs

namespace ApiContract.GoClient

open Emit Naming

/-- The name that the package of an import goes by: the last part of its path. -/
def packageName (path : String) : String :=
  String.ofList (path.toList.reverse.takeWhile (· ≠ '/')).reverse

/-- The packages that the body of the method of an operation needs. -/
def neededPackages (path : String) (parameters : List Parameter) : List String :=
  ["http", "json", "fmt", "errors", "io"] ++
    (if ∃ p ∈ parameters, p.location = .body then ["bytes"] else []) ++
    (if ∃ p ∈ givenTo path parameters, Converted p then ["strconv"] else [])

variable {d : Document} {options : Options} {file : File Declaration} {path : String}
  {method : Method} {item : PathItem} {op : Operation} {parameters : List Parameter}
  {added : Members Declaration} {m : MethodDeclaration} {declaration : Declaration} {x : String}

theorem mem_neededPackages : x ∈ neededPackages path parameters ↔
    x ∈ ["http", "json", "fmt", "errors", "io"] ∨
      (x = "bytes" ∧ ∃ p ∈ parameters, p.location = .body) ∨
      (x = "strconv" ∧ ∃ p ∈ givenTo path parameters, Converted p) := by
  have hgiven : ∀ (c : Prop) [Decidable c] (name : String),
      x ∈ (if c then [name] else []) ↔ x = name ∧ c := by
    intro c _ name
    split <;> simp [*]
  rw [neededPackages, List.mem_append, List.mem_append, hgiven, hgiven, or_assoc]

/-- No argument is spared the name of a package. -/
theorem plain_of_mem_neededPackages (h : x ∈ neededPackages path parameters) :
    x ∉ keywords ++ methodLocals ∧ '_' ∉ x.toList := by
  have hfixed : ∀ y ∈ bodyPackages, y ∉ keywords ++ methodLocals ∧ '_' ∉ y.toList := by
    decide
  apply hfixed
  rcases mem_neededPackages.mp h with hx | ⟨rfl, -⟩ | ⟨rfl, -⟩
  · exact (List.sublist_append_left _ ["bytes", "strconv"]).subset hx
  · decide
  · decide

theorem MadeFrom.uses_iff (hm : MadeFrom path parameters op m) (h : m.Spelt) (x : String) :
    (Declaration.method m).Uses x ↔ x = "context" ∨
      x ∈ neededPackages path parameters ∧ x ∉ spellings path parameters := by
  have hneeded : (x ∈ ["http", "json", "fmt", "errors", "io"] ∨ (m.hasBody ∧ x = "bytes") ∨
      ∃ c ∈ m.conversions, .qualifies x ∈ c.usages []) ↔ x ∈ neededPackages path parameters := by
    rw [mem_neededPackages, hm.body, hm.qualifies_iff, and_comm (b := x = "bytes")]
  rw [uses_method h, hneeded]
  apply or_congr_right
  apply and_congr_right
  intro hx
  obtain ⟨hfree, hplain⟩ := plain_of_mem_neededPackages hx
  rw [hm.mem_arguments_iff hfree hplain]

/-- The tags of a struct are raw strings that nothing in them ends. -/
def Unbroken (t : StructDeclaration) : Prop := ∀ f ∈ t.fields, '\x60' ∉ f.property.toList

theorem not_uses_type (ht : IsType declaration) (h : SpeltDeclaration declaration)
    (hb : ∀ t, declaration = .struct t → Unbroken t) (x : String) : ¬ declaration.Uses x := by
  cases declaration with
  | struct t => exact not_uses_struct h (hb t rfl) x
  | named n => exact not_uses_named h x
  | client _ _ => cases ht
  | errorResponse => cases ht
  | method _ => cases ht

theorem OperationDeclared.operationParameters
    (h : OperationDeclared d path method item op added) :
    d.operationParameters item op = .ok (parametersOf d item op) := by
  cases h with
  | intro _ _ hp _ _ _ =>
    rw [parametersOf, hp]
    rfl

theorem OperationDeclared.uses_iff (h : OperationDeclared d path method item op added)
    (hb : EachStruct Unbroken added) (x : String) :
    (∃ p ∈ added, p.2.Uses x) ↔ x = "context" ∨
      x ∈ neededPackages path (parametersOf d item op) ∧
        x ∉ spellings path (parametersOf d item op) := by
  obtain ⟨types, m, rfl, -, htypes, hmade⟩ := h.madeFrom rfl h.operationParameters
  obtain ⟨hspelt, hmethod⟩ := allSpelt_append.mp h.allSpelt
  have hnone : ¬ ∃ p ∈ types, p.2.Uses x := by
    rintro ⟨p, hp, hx⟩
    exact not_uses_type (htypes p hp) (hspelt p hp) ((eachStruct_append.mp hb).1 p hp) x hx
  rw [← hmade.uses_iff (allSpelt_singleton.mp hmethod)]
  simp only [List.mem_append, or_and_right, exists_or, or_iff_right hnone, List.mem_singleton,
    exists_eq_left]

theorem OperationsDeclared.uses_iff
    {operations : List (String × PathItem × Method × Operation)}
    (h : OperationsDeclared d operations added) (hb : EachStruct Unbroken added) (x : String) :
    (∃ p ∈ added, p.2.Uses x) ↔ ∃ q ∈ operations, x = "context" ∨
      x ∈ neededPackages q.1 (parametersOf d q.2.1 q.2.2.2) ∧
        x ∉ spellings q.1 (parametersOf d q.2.1 q.2.2.2) := by
  induction h with
  | nil => simp
  | cons hq _ ih =>
    obtain ⟨hfirst, hrest⟩ := eachStruct_append.mp hb
    rw [List.exists_mem_cons_iff, ← hq.uses_iff hfirst, ← ih hrest]
    simp only [List.mem_append, or_and_right, exists_or]

/-- No property of an object that a struct is made for has a backtick in its name. -/
theorem eachObject_unbroken {objects : Members (Schema × Bool)}
    (h : ∀ o ∈ objects, ∀ p ∈ o.2.1.properties, '\x60' ∉ p.1.toList) :
    EachObject Unbroken objects :=
  fun o ho => List.forall_mem_map.mpr fun p hp => h o ho p hp

/-- The packages that the code of a client uses. -/
theorem uses_of_generate (h : (generate d options).1 = .ok file)
    (ht : '\n' ∉ (titleOf d).toList)
    (hp : ∀ o ∈ structured d, ∀ p ∈ o.2.1.properties, '\x60' ∉ p.1.toList) (x : String) :
    (∃ p ∈ file.declarations, p.2.Uses x) ↔ x ∈ ["fmt", "http", "url", "strings"] ∨
      ∃ q ∈ d.operations, x = "context" ∨
        x ∈ neededPackages q.1 (parametersOf d q.2.1 q.2.2.2) ∧
          x ∉ spellings q.1 (parametersOf d q.2.1 q.2.2.2) := by
  have hempty : ∀ t : StructDeclaration, t.fields = [] → Unbroken t := by
    intro t ht
    rw [Unbroken, ht]
    exact List.forall_mem_nil _
  have hunbroken : EachStruct Unbroken file.declarations :=
    (eachStruct_of_generate hempty h).mpr (eachObject_unbroken hp)
  have hspelt := allSpelt_of_generate h
  obtain ⟨operations, hoperations, hdeclarations, -⟩ := declarations_of_generate h
  rw [hdeclarations] at hunbroken hspelt ⊢
  obtain ⟨hfront, hlast⟩ := eachStruct_append.mp hunbroken
  have hsurface : (∃ p ∈ surface d options, p.2.Uses x) ↔
      x ∈ ["fmt", "http", "url", "strings"] := by
    have hclient := uses_client ht ((options.baseUrl.or d.defaultBaseUrl).getD "") x
    rw [titleOf] at hclient
    simp only [surface, List.mem_cons, List.not_mem_nil, or_false, exists_eq_or_imp,
      exists_eq_left, hclient, uses_errorResponse]
    grind
  have hdefinitions : ¬ ∃ p ∈ d.sortedDefinitions.flatMap definitionTypes, p.2.Uses x := by
    rintro ⟨p, hp, hx⟩
    obtain ⟨q, -, hq⟩ := List.mem_flatMap.mp hp
    exact not_uses_type (isType_definitionTypes q p hq)
      ((allSpelt_append.mp (allSpelt_append.mp hspelt).1).2 p hp)
      ((eachStruct_append.mp hfront).2 p hp) x hx
  rw [← hoperations.uses_iff hlast, ← hsurface]
  simp only [List.mem_append, or_and_right, exists_or, or_iff_left hdefinitions]

/-- The names of the packages that a client imports. -/
theorem mem_packageNames (h : (generate d options).1 = .ok file) (x : String) :
    x ∈ file.imports.map packageName ↔ x ∈ ["fmt", "http", "url", "strings"] ∨
      (d.operations ≠ [] ∧ x ∈ ["context", "json", "errors", "io"]) ∨
      (x = "bytes" ∧ ∃ q ∈ d.operations, ∃ p ∈ parametersOf d q.2.1 q.2.2.2,
        p.location = .body) ∨
      (x = "strconv" ∧ ∃ q ∈ d.operations,
        ∃ p ∈ givenTo q.1 (parametersOf d q.2.1 q.2.2.2), Converted p) := by
  have hsurface : surfaceImports.map packageName = ["fmt", "http", "url", "strings"] := by
    decide
  have hmethod : ["context", "encoding/json", "errors", "io"].map packageName =
      ["context", "json", "errors", "io"] := by
    decide
  have hone : ∀ {name : String} (c : Prop), packageName name = name →
      ((∃ a, (a = name ∧ c) ∧ packageName a = x) ↔ x = name ∧ c) := by
    rintro name c hname
    constructor
    · rintro ⟨_, ⟨rfl, hc⟩, rfl⟩
      exact ⟨hname, hc⟩
    · rintro ⟨rfl, hc⟩
      exact ⟨x, ⟨rfl, hc⟩, hname⟩
  have hbytes : packageName "bytes" = "bytes" := by decide
  have hstrconv : packageName "strconv" = "strconv" := by decide
  rw [← hsurface, ← hmethod]
  simp only [List.mem_map, mem_imports h, or_and_right, exists_or, and_assoc, exists_and_left]
  simp only [← and_assoc]
  rw [hone _ hbytes, hone _ hstrconv]

/-- What the method of an operation needs is imported. -/
theorem mem_packageNames_of_needed (h : (generate d options).1 = .ok file)
    {q : String × PathItem × Method × Operation} (hq : q ∈ d.operations)
    (hx : x ∈ neededPackages q.1 (parametersOf d q.2.1 q.2.2.2)) :
    x ∈ file.imports.map packageName := by
  have hsome := List.ne_nil_of_mem hq
  rw [mem_packageNames h]
  rcases mem_neededPackages.mp hx with hx | ⟨rfl, hbody⟩ | ⟨rfl, hconverted⟩
  · simp only [List.mem_cons, List.not_mem_nil, or_false] at hx ⊢
    grind
  · exact .inr (.inr (.inl ⟨rfl, q, hq, hbody⟩))
  · exact .inr (.inr (.inr ⟨rfl, q, hq, hconverted⟩))

/-- When a client is generated, it imports each package once, in order: four packages in any case,
four more exactly if there is an operation, the one for buffers exactly if an operation has a body
and the one for conversions exactly if one has an argument that is converted. If the title is one
line and no property of an object that is declared has a backtick in its name, then the code of the
client uses exactly the packages that it imports, save those whose name is taken by an argument in
the method of each operation that needs them. -/
theorem generate_imports (h : (generate d options).1 = .ok file) :
    file.imports.Pairwise (· < ·) ∧
    (∀ path, path ∈ file.imports ↔ path ∈ ["fmt", "net/http", "net/url", "strings"] ∨
      (d.operations ≠ [] ∧ path ∈ ["context", "encoding/json", "errors", "io"]) ∨
      (path = "bytes" ∧ ∃ q ∈ d.operations, ∃ p ∈ parametersOf d q.2.1 q.2.2.2,
        p.location = .body) ∨
      (path = "strconv" ∧ ∃ q ∈ d.operations,
        ∃ p ∈ givenTo q.1 (parametersOf d q.2.1 q.2.2.2), Converted p)) ∧
    ('\n' ∉ (titleOf d).toList →
      (∀ o ∈ structured d, ∀ p ∈ o.2.1.properties, '\x60' ∉ p.1.toList) →
      ∀ x, (∃ p ∈ file.declarations, p.2.Uses x) ↔ x ∈ file.imports.map packageName ∧
        (x ∈ ["fmt", "http", "url", "strings", "context"] ∨ ∃ q ∈ d.operations,
          x ∈ neededPackages q.1 (parametersOf d q.2.1 q.2.2.2) ∧
            x ∉ spellings q.1 (parametersOf d q.2.1 q.2.2.2))) := by
  refine ⟨ascending_imports h, mem_imports h, fun ht hp x => ?_⟩
  rw [uses_of_generate h ht hp]
  constructor
  · rintro (hx | ⟨q, hq, rfl | ⟨hx, hs⟩⟩)
    · exact ⟨(mem_packageNames h x).mpr (.inl hx), .inl (List.mem_append_left ["context"] hx)⟩
    · have hsome := List.ne_nil_of_mem hq
      exact ⟨(mem_packageNames h _).mpr (.inr (.inl ⟨hsome, by decide⟩)), .inl (by decide)⟩
    · exact ⟨mem_packageNames_of_needed h hq hx, .inr ⟨q, hq, hx, hs⟩⟩
  · rintro ⟨himported, hx | ⟨q, hq, hx, hs⟩⟩
    · have hx : x ∈ ["fmt", "http", "url", "strings"] ++ ["context"] := hx
      rcases List.mem_append.mp hx with hx | hx
      · exact .inl hx
      · obtain rfl := List.mem_singleton.mp hx
        obtain ⟨q, hq⟩ : ∃ q, q ∈ d.operations := by
          apply List.exists_mem_of_ne_nil
          simpa [mem_packageNames h] using himported
        exact .inr ⟨q, hq, .inl rfl⟩
    · exact .inr ⟨q, hq, .inr ⟨hx, hs⟩⟩

open Fleet in
/-- The code of the fleet uses exactly what is imported for it. -/
theorem fleet_imports :
    ∃ file, (generate document {}).1 = .ok file ∧
      ∀ x, (∃ p ∈ file.declarations, p.2.Uses x) ↔ x ∈ file.imports.map packageName := by
  obtain ⟨file, hfile⟩ := exists_file generates
  have himports : (generate document {}).1.toOption.map File.imports =
      some ["bytes", "context", "encoding/json", "errors", "fmt", "io", "net/http", "net/url",
        "strconv", "strings"] := by
    decide +kernel
  have htexts : '\n' ∉ (titleOf document).toList ∧
      ∀ o ∈ structured document, ∀ p ∈ o.2.1.properties, '\x60' ∉ p.1.toList := by
    decide
  have hneeded : ∀ x ∈ ["bytes", "context", "json", "errors", "fmt", "io", "http", "url",
      "strconv", "strings"], x ∈ ["fmt", "http", "url", "strings", "context"] ∨
        ∃ q ∈ document.operations, x ∈ neededPackages q.1 (parametersOf document q.2.1 q.2.2.2) ∧
          x ∉ spellings q.1 (parametersOf document q.2.1 q.2.2.2) := by
    decide
  have hnames : ["bytes", "context", "encoding/json", "errors", "fmt", "io", "net/http", "net/url",
      "strconv", "strings"].map packageName = ["bytes", "context", "json", "errors", "fmt", "io",
        "http", "url", "strconv", "strings"] := by
    decide
  rw [hfile] at himports
  obtain ⟨-, -, hused⟩ := generate_imports hfile
  refine ⟨file, hfile, fun x => ?_⟩
  rw [hused htexts.1 htexts.2, Option.some.inj himports, hnames]
  exact and_iff_left_of_imp (hneeded x)

namespace Hidden

/-- The only operation has a parameter that is called like a package. -/
def document : Document :=
  { swagger := "2.0"
    host := some "h.example"
    paths := [("/x", { get := some {
      parameters := [.inline
        { name := "json", location := .query, type := some .string, required := true }]
      responses := [("200", {})] } })] }

end Hidden

/-- A package is imported and an argument hides it from all code. -/
theorem argument_hides_package :
    ∃ file, (generate Hidden.document {}).1 = .ok file ∧ "encoding/json" ∈ file.imports ∧
      packageName "encoding/json" = "json" ∧ ∀ p ∈ file.declarations, ¬ p.2.Uses "json" := by
  have hsome : (generate Hidden.document {}).1.toOption.isSome := by decide
  obtain ⟨file, hfile⟩ := exists_file hsome
  have hoperation : Hidden.document.operations ≠ [] := by decide
  have htexts : '\n' ∉ (titleOf Hidden.document).toList ∧
      ∀ o ∈ structured Hidden.document, ∀ p ∈ o.2.1.properties, '\x60' ∉ p.1.toList := by
    decide
  have hname : packageName "encoding/json" = "json" := by decide
  have hunused := uses_of_generate hfile htexts.1 htexts.2 "json"
  refine ⟨file, hfile, ?_, hname, fun p hp hu => ?_⟩
  · exact (mem_imports hfile _).mpr (.inr (.inl ⟨hoperation, by decide⟩))
  · have hsome := hunused.mp ⟨p, hp, hu⟩
    exact absurd hsome (by decide)

end ApiContract.GoClient
