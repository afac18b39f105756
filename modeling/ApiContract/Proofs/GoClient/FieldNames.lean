import ApiContract.Proofs.GoClient.Headings
import ApiContract.Proofs.GoClient.Structs
import ApiContract.Proofs.Text.Range
import ApiContract.Proofs.Text.SnakeCase
import Mathlib.Data.List.Nodup

namespace ApiContract.GoClient

open Emit Naming Text

def opensStruct (line : String) : Bool :=
  "type ".toList.isPrefixOf line.toList && " struct \x7b".toList.isSuffixOf line.toList

/-- The lines between the braces of the first struct. -/
def structBody (lines : List String) : List String :=
  ((lines.dropWhile fun line => !opensStruct line).drop 1).takeWhile (· ≠ "\x7d")

/-- The name of the field on a line. An embedded type, which may stand behind an asterisk, is a
field of its own name. -/
def memberName (line : String) : String :=
  String.ofList ((line.toList.dropWhile fun c => c = '\t' || c = '*').takeWhile (· ≠ ' '))

/-- The names of the fields of a struct, or of none. -/
def memberNames (lines : List String) : List String := (structBody lines).map memberName

variable {lines : List String} {line property : String} {f : Field} {t : StructDeclaration}

theorem opens_of_opensStruct (h : opensStruct line) : opens line := by
  rw [opens, Bool.or_eq_true]
  exact Or.inl (Bool.and_eq_true_iff.mp h).1

theorem structBody_append {first : List String} (h : first.filter opens = [])
    (rest : List String) : structBody (first ++ rest) = structBody rest := by
  have hskip : ∀ line ∈ first, !opensStruct line := by
    intro line hl
    have hopens := List.filter_eq_nil_iff.mp h line hl
    simpa using mt opens_of_opensStruct hopens
  rw [structBody, structBody, List.dropWhile_append_of_pos hskip]

theorem structBody_cons {header : String} {body : List String} (h : opensStruct header)
    (hbody : ∀ line ∈ body, line ≠ "\x7d") (rest : List String) :
    structBody (header :: (body ++ "\x7d" :: rest)) = body := by
  have hbody : ∀ line ∈ body, decide (line ≠ "\x7d") = true := by simpa using hbody
  rw [structBody, List.dropWhile_cons_of_neg (by simp [h]), List.drop_one, List.tail_cons,
    List.takeWhile_append_of_pos hbody, List.takeWhile_cons_of_neg (by decide), List.append_nil]

/-- Where no line but the last begins a struct there is no field. -/
theorem structBody_eq_nil (h : ∀ line ∈ lines.dropLast, ¬ opensStruct line) :
    structBody lines = [] := by
  cases lines using List.reverseRecOn with
  | nil => rfl
  | append_singleton first last _ =>
    rw [List.dropLast_concat] at h
    have hskip : ∀ line ∈ first, !opensStruct line := by simpa using h
    rw [structBody, List.dropWhile_append_of_pos hskip]
    cases hl : opensStruct last <;> simp [hl]

theorem memberName_line (h : ∀ c ∈ f.name.toList, 0x30 ≤ c.toNat) (nameWidth typeWidth : Nat) :
    memberName (f.line nameWidth typeWidth) = f.name := by
  have hblank : ∀ c ∈ f.name.toList, decide (c ≠ ' ') = true := by
    intro c hc
    have hle := h c hc
    simp only [ne_eq, decide_not, Bool.not_eq_true', decide_eq_false_iff_not]
    rintro rfl
    exact absurd hle (by decide)
  -- the name, then blanks up to the width of the names and one more
  obtain ⟨rest, hline⟩ : ∃ rest, (f.line nameWidth typeWidth).toList =
      '\t' :: (f.name.toList ++ ' ' :: rest) := by
    cases hw : nameWidth - f.name.length with
    | zero => exact ⟨_, by simp [Field.line, pad, hw]; rfl⟩
    | succ n => exact ⟨_, by simp [Field.line, pad, hw, List.replicate_succ]; rfl⟩
  have hstart : (f.name.toList ++ ' ' :: rest).dropWhile (fun c => c = '\t' || c = '*') =
      f.name.toList ++ ' ' :: rest := by
    cases hn : f.name.toList with
    | nil => rfl
    | cons c cs =>
      have hle := h c (by simp [hn])
      rw [List.cons_append, List.dropWhile_cons_of_neg]
      simp only [Bool.or_eq_true, decide_eq_true_eq]
      rintro (rfl | rfl) <;> exact absurd hle (by decide)
  rw [memberName, hline, List.dropWhile_cons_of_pos (by decide), hstart,
    List.takeWhile_append_of_pos hblank, List.takeWhile_cons_of_neg (by decide), List.append_nil,
    String.ofList_toList]

theorem memberNames_struct (h : ∀ f ∈ t.fields, ∀ c ∈ f.name.toList, 0x30 ≤ c.toNat) :
    memberNames t.lines =
      (if t.embedsError then ["ErrorResponse"] else []) ++ t.fields.map Field.name := by
  have hopen : opensStruct ("type " ++ t.name ++ " struct \x7b") := by
    simp [opensStruct, List.isPrefixOf, List.isSuffixOf]
  obtain ⟨nameWidth, typeWidth, hlines⟩ : ∃ nameWidth typeWidth,
      t.lines = commentLines t.description ++ ("type " ++ t.name ++ " struct \x7b") ::
        (((if t.embedsError then ["\t*ErrorResponse"] else []) ++
          t.fields.map (Field.line nameWidth typeWidth)) ++ "\x7d" :: []) :=
    ⟨widest (t.fields.map Field.name), widest (t.fields.map (·.type.text)), by
      simp [StructDeclaration.lines]⟩
  have hclose : ∀ line ∈ (if t.embedsError then ["\t*ErrorResponse"] else []) ++
      t.fields.map (Field.line nameWidth typeWidth), line ≠ "\x7d" := by
    rw [List.forall_mem_append, List.forall_mem_map]
    constructor
    · split <;> decide
    · intro f _ hf
      have htab := congrArg String.toList hf
      simp [Field.line] at htab
  rw [memberNames, hlines, structBody_append (filter_commentLines _), structBody_cons hopen hclose,
    List.map_append, List.map_map]
  congr 1
  · split <;> rfl
  · apply List.map_congr_left
    exact fun f hf => memberName_line (h f hf) _ _

theorem memberNames_named (n : NamedDeclaration) : memberNames n.lines = [] := by
  have hlast : n.lines.dropLast = commentLines n.description := by
    simp [NamedDeclaration.lines]
  have hnone : ∀ line ∈ n.lines.dropLast, ¬ opensStruct line := by
    intro line hl
    rw [hlast] at hl
    exact mt opens_of_opensStruct
      (List.filter_eq_nil_iff.mp (filter_commentLines n.description) line hl)
  rw [memberNames, structBody_eq_nil hnone, List.map_nil]

theorem memberNames_method (m : MethodDeclaration) : memberNames m.lines = [] := by
  have hnone : ∀ line ∈ m.lines, ¬ opensStruct line := by
    intro line hl hs
    have hm : line ∈ m.lines.filter opens :=
      List.mem_filter.mpr ⟨hl, opens_of_opensStruct hs⟩
    rw [filter_method, List.mem_singleton] at hm
    subst hm
    simp [opensStruct, List.isPrefixOf] at hs
  rw [memberNames, structBody_eq_nil fun line hl => hnone line (List.dropLast_subset _ hl),
    List.map_nil]

theorem memberNames_client (title baseUrl : String) :
    memberNames (clientLines title baseUrl) = ["httpClient", "baseURL"] := by
  have hcomment : [if title = "" then "// Client calls the API."
      else "// Client calls the " ++ title ++ " API."].filter opens = [] := by
    apply Indented.filter_cons
    split
    · exact indented_ofList _ _ (by decide)
    · exact ((indented_ofList _ _ (by decide)).append _).append _
  have hopen : opensStruct "type Client struct \x7b" := by decide
  have hclose : ∀ line ∈ ["\thttpClient *http.Client", "\tbaseURL    *url.URL"],
      line ≠ "\x7d" := by decide
  rw [memberNames, clientLines, ← List.singleton_append, structBody_append hcomment]
  exact congrArg (List.map memberName) (structBody_cons hopen hclose _)

theorem memberNames_errorResponse : memberNames errorResponseLines = ["Code", "Message"] := by
  decide

theorem isWordCharacter_of_mem_fieldName (property : String) :
    ∀ c ∈ (fieldName property).toList, isWordCharacter c := by
  have hname := isWordCharacter_of_mem_camelCase property
  unfold fieldName
  dsimp only
  split
  · simp [isWordCharacter]
  · split
    · rw [String.toList_append]
      exact List.forall_mem_append.mpr ⟨by simp [isWordCharacter], hname⟩
    · exact hname

/-- A name in snake case needs no `X`. -/
theorem fieldName_of_snake (h : isSnakeCase property) :
    fieldName property = camelCase property := by
  have hread := flatMap_uncapitalized_camelCase h
  unfold fieldName
  dsimp only
  split
  · rename_i hnil
    rw [hnil] at hread
    cases hread
  · rename_i c rest hcons
    rw [if_neg]
    intro hdigit
    rw [hcons, List.flatMap_cons, uncapitalized_of_snake (by simp [hdigit])] at hread
    obtain ⟨rfl, -⟩ := List.cons.inj hread
    exact absurd hdigit (by decide)

theorem fieldName_injective {a b : String} (ha : isSnakeCase a) (hb : isSnakeCase b)
    (h : fieldName a = fieldName b) : a = b := by
  rw [fieldName_of_snake ha, fieldName_of_snake hb] at h
  exact camelCase_injective ha hb h

/-- The properties of an object get fields of different names, none of which is that of the type
that the struct embeds. -/
def Apart (properties : List (String × Schema)) (embeds : Bool) : Prop :=
  (properties.map fun p => fieldName p.1).Nodup ∧
    (embeds → ∀ p ∈ properties, fieldName p.1 ≠ "ErrorResponse")

theorem nodup_structOf (name : String) (s : Schema) (embeds : Bool) :
    (memberNames (structOf name s embeds).lines).Nodup ↔ Apart s.properties embeds := by
  have hfields : (structOf name s embeds).fields.map Field.name =
      s.properties.map fun p => fieldName p.1 := by
    simp [structOf, fieldOf, Function.comp_def]
  have hrange : ∀ f ∈ (structOf name s embeds).fields, ∀ c ∈ f.name.toList, 0x30 ≤ c.toNat :=
    List.forall_mem_map.mpr fun p _ c hc =>
      le_of_isWordCharacter (isWordCharacter_of_mem_fieldName p.1 c hc)
  have hembeds : (structOf name s embeds).embedsError = embeds := rfl
  rw [memberNames_struct hrange, hfields, hembeds, Apart]
  cases embeds with
  | false => simp
  | true =>
    rw [if_pos rfl, List.singleton_append, List.nodup_cons, and_comm]
    apply and_congr_right
    intro _
    rw [List.mem_map, not_exists]
    simp [not_and]

/-- Properties in snake case, none of which is called like the type that the struct embeds. -/
def Conventional (properties : List (String × Schema)) (embeds : Bool) : Prop :=
  (properties.map Prod.fst).Nodup ∧ (∀ p ∈ properties, isSnakeCase p.1) ∧
    (embeds → ∀ p ∈ properties, p.1 ≠ "error_response")

instance (properties : List (String × Schema)) (embeds : Bool) :
    Decidable (Conventional properties embeds) :=
  inferInstanceAs (Decidable (_ ∧ _ ∧ _))

theorem Conventional.apart {properties : List (String × Schema)} {embeds : Bool}
    (h : Conventional properties embeds) : Apart properties embeds := by
  obtain ⟨hnodup, hsnake, herror⟩ := h
  constructor
  · have hinj : ∀ a ∈ properties.map Prod.fst, ∀ b ∈ properties.map Prod.fst,
        fieldName a = fieldName b → a = b := by
      rw [List.forall_mem_map]
      intro p hp
      rw [List.forall_mem_map]
      exact fun q hq => fieldName_injective (hsnake p hp) (hsnake q hq)
    have hmap := List.Nodup.map_on hinj hnodup
    rwa [List.map_map] at hmap
  · intro hembeds p hp hname
    have hspelt : fieldName "error_response" = "ErrorResponse" := by decide
    rw [← hspelt] at hname
    exact herror hembeds p hp (fieldName_injective (hsnake p hp) (by decide) hname)

variable {d : Document} {options : Options} {file : File Declaration}

theorem nodup_of_generate (h : (generate d options).1 = .ok file) :
    (∀ p ∈ file.declarations, (memberNames p.2.lines).Nodup) ↔
      ∀ o ∈ structured d, Apart o.2.1.properties o.2.2 := by
  have heach : (∀ p ∈ file.declarations, (memberNames p.2.lines).Nodup) ↔
      EachStruct (fun t => (memberNames t.lines).Nodup) file.declarations := by
    apply forall₂_congr
    intro p _
    cases hp : p.2 with
    | client => simp [Declaration.lines, memberNames_client]
    | errorResponse => simp [Declaration.lines, memberNames_errorResponse]
    | struct t => simp [Declaration.lines]
    | named n => simp [Declaration.lines, memberNames_named]
    | method m => simp [Declaration.lines, memberNames_method]
  have hempty : ∀ t : StructDeclaration, t.fields = [] → (memberNames t.lines).Nodup := by
    intro t ht
    rw [memberNames_struct (by simp [ht]), ht]
    split <;> simp
  rw [heach, eachStruct_of_generate hempty h]
  simp only [EachObject, nodup_structOf]

/-- The fields of every struct of a client have different names exactly if the properties of every
object are spelt apart, which they are in snake case. The types
that properties get of their own have different names in any client. -/
theorem fields_of_generate (h : (generate d options).1 = .ok file) :
    ((∀ p ∈ file.declarations, (memberNames p.2.lines).Nodup) ↔
      ∀ o ∈ structured d, Apart o.2.1.properties o.2.2) ∧
    ((∀ o ∈ structured d, Conventional o.2.1.properties o.2.2) →
      ∀ p ∈ file.declarations, (memberNames p.2.lines).Nodup) ∧
    ∀ o ∈ structured d, (o.2.1.properties.filterMap (ownTypeName? o.1)).Nodup := by
  refine ⟨nodup_of_generate h, fun hconventional => ?_, fun o => nodup_ownTypeNames h⟩
  exact (nodup_of_generate h).mpr fun o ho => (hconventional o ho).apart

theorem fleet_fields :
    ∃ file, (generate Fleet.document {}).1 = .ok file ∧
      (∀ p ∈ file.declarations, (memberNames p.2.lines).Nodup) ∧
      ∀ o ∈ structured Fleet.document, (o.2.1.properties.filterMap (ownTypeName? o.1)).Nodup := by
  obtain ⟨file, hfile⟩ := exists_file Fleet.generates
  obtain ⟨-, hconventional, htypes⟩ := fields_of_generate hfile
  exact ⟨file, hfile, hconventional (by decide), htypes⟩

namespace Alike

/-- A definition with two properties that are spelt alike. -/
def document : Document :=
  { swagger := "2.0"
    host := some "h.example"
    definitions := [("account", { properties := [("user_id", { types := some (.single .string) }),
      ("userId", { types := some (.single .string) })] })] }

end Alike

/-- Two properties become fields of one name. -/
theorem field_declared_twice :
    ∃ file, (generate Alike.document {}).1 = .ok file ∧
      ∃ p ∈ file.declarations, memberNames p.2.lines = ["UserId", "UserId"] ∧
        ¬ (memberNames p.2.lines).Nodup := by
  have hsome : (generate Alike.document {}).1.toOption.isSome := by decide
  obtain ⟨file, hfile⟩ := exists_file hsome
  have htwice : (generate Alike.document {}).1.toOption.any fun file =>
      file.declarations.any fun p => memberNames p.2.lines = ["UserId", "UserId"] := by
    decide
  rw [hfile] at htwice
  obtain ⟨p, hp, hnames⟩ := List.any_eq_true.mp htwice
  have hnames := of_decide_eq_true hnames
  exact ⟨file, hfile, p, hp, hnames, by simp [hnames]⟩

end ApiContract.GoClient
