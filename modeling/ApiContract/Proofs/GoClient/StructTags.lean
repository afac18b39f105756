import ApiContract.Proofs.GoClient.StructFields
import ApiContract.Proofs.GoClient.Tag
import ApiContract.Proofs.Text.Letter

namespace ApiContract.GoClient

open Emit Naming Text

/-- The punctuation that may stand in the name of a member. -/
def memberPunctuation : List Char := "!#$%&()*+-./:;<=>?@[]^_\x7b|\x7d~ ".toList

/-- The names that the library for JSON takes from a tag. -/
def isMemberName (name : List Char) : Bool :=
  !name.isEmpty && name.all fun c => memberPunctuation.contains c || isLetter c || isDecimal c

/-- Only what begins with a capital letter is seen by other packages. -/
def isExported (field : List Char) : Bool :=
  field.head?.any fun c => isLetter c && isUppercase c

/-- The member of an object that a field is written to and read from: the name in its tag, or its
own name where the tag has none that is taken. -/
def member? (field literal : List Char) : Option (List Char) :=
  let value := ((rawText? literal).bind (tagValue? "json".toList)).getD []
  if !isExported field ∨ value = ['-'] then none
  else if isMemberName (jsonName value) then some (jsonName value) else some field

theorem member?_of_carries {field literal name : List Char} {isRequired : Bool}
    (h : Carries literal name isRequired) :
    member? field literal = some name ↔
      isExported field ∧ (isMemberName name ∨ field = name) := by
  obtain ⟨value, hvalue, hhyphen, hname, -⟩ := h.json
  unfold member?
  simp only [hvalue, Option.getD_some, hname, hhyphen, or_false]
  cases isExported field <;> cases isMemberName name <;> simp

variable {d : Document} {name parent : String} {required : List String} {s : Schema}
  {p : String × Schema} {f : Field} {declared : StructDeclaration}

/-- What the tag of the field for a property says: it ends the line of the field, carries the name
of the property if nothing in the name is special, and then makes the field stand for this member
if the name is taken. -/
structure Tagged (required : List String) (p : String × Schema) (f : Field) : Prop where
  line : ∀ nameWidth typeWidth, f.tags.toList <:+ (f.line nameWidth typeWidth).toList
  carries : Carries f.tags.toList p.1.toList (p.1 ∈ required) ↔
    (∀ c ∈ p.1.toList, c ∉ special) ∧ ¬ (p.1 ∈ required ∧ p.1 = "-")
  member : Carries f.tags.toList p.1.toList (p.1 ∈ required) →
    (member? f.name.toList f.tags.toList = some p.1.toList ↔
      isExported f.name.toList ∧ (isMemberName p.1.toList ∨ f.name = p.1))

theorem FieldFor.tags_toList (h : FieldFor d parent required p f) :
    f.tags.toList =
      '\x60' :: (tagText p.1.toList (omission (p.1 ∈ required)) ++ ['\x60']) := by
  rw [h.tags, h.jsonTag]
  by_cases hr : p.1 ∈ required <;> simp [hr, tagText, omission]

theorem FieldFor.tagged (h : FieldFor d parent required p f) : Tagged required p f := by
  constructor
  case line =>
    intro nameWidth typeWidth
    exact ⟨_, String.toList_append.symm⟩
  case carries =>
    have hhyphen : p.1.toList = ['-'] ↔ p.1 = "-" := by
      rw [← String.toList_inj]
      rfl
    rw [h.tags_toList, carries_iff, hhyphen, decide_eq_true_iff]
  case member =>
    intro hc
    rw [member?_of_carries hc, String.toList_inj]

theorem StructFor.tagged (h : StructFor d name s declared) :
    List.Forall₂ (Tagged s.required) s.properties declared.fields :=
  h.fields.imp fun _ _ => FieldFor.tagged

/-- In every struct that is declared for an object and the objects within it, the fields are tagged
as the properties ask for, each in its place. -/
theorem emitStruct_tags (d : Document) (name : String) (s : Schema) (embeds : Bool)
    (draft draft' : Draft) (h : emitStruct d name s embeds draft = (.ok (), draft')) :
    ∃ (inner : List StructDeclaration) (declared : StructDeclaration),
      draft'.file.declarations = draft.file.declarations ++
        (inner ++ [declared]).map (fun t => (t.name, .struct t)) ∧
      List.Forall₂ (Tagged s.required) s.properties declared.fields ∧
      List.Forall₂ (fun o t => List.Forall₂ (Tagged o.2.required) o.2.properties t.fields)
        (objectsOfProperties name s.properties) inner := by
  obtain ⟨inner, declared, hdeclarations, hstruct, hinner⟩ := structs_of_emitStruct h
  refine ⟨inner, declared, hdeclarations, hstruct.tagged, ?_⟩
  exact hinner.imp fun _ _ hfor => hfor.2.tagged

namespace Fleet

/-- Two required properties, one of them with a name that marks fields that are left out. -/
def signal : Schema :=
  { properties := [("call_sign", { types := some (.single .string) }),
      ("-", { types := some (.single .string) })]
    required := ["call_sign", "-"] }

end Fleet

open Fleet in
/-- The call sign of a signal is carried, the hyphen is not. -/
theorem signal_tags :
    ∃ draft' declared f g, emitStruct document "Signal" signal false empty = (.ok (), draft') ∧
      draft'.file.declarations = [("Signal", .struct declared)] ∧ declared.fields = [f, g] ∧
      Carries f.tags.toList "call_sign".toList true ∧
      member? f.name.toList f.tags.toList = some "call_sign".toList ∧
      ¬ Carries g.tags.toList "-".toList true := by
  have hok : (emitStruct document "Signal" signal false empty).1 = .ok () := by decide
  obtain ⟨draft', hrun⟩ := exists_draft hok
  obtain ⟨inner, declared, hdeclarations, hfields, hinner⟩ :=
    emitStruct_tags document "Signal" signal false empty draft' hrun
  have hnames : (emitStruct document "Signal" signal false empty).2.file.declarations =
      [("Signal", .struct (structOf "Signal" signal false))] := by decide +kernel
  have hnone : inner = [] := List.forall₂_nil_left_iff.mp hinner
  have hstart : (empty : Draft).file.declarations = [] := rfl
  rw [hrun, hdeclarations, hnone, hstart] at hnames
  obtain ⟨-, rfl⟩ : _ ∧ declared = structOf "Signal" signal false := by simpa using hnames
  obtain ⟨hsign, hrest⟩ := List.forall₂_cons.mp hfields
  obtain ⟨hhyphen, -⟩ := List.forall₂_cons.mp hrest
  have hsign_carried := hsign.carries.mpr (by simp [special, signal])
  refine ⟨draft', _, _, _, hrun, by rw [hdeclarations, hnone]; rfl, rfl, hsign_carried, ?_, ?_⟩
  · exact (hsign.member hsign_carried).mpr (by decide)
  · exact fun hcarried => (hhyphen.carries.mp hcarried).2 (by decide)

namespace Quoted

/-- A property with a quote in its name. -/
def document : Document :=
  { swagger := "2.0"
    host := some "h.example"
    definitions := [("quoted", { properties := [("a\"b", { types := some (.single .string) })] })] }

end Quoted

/-- A quote in the name of a property ends the value in the tag. -/
theorem quote_ends_tag :
    ∃ file declared f, (generate Quoted.document {}).1 = .ok file ∧
      ("Quoted", .struct declared) ∈ file.declarations ∧ f ∈ declared.fields ∧
      f.property = "a\"b" ∧ (rawText? f.tags.toList).bind (tagValue? "json".toList) = some ['a'] ∧
      ¬ Carries f.tags.toList "a\"b".toList false := by
  have hsome : (generate Quoted.document {}).1.toOption.isSome := by decide
  obtain ⟨file, hfile⟩ := exists_file hsome
  have hdeclared : (generate Quoted.document {}).1.toOption.all
      fun file => file.declarations.contains ("Quoted", .struct (structOf "Quoted"
        { properties := [("a\"b", { types := some (.single .string) })] } false)) := by
    decide +kernel
  rw [hfile] at hdeclared
  have htype : Fits (Known Quoted.document) .field { types := some (.single .string) } :=
    .primitive (p := .string) rfl
  have hfield := fieldFor_fieldOf (p := ("a\"b", _)) htype "Quoted" []
  have htags : (fieldOf "Quoted" [] ("a\"b", { types := some (.single .string) })).tags.toList =
      '\x60' :: (tagText "a\"b".toList (omission false) ++ ['\x60']) := hfield.tags_toList
  refine ⟨file, _, _, hfile, by simpa [Except.toOption] using hdeclared, List.mem_singleton.mpr rfl,
    rfl, ?_, ?_⟩
  · have hvalue : unquoted? ['a'] = some ['a'] := unquoted?_self (by simp)
    rw [htags, rawText?_tagText, if_neg (by decide), Option.bind_some, tagValue?_json]
    exact hvalue
  · rw [htags, carries_iff]
    exact fun hplain => absurd (hplain.1 '"' (by decide)) (by decide)

end ApiContract.GoClient
