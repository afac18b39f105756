import ApiContract.Document.Load
import ApiContract.Proofs.Document.Reread
import ApiContract.Proofs.Json.Nearest
import ApiContract.Proofs.Source.JsonText

namespace ApiContract

open Source

namespace Source

/-- The value of a JSON text, with every number as near as a number can be held. -/
def exactValue (text : String) : Except DecodeFault Json :=
  readAlone kept (ofTokens .whole (Json.tokens Json.Numeral.nearest text.toList))

/-- No number of a text is read as another one than the nearest. -/
def ReadsNearest (text : String) : Prop :=
  Json.tokens Json.Numeral.value text.toList = Json.tokens Json.Numeral.nearest text.toList

theorem exactValue_eq {text : String} (h : ReadsNearest text) :
    exactValue text = readJson .whole kept text := by
  rw [exactValue, readJson, ofJsonText, h]

end Source

namespace Document

variable {d : Document} {text : String}

theorem exists_of_ofText (h : ofText .json text = .ok d) :
    ∃ v, ofJsonText .whole text = (v, false) ∧ PlainWith Number.Valid State.deepest v ∧
      read .json v = .ok d ∧ d.swagger = supportedVersion := by
  unfold ofText at h
  split at h
  · rename_i d' hd'
    unfold checkVersion at h
    split at h <;> cases h
    rename_i hversion
    have hplain := plain_ofJsonText .whole text
    rcases hv : ofJsonText .whole text with ⟨v, overrun⟩
    rw [decode, readJson, hv] at hd'
    obtain ⟨a, ha, hd'⟩ := ok_of_bind hd'
    cases overrun <;> cases hd'
    exact ⟨v, rfl, by rwa [hv] at hplain, ha, hversion⟩
  · cases h

theorem ofText_of_read {v : Source} (hv : ofJsonText .whole text = (v, false))
    (hd : read .json v = .ok d) (hversion : d.swagger = supportedVersion) :
    ofText .json text = .ok d := by
  have hdecode : decode .json text = .ok d := by
    rw [decode, readJson, hv, readAlone, hd]
    rfl
  rw [ofText, hdecode]
  exact if_pos hversion

theorem readAlone_kept {found : Source × Bool} {v : Source} {j : Json} (hv : found = (v, false))
    (hj : v.kept = .ok j) : readAlone kept found = .ok j := by
  rw [hv, readAlone, hj]
  rfl

theorem faithful_json {n : Nat} : Faithful n .document (read .json) json reread :=
  faithful nofun

/-- What a document is written as is what stands in its text. -/
theorem ofJsonText_text {v : Source} (hplain : Plain State.deepest v) (hd : read .json v = .ok d)
    (hn : ∀ n ∈ d.json.numbers, n.ReadsBack) :
    ofJsonText .whole d.text = (ofJson d.json, false) := by
  obtain ⟨input, hinput, hcarried⟩ := faithful_json.carried v d hplain hd
  exact ofJsonText_pretty (Nat.le_trans hcarried.depth_le (hplain.kept_ofJson hinput).1) hn

theorem ofText_reread (h : ofText .json text = .ok d) (hn : ∀ n ∈ d.json.numbers, n.ReadsBack) :
    ofText .json d.text = .ok d.reread := by
  obtain ⟨v, hv, hsound, hd, hversion⟩ := exists_of_ofText h
  exact ofText_of_read (ofJsonText_text hsound.plain hd hn)
    (faithful_json.again v d hsound.plain hd) hversion

/-- A text whose value is read as a document with some property is loaded as it. -/
theorem exists_ofText {input : Json} {P : Document → Bool}
    (hv : ofJsonText .whole text = (ofJson input, false))
    (h : (read .json (ofJson input)).toOption.any
      (fun d => d.swagger = supportedVersion && P d) = true) :
    ∃ d, ofText .json text = .ok d ∧ P d = true := by
  cases hd : read .json (ofJson input) with
  | error fault =>
    rw [hd] at h
    cases h
  | ok d =>
    rw [hd, Except.toOption, Option.any_some, Bool.and_eq_true, decide_eq_true_eq] at h
    exact ⟨d, ofText_of_read hv hd h.1, h.2⟩

/-- A document with most kinds of members that may be left out, filled in or kept. -/
def sample : Json := .object [
  ("swagger", .string "2.0"), ("info", .object [("x-a", .array [.number (.integer (-1)), .number
    (.double ⟨false, 5629499534213120, -51⟩)])]),
  ("paths", .object [("/a", .object [("get", .object [
    ("parameters", .array [
      .object [("$ref", .string "#/parameters/P"), ("x-b", .bool true)],
      .object [("name", .string "q"), ("in", .object [("query", .null)]), ("type", .null),
        ("$ref", .null)]]),
    ("responses", .object [("200", .object [("description", .string ""), ("schema", .object [
      ("type", .array [.string "object", .string "null"]),
      ("items", .array [.object [], .object [("enum", .array [.string "a"])]])])])])])])]),
  ("definitions", .object []), ("x-d", .null)]

theorem exists_ofText_sample :
    ∃ d, ofText .json (sample.pretty ++ "\n") = .ok d ∧ ∀ n ∈ d.json.numbers, n.ReadsBack := by
  have hv := ofJsonText_pretty (v := sample) (by decide) (by decide +kernel)
  obtain ⟨d, hd, hn⟩ := exists_ofText hv
    (P := fun d => d.json.numbers.all fun n => decide n.ReadsBack) (by decide +kernel)
  exact ⟨d, hd, by simpa using hn⟩

/-- What is written for a document that was loaded says the value that was loaded, but for what
writing may change. That is the value of the text that was loaded, if none of its numbers is read as
another one than the nearest, and it is loaded again, if the printed numbers are read back. -/
theorem ofText_carried (h : ofText .json text = .ok d) :
    ∃ input, readJson .whole kept text = .ok input ∧ Carried .document input d.json ∧
      exactValue d.text = .ok d.json ∧ (ReadsNearest text → exactValue text = .ok input) ∧
      ((∀ n ∈ d.json.numbers, n.ReadsBack) → readJson .whole kept d.text = .ok d.json) := by
  obtain ⟨v, hv, ⟨hplain, hvalid⟩, hd, -⟩ := exists_of_ofText h
  obtain ⟨input, hinput, hcarried⟩ := faithful_json.carried v d hplain hd
  have hread : readJson .whole kept text = .ok input := readAlone_kept hv hinput
  have hkept : (ofJson d.json).kept = .ok d.json :=
    kept_of_carried hcarried (hplain.kept_ofJson hinput).2
  have hdepth : d.json.depth ≤ State.deepest :=
    Nat.le_trans hcarried.depth_le (hplain.kept_ofJson hinput).1
  have hnumbers : ∀ n ∈ d.json.numbers, n.ReadBy Json.Numeral.nearest := fun n hn =>
    Number.readBy_nearest (hvalid n (hplain.has_of_kept hinput n (hcarried.mem_numbers hn)))
  refine ⟨input, hread, hcarried, ?_, fun hnearest => ?_, fun hn => ?_⟩
  · exact readAlone_kept (ofTokens_pretty hdepth hnumbers) hkept
  · rw [exactValue_eq hnearest, hread]
  · exact readAlone_kept (ofJsonText_text hplain hd hn) hkept

theorem sample_carried :
    ∃ d, ofText .json (sample.pretty ++ "\n") = .ok d ∧
      ∃ input, readJson .whole kept (sample.pretty ++ "\n") = .ok input ∧
        Carried .document input d.json ∧ exactValue d.text = .ok d.json ∧
        exactValue (sample.pretty ++ "\n") = .ok input ∧
        readJson .whole kept d.text = .ok d.json := by
  have hnearest : ReadsNearest (sample.pretty ++ "\n") :=
    (Json.tokens_pretty (by decide +kernel)).trans (Json.tokens_pretty (by decide +kernel)).symm
  obtain ⟨d, hd, hn⟩ := exists_ofText_sample
  obtain ⟨input, hinput, hcarried, hwritten, hexact, hagain⟩ := ofText_carried hd
  exact ⟨d, hd, input, hinput, hcarried, hwritten, hexact hnearest, hagain hn⟩

/-- A document of one schema, with a maximum. -/
def bounded (x : Double) : Json := .object [
  ("swagger", .string "2.0"),
  ("definitions", .object [("A", .object [("maximum", .number (.double x))])])]

/-- The largest number of single precision. -/
def largestSingle : Double := ⟨false, 9007198717870080, 75⟩

/-- The double that comes after `largestSingle`. -/
def nextDouble : Double := ⟨false, 9007198717870081, 75⟩

theorem readAlone_bounded (x : Double) :
    readAlone kept (ofTokens .whole (Json.tokensOf (bounded x))) = .ok (bounded x) :=
  readAlone_kept (ofTokens_tokensOf (Nat.le_of_ble_eq_true rfl)) rfl

theorem not_carried_bounded {x y : Double} (h : x ≠ y) :
    ¬ Carried .document (bounded x) (bounded y) := fun hc =>
  h (Number.double.inj (List.mem_singleton.mp
    (hc.mem_numbers (n := .double y) List.mem_cons_self))).symm

def boundedText : String :=
  "\x7b\"swagger\": \"2.0\", \"definitions\": \x7b\"A\": " ++
    "\x7b\"maximum\": 3.4028234663852886e38\x7d\x7d\x7d"

/-- The maximum of the text is neither what is written nor what is read back of that. -/
theorem bounded_strays :
    ∃ d, ofText .json boundedText = .ok d ∧ (ofJsonText .whole boundedText).1.Unrepeated ∧
      (∃ input output, exactValue boundedText = .ok input ∧ exactValue d.text = .ok output ∧
        ¬ Carried .document input output) ∧
      ∃ input output, readJson .whole kept boundedText = .ok input ∧
        readJson .whole kept d.text = .ok output ∧ ¬ Carried .document input output := by
  have hread : Json.tokens Json.Numeral.value boundedText.toList =
      Json.tokensOf (bounded nextDouble) := by with_unfolding_all rfl
  have hexact : Json.tokens Json.Numeral.nearest boundedText.toList =
      Json.tokensOf (bounded largestSingle) := by with_unfolding_all rfl
  have hreread : Json.tokens Json.Numeral.value ((bounded nextDouble).pretty ++ "\n").toList =
      Json.tokensOf (bounded largestSingle) := by with_unfolding_all rfl
  have hwritten : Json.tokens Json.Numeral.nearest ((bounded nextDouble).pretty ++ "\n").toList =
      Json.tokensOf (bounded nextDouble) := by with_unfolding_all rfl
  have hfound : ofJsonText .whole boundedText = (ofJson (bounded nextDouble), false) := by
    rw [ofJsonText, hread, ofTokens_tokensOf (Nat.le_of_ble_eq_true rfl)]
  obtain ⟨d, hd, hjson⟩ := exists_ofText hfound (P := fun d => d.json = bounded nextDouble)
    (by decide +kernel)
  have htext : d.text = (bounded nextDouble).pretty ++ "\n" := by
    rw [Document.text, of_decide_eq_true hjson]
  have hunrepeated : (ofJsonText .whole boundedText).1.Unrepeated := by
    rw [hfound]
    exact ⟨_, rfl, rfl⟩
  refine ⟨d, hd, hunrepeated,
    ⟨bounded largestSingle, bounded nextDouble, ?_, ?_, not_carried_bounded (by decide)⟩,
    ⟨bounded nextDouble, bounded largestSingle, ?_, ?_, not_carried_bounded (by decide)⟩⟩
  · rw [exactValue, hexact, readAlone_bounded]
  · rw [exactValue, htext, hwritten, readAlone_bounded]
  · rw [readJson, ofJsonText, hread, readAlone_bounded]
  · rw [readJson, ofJsonText, htext, hreread, readAlone_bounded]

/-- The text of a document that was loaded is loaded again. It gives the same document exactly if no
parameter of a path or operation keeps a reference that was not taken for one, and so it does if no
name was given twice in the text that was loaded. -/
theorem ofText_text (h : ofText .json text = .ok d) (hn : ∀ n ∈ d.json.numbers, n.ReadsBack) :
    ofText .json d.text = .ok d.reread ∧
      (ofText .json d.text = .ok d ↔ ∀ entry ∈ d.entries, entry.hidesReference = false) ∧
      ((ofJsonText .whole text).1.Unrepeated → ofText .json d.text = .ok d) := by
  have hagain := ofText_reread h hn
  have hiff : ofText .json d.text = .ok d ↔ ∀ entry ∈ d.entries, entry.hidesReference = false := by
    rw [hagain, Except.ok.injEq, d.reread_eq_iff]
  obtain ⟨v, hv, -, hd, -⟩ := exists_of_ofText h
  refine ⟨hagain, hiff, fun hunrepeated => hiff.mpr ?_⟩
  rw [hv] at hunrepeated
  exact (keeps_references .json).of_unrepeated hunrepeated hd

theorem sample_reloads :
    (ofJsonText .whole (sample.pretty ++ "\n")).1.Unrepeated ∧
      ∃ d, ofText .json (sample.pretty ++ "\n") = .ok d ∧ (∀ n ∈ d.json.numbers, n.ReadsBack) ∧
        ofText .json d.text = .ok d := by
  have hunrepeated : (ofJsonText .whole (sample.pretty ++ "\n")).1.Unrepeated := by
    rw [ofJsonText_pretty (by decide) (by decide +kernel)]
    exact ⟨sample, rfl, rfl⟩
  obtain ⟨d, hd, hn⟩ := exists_ofText_sample
  exact ⟨hunrepeated, d, hd, hn, (ofText_text hd hn).2.2 hunrepeated⟩

/-- A parameter that gives its reference twice. -/
def repeated : Json := .object [
  ("swagger", .string "2.0"),
  ("paths", .object [("/a", .object [("parameters", .array [.object [
    ("name", .string "x"), ("in", .string "query"), ("$ref", .string "#/parameters/A"),
    ("$ref", .string "#/parameters/B")]])])])]

theorem repeated_reloads_otherwise :
    ∃ d again, ofText .json (repeated.pretty ++ "\n") = .ok d ∧
      (∀ n ∈ d.json.numbers, n.ReadsBack) ∧ ofText .json d.text = .ok again ∧ again ≠ d ∧
      again.text ≠ d.text := by
  have hv := ofJsonText_pretty (v := repeated) (by decide) (by decide +kernel)
  obtain ⟨d, hd, h⟩ := exists_ofText hv
    (P := fun d => d.json.numbers.all (fun n => decide n.ReadsBack) &&
      decide (d.reread.text ≠ d.text)) (by decide +kernel)
  simp only [Bool.and_eq_true, List.all_eq_true, decide_eq_true_eq] at h
  exact ⟨d, d.reread, hd, h.1, ofText_reread hd h.1, fun he => h.2 (congrArg text he), h.2⟩

end Document

end ApiContract
