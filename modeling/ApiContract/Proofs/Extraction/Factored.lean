import ApiContract.Proofs.Extraction.Meaning
import ApiContract.Proofs.Extraction.Revisit

namespace ApiContract.Extraction

variable {d d' : Document} {rule : Rule} {outcome : Outcome} {name : String}

theorem Applies.definition_isSome (h : Applies d rule d' (.ok outcome)) :
    (d'.definitions.find? rule.definition).isSome ↔
      (outcome = .alreadyReferenced → (d.definitions.find? rule.definition).isSome) := by
  cases h with
  | alreadyReferenced => simp
  | reused hslot hs hne he ht =>
    have hthere := (Applies.reused hslot hs hne he ht).find?_isSome (Option.isSome_of_eq_some he)
    simp [hthere]
  | inserted => simp [Document.define, Members.find?_insert_self]

/-- After a rule that succeeds its slot refers to the rule's definition, and looking for the slot
again leads to the same one. A schema that was moved is the definition, up to the order of members.
The definition is there unless the rule found the reference in place: then it is there only if it
was before. -/
theorem applyRule_factors (h : (applyRule d rule).result = .ok outcome) :
    ∃ place old new, slotOf d rule = .ok place ∧ d.schemaAt? place = some old ∧
      (applyRule d rule).document.schemaAt? place = some new ∧
      new.referenceName = some rule.definition ∧
      (d.WellFormed → slotOf (applyRule d rule).document rule = .ok place) ∧
      (outcome ≠ .alreadyReferenced → ∃ e,
        (applyRule d rule).document.definitions.find? rule.definition = some e ∧
        Json.Alike e.json.canonical old.json.canonical) ∧
      (((applyRule d rule).document.definitions.find? rule.definition).isSome ↔
        (outcome = .alreadyReferenced → (d.definitions.find? rule.definition).isSome)) := by
  have ha := applies d rule
  rw [h] at ha
  generalize (applyRule d rule).document = d' at ha
  have hsome := ha.definition_isSome
  have hagain : ∀ place, slotOf d rule = .ok place → d.WellFormed → slotOf d' rule = .ok place :=
    fun _ hslot hw => ha.slotOf_again hw hslot
  cases ha with
  | @alreadyReferenced place s hslot hs hname =>
    exact ⟨place, s, s, hslot, hs, hs, hname, fun _ => hslot, fun hne => absurd rfl hne, hsome⟩
  | @reused place s existing hslot hs hne he ht =>
    refine ⟨place, s, _, hslot, hs, Document.schemaAt?_put hs _, referenceName_written ..,
      hagain place hslot, ?_, hsome⟩
    intro _
    have hroot : d.rootSchema? (.definition rule.definition) = some existing := he
    have hapart := root_ne_of_canonicalText hslot hs he ht
    refine ⟨existing, ?_, Json.sortedText_eq_iff.mp ht⟩
    have hput := Document.rootSchema?_put hs hroot (written place s rule.definition)
    rwa [if_neg hapart.symm] at hput
  | @inserted place s hslot hs hne hn =>
    have hapart := root_ne_of_unknown hs hn
    refine ⟨place, s, written place s rule.definition, hslot, hs, ?_, referenceName_written ..,
      hagain place hslot, ?_, hsome⟩
    · rw [Document.schemaAt?, Document.rootSchema?_define, if_neg hapart]
      exact Document.schemaAt?_put hs _
    · exact fun _ => ⟨s, Members.find?_insert_self .., Json.sortedText_eq_iff.mp rfl⟩

namespace Chain

/-- Where the next link of every link is named. -/
def nextPlace : Place := ⟨.definition "Link", [.property "next"]⟩

theorem slotOf_next_next (name : String) :
    slotOf document (take "next.next" name) = .ok nextPlace := by
  have hsteps : splitSteps "next.next" = ["next", "next"] := by decide
  have hl : Leads document 1 ⟨.definition "Link", []⟩ link ["next", "next"] nextPlace
      (.referTo "Link") :=
    .property (by decide) rfl rfl <| .follow (referenceName_referTo "Link") rfl <|
      .property (by decide) rfl rfl (.stop (by decide))
  exact slotOf_take hsteps hl

theorem inserted_next : (applyRule document (take "next.next" "Next")).result = .ok .inserted := by
  have hne : (Schema.referTo "Link").referenceName ≠ some "Next" := by
    rw [referenceName_referTo]
    decide
  exact (Applies.inserted (slotOf_next_next "Next") rfl hne rfl).applyRule_eq.2

end Chain

open Chain in
/-- The second walk comes by the reference that the rule has put on its way. -/
theorem chain_factors :
    (applyRule document (take "next.next" "Next")).result = .ok .inserted ∧
      ∃ place old new, slotOf document (take "next.next" "Next") = .ok place ∧
        document.schemaAt? place = some old ∧
        (applyRule document (take "next.next" "Next")).document.schemaAt? place = some new ∧
        new.referenceName = some "Next" ∧
        slotOf (applyRule document (take "next.next" "Next")).document (take "next.next" "Next") =
          .ok place := by
  obtain ⟨place, old, new, hslot, hold, hnew, hname, hagain, -⟩ := applyRule_factors inserted_next
  exact ⟨inserted_next, place, old, new, hslot, hold, hnew, hname, hagain document_wellFormed⟩

namespace Dangling

/-- A response refers to a definition that does not exist. -/
def document : Document :=
  { swagger := "2.0"
    paths := [("/a",
      { get := some { responses := [("200", { schema := some (.referTo "Ghost") })] } })] }

def toGhost : Rule := ⟨"/a", .get, 200, "", "Ghost"⟩

theorem slotOf_toGhost : slotOf document toGhost = .ok ⟨toGhost.root, []⟩ := by
  have hkey : toString 200 = "200" := by decide
  have hroot : document.rootSchema? toGhost.root = some (.referTo "Ghost") := by
    rw [Rule.root, toGhost, hkey]
    rfl
  have hl : Leads document 0 ⟨toGhost.root, []⟩ (.referTo "Ghost") (splitSteps toGhost.property)
      ⟨toGhost.root, []⟩ (.referTo "Ghost") := .stop (by decide)
  exact slotOf_of_leads hroot hl

end Dangling

open Dangling in
/-- A rule may succeed and leave its slot referring to a definition that does not exist. -/
theorem dangling_alreadyReferenced :
    (applyRule document toGhost).result = .ok .alreadyReferenced ∧
      slotOf (applyRule document toGhost).document toGhost = .ok ⟨toGhost.root, []⟩ ∧
      (applyRule document toGhost).document.definitions.find? toGhost.definition = none := by
  have hkey : toString 200 = "200" := by decide
  have hs : document.schemaAt? ⟨toGhost.root, []⟩ = some (.referTo "Ghost") := by
    rw [Rule.root, toGhost, hkey]
    rfl
  obtain ⟨hd, hr⟩ :=
    (Applies.alreadyReferenced slotOf_toGhost hs (referenceName_referTo "Ghost")).applyRule_eq
  rw [hd]
  exact ⟨hr, slotOf_toGhost, rfl⟩

end ApiContract.Extraction
