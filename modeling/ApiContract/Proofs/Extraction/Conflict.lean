import ApiContract.Proofs.Document.Decoded
import ApiContract.Proofs.Document.RoundTrip
import ApiContract.Proofs.Extraction.Step

namespace ApiContract.Extraction

open Json

variable {d d' : Document} {rule : Rule} {place : Place} {old existing : Schema}
  {result : Except Fault Outcome}

theorem unrepeated_written (place : Place) (s : Schema) (name : String) :
    (written place s name).Unrepeated := by
  unfold written
  split <;> exact ⟨fun _ _ => rfl, List.nodup_nil, List.nodup_nil, nofun⟩

theorem Applies.unrepeated (h : Applies d rule d' result) (hd : d.Every Schema.Unrepeated) :
    d'.Every Schema.Unrepeated :=
  h.every Schema.shallow_unrepeated hd fun place s => unrepeated_written place s rule.definition

/-- A document that was read gives no name twice in a schema, and rules leave it so. -/
theorem unrepeated_of_applyRules {format : Format} {text : String}
    (h : Document.decode format text = .ok d) (rules : List Rule) :
    (applyRules d rules).document.Every Schema.Unrepeated :=
  applyRules_keeps (fun _ _ _ _ => Applies.unrepeated) (Document.unrepeated_of_decode h) rules

theorem canonicalText_eq_iff (he : existing.Every Schema.Unrepeated)
    (hd : DoublesTold existing.json old.json) :
    canonicalText existing = canonicalText old ↔ Reordered existing.json old.json :=
  sortedText_eq_iff_reordered (Schema.unrepeated_json existing he) hd

theorem result_of_definition (hslot : slotOf d rule = .ok place) (ho : d.schemaAt? place = some old)
    (hne : old.referenceName ≠ some rule.definition)
    (he : d.definitions.find? rule.definition = some existing) :
    (applyRule d rule).result =
      if canonicalText existing = canonicalText old then .ok .reused
      else .error (.conflict rule.definition (canonicalText existing) (canonicalText old)) := by
  split
  · rename_i ht
    exact (Applies.reused hslot ho hne he ht).applyRule_eq.2
  · rename_i ht
    exact (Applies.conflict hslot ho hne he ht).applyRule_eq.2

/-- The comparison is exact. The canonical form moves members and does nothing else, and once only;
values have one canonical text exactly if they differ in no more than the order of members; and a
rule that finds a schema, while its definition is there, reuses the definition exactly if the two
are written as values that differ in no more than the order of members, and reports a conflict
otherwise. No schema of a document that was read and changed by rules gives a name twice. -/
theorem conflict_exact :
    (∀ v : Json, Reordered v v.canonical ∧ v.canonical.canonical = v.canonical) ∧
    (∀ v w : Json, v.Unrepeated → DoublesTold v w →
      (v.sortedText = w.sortedText ↔ Reordered v w)) ∧
    (∀ (d : Document) (rule : Rule) (place : Place) (old existing : Schema),
      d.Every Schema.Unrepeated → slotOf d rule = .ok place → d.schemaAt? place = some old →
      old.referenceName ≠ some rule.definition →
      d.definitions.find? rule.definition = some existing →
      DoublesTold existing.json old.json →
      (Reordered existing.json old.json → (applyRule d rule).result = .ok .reused) ∧
      (¬ Reordered existing.json old.json → (applyRule d rule).result =
        .error (.conflict rule.definition (canonicalText existing) (canonicalText old)))) ∧
    (∀ (format : Format) (text : String) (d : Document) (rules : List Rule),
      Document.decode format text = .ok d →
      (applyRules d rules).document.Every Schema.Unrepeated) := by
  refine ⟨fun v => ⟨reordered_canonical v, canonical_canonical v⟩, ?_, ?_, ?_⟩
  · intro v w hv hd
    exact sortedText_eq_iff_reordered hv hd
  · intro d rule place old existing hu hslot ho hne he hd
    have hroot : d.rootSchema? (.definition rule.definition) = some existing := he
    rw [result_of_definition hslot ho hne he, ← canonicalText_eq_iff (hu _ _ hroot) hd]
    exact ⟨fun ht => if_pos ht, fun ht => if_neg ht⟩
  · intro format text d rules h
    exact unrepeated_of_applyRules h rules

namespace Gauge

/-- A reading between bounds that nothing interprets. -/
def reading (bounds : Members Json) : Schema :=
  { types := some (.single .number), extra := bounds }

def low (n : Number) : String × Json := ("minimum", .number n)

def high : String × Json := ("maximum", .number (.double ⟨false, 6755399441055744, -52⟩))

def stored : Schema := reading [low (.integer 1), high]

def swapped : Schema := reading [high, low (.integer 1)]

/-- A double in place of the integer. -/
def doubled : Schema := reading [low (.double ⟨false, 4503599627370496, -52⟩), high]

def document : Document :=
  { swagger := "2.0"
    paths := [("/gauge",
      { get := some { responses := [
          ("200", { schema := some swapped }), ("203", { schema := some doubled })] } })]
    definitions := [("Reading", stored)] }

def take (code : Nat) : Rule := ⟨"/gauge", .get, code, "", "Reading"⟩

theorem unrepeated_reading {bounds : Members Json} (hnames : bounds.names.Nodup)
    (hdistinct : (reading bounds).Distinct) (hvalues : ∀ p ∈ bounds, p.2.Unrepeated) :
    (reading bounds).Every Schema.Unrepeated :=
  Schema.every_iff.mpr ⟨⟨hdistinct, List.nodup_nil, hnames, hvalues⟩, nofun, trivial⟩

theorem document_unrepeated : document.Every Schema.Unrepeated := by
  have hlow : ∀ n, (low n).2.Unrepeated := .number
  have hhigh : high.2.Unrepeated := .number _
  have hdistinct : stored.Distinct ∧ swapped.Distinct ∧ doubled.Distinct := by
    unfold Schema.Distinct
    decide
  refine Document.every_of_forall ?_ ?_
  · intro p hp method op hop r hr s hs
    obtain rfl := List.mem_singleton.mp hp
    cases method <;> cases hop
    rcases List.mem_cons.mp hr with rfl | hr
    · cases hs
      exact unrepeated_reading (by decide) hdistinct.2.1 (by simp [hlow, hhigh])
    · obtain rfl := List.mem_singleton.mp hr
      cases hs
      exact unrepeated_reading (by decide) hdistinct.2.2 (by simp [hlow, hhigh])
  · simp only [document, List.forall_mem_singleton]
    exact unrepeated_reading (by decide) hdistinct.1 (by simp [hlow, hhigh])

theorem slotOf_take {code : Nat} {s : Schema}
    (hs : document.rootSchema? (take code).root = some s) (ha : s.kind ≠ .array) :
    slotOf document (take code) = .ok ⟨(take code).root, []⟩ ∧
      document.schemaAt? ⟨(take code).root, []⟩ = some s := by
  have hsteps : splitSteps "" = [] := by decide
  have hleads : Leads document 0 ⟨(take code).root, []⟩ s (splitSteps (take code).property)
      ⟨(take code).root, []⟩ s := by
    rw [take, hsteps]
    exact .stop ha
  exact ⟨slotOf_of_leads hs hleads, by simp [Document.schemaAt?, hs, Schema.at?]⟩

theorem rootSchema?_take : document.rootSchema? (take 200).root = some swapped ∧
    document.rootSchema? (take 203).root = some doubled := by
  have hkeys : toString 200 = "200" ∧ toString 203 = "203" := by decide
  simp only [Rule.root, take, hkeys]
  exact ⟨rfl, rfl⟩

theorem doublesTold_of_forall {v w : Json}
    (h : ∀ m ∈ v.numbers, ∀ n ∈ w.numbers, m.text = n.text → m = n) : DoublesTold v w :=
  fun _ _ hx hy ht => Number.double.inj (h _ hx _ hy ht)

end Gauge

open Gauge in
/-- The swapped bounds are the definition, the double is another one. -/
theorem gauge_exact :
    (applyRule document (take 200)).result = .ok .reused ∧
    (applyRule document (take 203)).result =
      .error (.conflict "Reading" (canonicalText stored) (canonicalText doubled)) ∧
    ∃ d, Document.ofText .json (Document.sample.pretty ++ "\n") = .ok d ∧
      (applyRules d [take 200]).document.Every Schema.Unrepeated := by
  obtain ⟨-, htexts, hrules, hread⟩ := conflict_exact
  obtain ⟨d, hd, -⟩ := Document.exists_ofText_sample
  have hu := document_unrepeated
  have hstored : stored.json.Unrepeated :=
    Schema.unrepeated_json stored (hu (.definition "Reading") _ rfl)
  obtain ⟨hslot, hat⟩ := slotOf_take rootSchema?_take.1 (by decide)
  obtain ⟨hslot', hat'⟩ := slotOf_take rootSchema?_take.2 (by decide)
  have htold : DoublesTold stored.json swapped.json := doublesTold_of_forall (by decide +kernel)
  have htold' : DoublesTold stored.json doubled.json := doublesTold_of_forall (by decide +kernel)
  have hsame : Reordered stored.json swapped.json :=
    (htexts _ _ hstored htold).mp (by decide +kernel)
  have hother : ¬ Reordered stored.json doubled.json := fun h =>
    absurd ((htexts _ _ hstored htold').mpr h) (by decide +kernel)
  exact ⟨(hrules _ _ _ _ _ hu hslot hat (by decide) rfl htold).1 hsame,
    (hrules _ _ _ _ _ hu hslot' hat' (by decide) rfl htold').2 hother,
    d, hd, hread _ _ d _ (Document.decode_of_ofText hd)⟩

end ApiContract.Extraction
