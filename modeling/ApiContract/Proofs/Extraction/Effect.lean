import ApiContract.Proofs.Extraction.Step

namespace ApiContract

open Extraction

/-- One schema becomes another at the end of a route, and nothing else in a schema changes. -/
inductive Schema.Edited (old new : Schema) : Route → Schema → Schema → Prop
  | here : Schema.Edited old new [] old new
  | items {route : Route} {s item item' : Schema} :
      s.items = some (.single item) → Schema.Edited old new route item item' →
      Schema.Edited old new (.items :: route) s { s with items := some (.single item') }
  | property {route : Route} {s child child' : Schema} {name : String}
      {before after : List (String × Schema)} :
      s.properties = before ++ (name, child) :: after → Schema.Edited old new route child child' →
      Schema.Edited old new (.property name :: route) s
        { s with properties := before ++ (name, child') :: after }

/-- One schema becomes another at a place, and nothing else in a document changes. -/
inductive Document.Edited (old new : Schema) : Place → Document → Document → Prop
  | response {d : Document} {path key : String} {method : Method} {route : Route}
      {before after : List (String × PathItem)} {item : PathItem} {op : Operation}
      {responsesBefore responsesAfter : List (String × Response)} {r : Response} {s s' : Schema} :
      d.paths = before ++ (path, item) :: after → item.operation method = some op →
      op.responses = responsesBefore ++ (key, r) :: responsesAfter → r.schema = some s →
      Schema.Edited old new route s s' →
      Document.Edited old new ⟨.response path method key, route⟩ d
        { d with
          paths := before ++ (path, item.setOperation method <| some
            { op with
              responses := responsesBefore ++ (key, { r with schema := some s' }) ::
                responsesAfter }) :: after }
  | definition {d : Document} {name : String} {route : Route}
      {before after : List (String × Schema)} {s s' : Schema} :
      d.definitions = before ++ (name, s) :: after → Schema.Edited old new route s s' →
      Document.Edited old new ⟨.definition name, route⟩ d
        { d with definitions := before ++ (name, s') :: after }

theorem Schema.edited_put {route : Route} {s old : Schema} (h : s.at? route = some old)
    (new : Schema) : Schema.Edited old new route s (s.put route new) := by
  induction route generalizing s with
  | nil =>
    cases h
    exact .here
  | cons move route ih =>
    cases move with
    | items =>
      obtain ⟨item, hi, h⟩ := Option.bind_eq_some_iff.mp h
      rw [put_items hi]
      exact .items (items_of_singleItems hi) (ih h)
    | property name =>
      obtain ⟨child, hc, h⟩ := Option.bind_eq_some_iff.mp h
      obtain ⟨before, after, hp, hi⟩ := Members.split_of_find? hc
      rw [put_property hc, hi]
      exact .property hp (ih h)

theorem Document.edited_put {d : Document} {place : Place} {old : Schema}
    (h : d.schemaAt? place = some old) (new : Schema) :
    Document.Edited old new place d (d.put place new) := by
  obtain ⟨root, route⟩ := place
  obtain ⟨s, hs, ho⟩ := Option.bind_eq_some_iff.mp h
  rw [put_of_rootSchema? hs]
  cases root with
  | response path method key =>
    obtain ⟨item, op, r, hi, hop, hr, hs⟩ := rootSchema?_response.mp hs
    obtain ⟨before, after, hp, hpi⟩ := Members.split_of_find? hi
    obtain ⟨before', after', hr', hri⟩ := Members.split_of_find? hr
    rw [setRoot_response hi hop hr, hpi, hri]
    exact .response hp hop hr' hs (Schema.edited_put ho new)
  | definition name =>
    obtain ⟨before, after, hd, hdi⟩ := Members.split_of_find? hs
    simp only [setRoot, hdi]
    exact .definition hd (Schema.edited_put ho new)

namespace Extraction

/-- A rule puts a reference in the place of one schema and changes nothing else. Only the schema of
the response that the rule addresses is replaced as a whole. -/
structure Rewrites (d : Document) (rule : Rule) (place : Place) (old : Schema) (d' : Document) :
    Prop where
  slot : slotOf d rule = .ok place
  before : d.schemaAt? place = some old
  after : d'.schemaAt? place = some (written place old rule.definition)
  edited : Document.Edited old (written place old rule.definition) place d d'
  whole : place.route = [] → place.root = rule.root
  other : old.referenceName ≠ some rule.definition

theorem rewrites_put {d : Document} {rule : Rule} {place : Place} {old : Schema}
    (hslot : slotOf d rule = .ok place) (ho : d.schemaAt? place = some old)
    (hne : old.referenceName ≠ some rule.definition) :
    Rewrites d rule place old (d.put place (written place old rule.definition)) where
  slot := hslot
  before := ho
  after := Document.schemaAt?_put ho _
  edited := Document.edited_put ho _
  whole hn := by
    obtain ⟨_, _, _, hr⟩ := schemaAt?_of_slotOf hslot
    exact hr.resolve_right (absurd hn)
  other := hne

/-- A rule changes exactly what it reports: nothing when it fails or finds its reference in place;
one slot when it reuses a definition of the same text; and when it inserts, one slot and a
definition at the end that holds what the slot held. -/
theorem applyRule_effect (d : Document) (rule : Rule) :
    match (applyRule d rule).result with
    | .error _ => (applyRule d rule).document = d
    | .ok .alreadyReferenced => (applyRule d rule).document = d ∧ ∃ place s,
        slotOf d rule = .ok place ∧ d.schemaAt? place = some s ∧
        s.referenceName = some rule.definition
    | .ok .reused => ∃ place old existing,
        Rewrites d rule place old (applyRule d rule).document ∧
        d.definitions.find? rule.definition = some existing ∧
        canonicalText existing = canonicalText old
    | .ok .inserted => ∃ place old edited, Rewrites d rule place old edited ∧
        d.definitions.find? rule.definition = none ∧
        (applyRule d rule).document =
          { edited with definitions := edited.definitions ++ [(rule.definition, old)] } := by
  generalize hd : (applyRule d rule).document = d', hr : (applyRule d rule).result = result
  have h := applies d rule
  rw [hd, hr] at h
  cases h with
  | lost | conflict => rfl
  | alreadyReferenced hslot hs hname => exact ⟨rfl, _, _, hslot, hs, hname⟩
  | reused hslot hs hne he ht => exact ⟨_, _, _, rewrites_put hslot hs hne, he, ht⟩
  | @inserted place old hslot hs hne hn =>
    refine ⟨_, _, _, rewrites_put hslot hs hne, hn, ?_⟩
    have hroot : d.rootSchema? (.definition rule.definition) = none := hn
    have hput := (Document.rootSchema?_put_eq_none hs (written place old rule.definition)).mpr hroot
    rw [Document.define, Members.insert_of_find?_none hput]

end Extraction

end ApiContract
