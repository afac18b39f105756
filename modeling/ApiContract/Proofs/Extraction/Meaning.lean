import ApiContract.Proofs.Extraction.Relocation

namespace ApiContract

open Extraction

namespace Document

/-- What a schema refers to is a definition of the document. -/
def Resolves (d : Document) (s : Schema) : Prop :=
  ∀ name, s.referenceName = some name → (d.definitions.find? name).isSome

/-- Every reference names a definition that is there. -/
def Closed (d : Document) : Prop := d.Every d.Resolves

theorem shallow_resolves (d : Document) : Shallow d.Resolves where
  properties _ _ _ h _ := h
  items _ _ h := h

/-- Following a route from a schema, and references before each move and at the end, leads to a
schema that is no reference. -/
inductive Unfolds (d : Document) : Schema → Route → Schema → Prop
  | here {s : Schema} : s.referenceName = none → Unfolds d s [] s
  | follow {s target t : Schema} {name : String} {route : Route} :
      s.referenceName = some name → d.definitions.find? name = some target →
      Unfolds d target route t → Unfolds d s route t
  | move {s child t : Schema} {move : Move} {route : Route} :
      s.referenceName = none → s.at? [move] = some child → Unfolds d child route t →
      Unfolds d s (move :: route) t

/-- Everything that was reached from a root of one document is reached by the same route in the
other, and nothing more, and what is reached is the same in all its own fields. -/
def SameMeaning (d d' : Document) : Prop :=
  ∀ root s, d.rootSchema? root = some s → ∃ s', d'.rootSchema? root = some s' ∧
    ∀ route, ((∃ t, d.Unfolds s route t) ↔ ∃ t', d'.Unfolds s' route t') ∧
      ∀ t t', d.Unfolds s route t → d'.Unfolds s' route t' → t.Agrees t'

variable {d d' d'' : Document} {s t t' : Schema} {route : Route}

theorem Unfolds.unique (h : d.Unfolds s route t) (h' : d.Unfolds s route t') : t = t' := by
  induction h with
  | here hn =>
    cases h' with
    | here => rfl
    | follow hr => simp [hn] at hr
  | follow hr ht _ ih =>
    cases h' with
    | here hn => simp [hr] at hn
    | move hn => simp [hr] at hn
    | follow hr' ht' h' =>
      obtain rfl := Option.some.inj (hr.symm.trans hr')
      obtain rfl := Option.some.inj (ht.symm.trans ht')
      exact ih h'
  | move hn hc _ ih =>
    cases h' with
    | follow hr => simp [hn] at hr
    | move _ hc' h' =>
      obtain rfl := Option.some.inj (hc.symm.trans hc')
      exact ih h'

theorem sameMeaning_refl (d : Document) : d.SameMeaning d := by
  intro root s hs
  refine ⟨s, hs, fun route => ⟨Iff.rfl, fun t t' ht ht' => ?_⟩⟩
  exact ht.unique ht' ▸ Schema.Agrees.refl t

theorem SameMeaning.trans (h : d.SameMeaning d') (h' : d'.SameMeaning d'') :
    d.SameMeaning d'' := by
  intro root s hs
  obtain ⟨s', hs', hr⟩ := h root s hs
  obtain ⟨s'', hs'', hr'⟩ := h' root s' hs'
  refine ⟨s'', hs'', fun route => ⟨(hr route).1.trans (hr' route).1, fun t t'' ht ht'' => ?_⟩⟩
  obtain ⟨t', ht'⟩ := (hr route).1.mp ⟨t, ht⟩
  exact ((hr route).2 t t' ht ht').trans ((hr' route).2 t' t'' ht' ht'')

end Document

namespace Extraction

variable {R : Schema → Schema → Prop} {d d' : Document} {rule : Rule} {place p : Place}
  {old new s s' t t' : Schema} {name : String} {route : Route} {result : Except Fault Outcome}

namespace Relocation

/-- What the reference names is tracked as something below the place. -/
theorem tracks_target (h : Relocation R d d' place old new name) :
    ∃ e p, d'.definitions.find? name = some e ∧ p ≠ place ∧ Tracks R place old new p old e := by
  obtain ⟨e, he, hr⟩ := h.target
  refine ⟨e, place.step .items, he, ?_, .apart (Place.not_within_step_self place .items) hr⟩
  intro heq
  exact Place.not_within_step_self place .items (heq.symm ▸ Place.within_refl place)

/-- Past the reference that was put in, if that is where one is. -/
theorem opened (h : Relocation R d d' place old new name) (ht : Tracks R place old new p s s') :
    ∃ u q, q ≠ place ∧ Tracks R place old new q s u ∧
      ∀ route t, d'.Unfolds u route t → d'.Unfolds s' route t := by
  by_cases hp : p = place
  · subst hp
    obtain ⟨rfl, rfl⟩ := ht.self
    obtain ⟨e, q, he, hq, hte⟩ := h.tracks_target
    exact ⟨e, q, hq, hte, fun _ _ hu => .follow h.refers he hu⟩
  · exact ⟨s', p, hp, ht, fun _ _ hu => hu⟩

theorem unfolds (h : Relocation R d d' place old new name) (hu : d.Unfolds s route t)
    (ht : Tracks R place old new p s s') : ∃ t', d'.Unfolds s' route t' ∧ t.Agrees t' := by
  induction hu generalizing p s' with
  | @here s hn =>
    obtain ⟨u, q, hq, htu, hopen⟩ := h.opened ht
    have hag := htu.agrees h.descending hq
    exact ⟨u, hopen _ _ (.here (hag.referenceName ▸ hn)), hag⟩
  | @follow s target t other route hr htarget _ ih =>
    have hroot : d.rootSchema? (.definition other) = some target := htarget
    obtain ⟨target', htarget', htr⟩ := h.tracks_root hroot
    obtain ⟨t', hu', hag'⟩ := ih htr
    obtain ⟨u, q, hq, htu, hopen⟩ := h.opened ht
    have hag := htu.agrees h.descending hq
    exact ⟨t', hopen _ _ (.follow (hag.referenceName ▸ hr) htarget' hu'), hag'⟩
  | @move s child t move route hn hc _ ih =>
    obtain ⟨u, q, hq, htu, hopen⟩ := h.opened ht
    have hag := htu.agrees h.descending hq
    obtain ⟨child', hc', htc⟩ := htu.along h.descending h.refl hq hc
    obtain ⟨t', hu', hag'⟩ := ih htc
    exact ⟨t', hopen _ _ (.move (hag.referenceName ▸ hn) hc' hu'), hag'⟩

/-- Conversely, in a document where references were not left open. -/
theorem unfolded (h : Relocation R d d' place old new name) (hd : d.Closed)
    (hu : d'.Unfolds s' route t') (ht : Tracks R place old new p s s')
    (hs : s.Every d.Resolves) : ∃ t, d.Unfolds s route t ∧ t.Agrees t' := by
  induction hu generalizing p s with
  | @here s' hn =>
    have hp : p ≠ place := by
      rintro rfl
      simp [ht.self.2, h.refers] at hn
    have hag := ht.agrees h.descending hp
    exact ⟨s, .here (hag.referenceName.trans hn), hag⟩
  | @follow s' target' t' other route hr htarget' _ ih =>
    by_cases hp : p = place
    · -- the reference is the one that was put in, and `s` is what it stands for
      subst hp
      obtain ⟨rfl, rfl⟩ := ht.self
      obtain ⟨e, q, he, -, hte⟩ := h.tracks_target
      obtain rfl := Option.some.inj (h.refers.symm.trans hr)
      obtain rfl := Option.some.inj (he.symm.trans htarget')
      exact ih hte hs
    · -- it stood in `s` before, so it names a definition that was there
      have hr := (ht.agrees h.descending hp).referenceName.trans hr
      obtain ⟨target, htarget⟩ := Option.isSome_iff_exists.mp (hs.self other hr)
      have hroot : d.rootSchema? (.definition other) = some target := htarget
      obtain ⟨u, hu, htr⟩ := h.tracks_root hroot
      obtain rfl := Option.some.inj (htarget'.symm.trans hu)
      obtain ⟨t, hut, hag⟩ := ih htr (hd _ _ hroot)
      exact ⟨t, .follow hr htarget hut, hag⟩
  | @move s' child' t' move route hn hc' _ ih =>
    have hp : p ≠ place := by
      rintro rfl
      simp [ht.self.2, h.refers] at hn
    have hag := ht.agrees h.descending hp
    have hsome := hag.at?_isSome move
    rw [hc', Option.isSome_some, Option.isSome_iff_exists] at hsome
    obtain ⟨child, hc⟩ := hsome
    obtain ⟨u, hu, htc⟩ := ht.along h.descending h.refl hp hc
    obtain rfl := Option.some.inj (hc'.symm.trans hu)
    obtain ⟨t, hut, hag'⟩ := ih htc (hs.at? hc)
    exact ⟨t, .move (hag.referenceName.trans hn) hc hut, hag'⟩

theorem sameMeaning (h : Relocation R d d' place old new name) (hd : d.Closed) :
    d.SameMeaning d' := by
  intro root s hs
  obtain ⟨s', hs', ht⟩ := h.tracks_root hs
  refine ⟨s', hs', fun route => ⟨⟨?_, ?_⟩, ?_⟩⟩
  · rintro ⟨t, hu⟩
    obtain ⟨t', hu', -⟩ := h.unfolds hu ht
    exact ⟨t', hu'⟩
  · rintro ⟨t', hu'⟩
    obtain ⟨t, hu, -⟩ := h.unfolded hd hu' ht (hd root s hs)
    exact ⟨t, hu⟩
  · intro t t' hu hu'
    obtain ⟨u, hu'', hag⟩ := h.unfolds hu ht
    exact hu''.unique hu' ▸ hag

end Relocation

theorem Applies.sameMeaning (h : Applies d rule d' result) (hw : d.WellFormed) (hd : d.Closed) :
    d.SameMeaning d' := by
  cases h with
  | lost | alreadyReferenced | conflict => exact Document.sameMeaning_refl d
  | reused hslot hs _ he ht => exact (relocation_reused hw hslot hs he ht).sameMeaning hd
  | inserted hslot hs _ hn => exact (relocation_inserted hslot hs hn).sameMeaning hd

theorem distinct_written (place : Place) (s : Schema) (name : String) :
    (written place s name).Distinct := by
  intro keyword _
  unfold written
  split <;> rfl

theorem Applies.wellFormed (h : Applies d rule d' result) (hw : d.WellFormed) : d'.WellFormed :=
  h.every Schema.shallow_distinct hw fun place s => distinct_written place s rule.definition

/-- A reference that is put in names a definition that is there by then. -/
theorem Applies.closed (h : Applies d rule d' result) (hd : d.Closed) : d'.Closed := by
  have hd' : d.Every d'.Resolves := fun root s hs =>
    (hd root s hs).mono fun _ ht name hr => h.find?_isSome (ht name hr)
  by_cases hthere : (d'.definitions.find? rule.definition).isSome
  · refine h.every (Document.shallow_resolves d') hd' fun place s other hr => ?_
    rw [referenceName_written] at hr
    cases hr
    exact hthere
  · have hkeep : (d.definitions.find? rule.definition).isSome → False :=
      fun hn => hthere (h.find?_isSome hn)
    cases h with
    | lost | alreadyReferenced | conflict => exact hd
    | reused _ _ _ he => exact (hkeep (by simp [he])).elim
    | inserted => simp [Document.define, Members.find?_insert_self] at hthere

/-- Extraction keeps the meaning of a document, also where it stops at a rule that fails. That
nothing hides a field holds of every document that is read from a text. -/
theorem extract_sameMeaning (hw : d.WellFormed) (hd : d.Closed) (rules : List Rule) :
    d.SameMeaning (extract d rules).document := by
  suffices d.SameMeaning (applyRules d rules).document ∧
      (applyRules d rules).document.WellFormed ∧ (applyRules d rules).document.Closed from
    extract_document d rules ▸ this.1
  refine applyRules_keeps (P := fun d' => d.SameMeaning d' ∧ d'.WellFormed ∧ d'.Closed) ?_
    ⟨Document.sameMeaning_refl d, hw, hd⟩ rules
  rintro d' rule d'' result h ⟨hsame, hw', hd'⟩
  exact ⟨hsame.trans (h.sameMeaning hw' hd'), h.wellFormed hw', h.closed hd'⟩

namespace Chain

def unit : Schema := { types := some (.single .string) }

def load : Schema := { properties := [("unit", unit)] }

/-- A link holds a load and the next link. -/
def link : Schema := { properties := [("next", .referTo "Link"), ("load", load)] }

def document : Document :=
  { swagger := "2.0"
    paths := [("/chain",
      { get := some { responses := [("200", { schema := some (.referTo "Link") })] } })]
    definitions := [("Link", link)] }

def take (property definition : String) : Rule := ⟨"/chain", .get, 200, property, definition⟩

theorem document_every {P : Schema → Prop} (hr : P (.referTo "Link")) (hu : P unit) (hl : P load)
    (hk : P link) : document.Every P := by
  have hr : (Schema.referTo "Link").Every P := Schema.every_iff.mpr ⟨hr, nofun, trivial⟩
  have hu : unit.Every P := Schema.every_iff.mpr ⟨hu, nofun, trivial⟩
  have hl : load.Every P := Schema.every_iff.mpr ⟨hl, by simp [load, hu], trivial⟩
  have hk : link.Every P := Schema.every_iff.mpr ⟨hk, by simp [link, hr, hl], trivial⟩
  refine Document.every_of_forall ?_ (by simp [document, hk])
  intro p hp method op hop r hres s hs
  obtain rfl := List.mem_singleton.mp hp
  cases method <;> cases hop
  obtain rfl := List.mem_singleton.mp hres
  cases hs
  exact hr

theorem document_wellFormed : document.WellFormed :=
  document_every (fun _ _ => rfl) (fun _ _ => rfl) (fun _ _ => rfl) (fun _ _ => rfl)

theorem document_closed : document.Closed := by
  refine document_every ?_ nofun nofun nofun
  intro name hname
  rw [referenceName_referTo] at hname
  cases hname
  rfl

theorem document_bare : document.Every Schema.Bare :=
  document_every (Or.inr rfl) (Or.inl rfl) (Or.inl rfl) (Or.inl rfl)

theorem rootSchema?_take (property name : String) :
    document.rootSchema? (take property name).root = some (.referTo "Link") := by
  have hkey : toString 200 = "200" := by decide
  rw [Rule.root, take, hkey]
  rfl

/-- A path from a link is a path from the response. -/
theorem slotOf_take {property name step : String} {rest : List String} {n : Nat} {q : Place}
    {t : Schema} (hsteps : splitSteps property = step :: rest)
    (h : Leads document n ⟨.definition "Link", []⟩ link (step :: rest) q t) :
    slotOf document (take property name) = .ok q := by
  have hl : Leads document (n + 1) ⟨(take property name).root, []⟩ (.referTo "Link")
      (splitSteps property) q t := by
    rw [hsteps]
    exact .follow (referenceName_referTo "Link") rfl h
  exact slotOf_of_leads (rootSchema?_take property name) hl

/-- Where the load of every link stands. -/
def loadPlace : Place := ⟨.definition "Link", [.property "load"]⟩

theorem leads_load (p : Place) :
    Leads document 0 p link ["load"] (p.step (.property "load")) load :=
  .property (by decide) rfl rfl (.stop (by decide))

theorem slotOf_load (name : String) : slotOf document (take "load" name) = .ok loadPlace :=
  slotOf_take (by decide) (leads_load _)

theorem slotOf_next_load (name : String) :
    slotOf document (take "next.load" name) = .ok loadPlace := by
  have hsteps : splitSteps "next.load" = ["next", "load"] := by decide
  have hl : Leads document 1 ⟨.definition "Link", []⟩ link ["next", "load"] loadPlace load :=
    .property (by decide) rfl rfl (.follow (referenceName_referTo "Link") rfl (leads_load _))
  exact slotOf_take hsteps hl

theorem slotOf_load_unit (name : String) :
    slotOf document (take "load.unit" name) = .ok (loadPlace.step (.property "unit")) := by
  have hsteps : splitSteps "load.unit" = ["load", "unit"] := by decide
  have hl : Leads document 0 ⟨.definition "Link", []⟩ link ["load", "unit"]
      (loadPlace.step (.property "unit")) unit :=
    .property (by decide) rfl rfl (.property (by decide) rfl rfl (.stop (by decide)))
  exact slotOf_take hsteps hl

end Chain

open Chain in
/-- The second rule runs through the reference of the first, the third fails. -/
theorem chain_sameMeaning : document.WellFormed ∧ document.Closed ∧
    document.SameMeaning (extract document
      [take "load" "Load", take "next.load.unit" "Unit", take "none" "None"]).document :=
  ⟨document_wellFormed, document_closed,
    extract_sameMeaning document_wellFormed document_closed _⟩

end Extraction

end ApiContract
