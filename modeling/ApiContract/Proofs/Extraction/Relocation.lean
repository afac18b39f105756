import ApiContract.Proofs.Extraction.Step
import ApiContract.Proofs.Schema.SortedText

namespace ApiContract.Extraction

/-- In a new document a schema has given its place to a reference, and the definition that the
reference names holds a schema related to it. -/
structure Relocation (R : Schema → Schema → Prop) (d d' : Document) (place : Place)
    (old new : Schema) (name : String) : Prop where
  descending : Descending R
  refl : ∀ s, R s s
  held : d.schemaAt? place = some old
  leaf : old.kind ≠ .array
  refers : new.referenceName = some name
  roots : ∀ root s, d.rootSchema? root = some s →
    d'.rootSchema? root = some (if root = place.root then s.put place.route new else s)
  target : ∃ e, d'.definitions.find? name = some e ∧ R old e

variable {R : Schema → Schema → Prop} {d d' : Document} {rule : Rule} {place p q : Place}
  {old new s s' t child existing : Schema} {name step : String} {move : Move} {root : Root}
  {steps : List String} {n : Nat}

theorem relocation_inserted (hslot : slotOf d rule = .ok place) (hs : d.schemaAt? place = some s)
    (hn : d.definitions.find? rule.definition = none) :
    Relocation Eq d ((d.put place (written place s rule.definition)).define rule.definition s)
      place s (written place s rule.definition) rule.definition := by
  obtain ⟨u, hu, hk, -⟩ := schemaAt?_of_slotOf hslot
  obtain rfl := Option.some.inj (hs.symm.trans hu)
  refine ⟨descending_eq, fun _ => rfl, hs, hk, referenceName_written .., ?_, ?_⟩
  · intro root t ht
    have hne : root ≠ .definition rule.definition := by
      rintro rfl
      cases hn.symm.trans ht
    rw [Document.rootSchema?_define, if_neg hne, Document.rootSchema?_put hs ht]
  · exact ⟨s, Members.find?_insert_self .., rfl⟩

/-- A place does not lie in a definition that is not there. -/
theorem root_ne_of_unknown (hs : d.schemaAt? place = some s)
    (hn : d.definitions.find? name = none) : place.root ≠ .definition name := by
  intro hr
  obtain ⟨u, hu, -⟩ := Option.bind_eq_some_iff.mp hs
  rw [hr] at hu
  cases hn.symm.trans hu

/-- A schema is not moved to a definition that it stands in: the definition holds more than a part
of its own. -/
theorem root_ne_of_canonicalText (hslot : slotOf d rule = .ok place)
    (hs : d.schemaAt? place = some s) (he : d.definitions.find? rule.definition = some existing)
    (ht : canonicalText existing = canonicalText s) :
    place.root ≠ .definition rule.definition := by
  obtain ⟨-, -, -, hroot⟩ := schemaAt?_of_slotOf hslot
  have hroot' : d.rootSchema? (.definition rule.definition) = some existing := he
  intro heq
  have hin : existing.at? place.route = some s := by
    rw [Document.schemaAt?, heq, hroot'] at hs
    exact hs
  have hr : place.route ≠ [] := by
    rcases hroot with hroot | hroot
    · rw [heq] at hroot
      cases hroot
    · exact hroot
  exact Schema.canonicalText_ne_of_at? hin hr ht

theorem relocation_reused (hd : d.WellFormed) (hslot : slotOf d rule = .ok place)
    (hs : d.schemaAt? place = some s) (he : d.definitions.find? rule.definition = some existing)
    (ht : canonicalText existing = canonicalText s) :
    Relocation Schema.Matches d (d.put place (written place s rule.definition)) place s
      (written place s rule.definition) rule.definition := by
  obtain ⟨u, hu, hk, -⟩ := schemaAt?_of_slotOf hslot
  obtain rfl := Option.some.inj (hs.symm.trans hu)
  have hroot : d.rootSchema? (.definition rule.definition) = some existing := he
  have hm : Schema.SameText existing s := ⟨hd _ _ hroot, hd.at? hs, ht⟩
  have hne := root_ne_of_canonicalText hslot hs he ht
  refine ⟨Schema.descending_matches, fun _ => Or.inl rfl, hs, hk, referenceName_written .., ?_, ?_⟩
  · exact fun root t ht => Document.rootSchema?_put hs ht _
  · refine ⟨existing, ?_, Or.inr ⟨hm.right, hm.left, ht.symm⟩⟩
    have := Document.rootSchema?_put hs hroot (written place s rule.definition)
    rwa [if_neg hne.symm] at this

/-- Where a place is found after the schema at another one has moved to a definition. -/
def moved (place : Place) (name : String) (p : Place) : Place :=
  if p.Within place ∧ p ≠ place then ⟨.definition name, p.route.drop place.route.length⟩ else p

theorem moved_step (hne : p ≠ place) (move : Move) :
    moved place name (p.step move) = (moved place name p).step move := by
  by_cases hw : p.Within place
  · have hstep : p.step move ≠ place := fun he =>
      Place.not_within_step_self p move (he ▸ hw)
    obtain ⟨rest, rfl⟩ := Place.exists_of_within hw
    rw [moved, moved, if_pos ⟨hw.step move, hstep⟩, if_pos ⟨hw, hne⟩]
    simp [Place.step]
  · have hw' : ¬ ((p.step move).Within place ∧ p.step move ≠ place) := by
      rintro ⟨h, hn⟩
      exact (Place.eq_or_within_of_step h).elim hn hw
    rw [moved, moved, if_neg hw', if_neg fun h => hw h.1]

theorem moved_step_self (place : Place) (name : String) (move : Move) :
    moved place name (place.step move) = (⟨.definition name, []⟩ : Place).step move := by
  have hne : place.step move ≠ place := fun he =>
    Place.not_within_step_self place move (he.symm ▸ Place.within_refl place)
  rw [moved, if_pos ⟨(Place.within_refl place).step move, hne⟩]
  simp [Place.step]

theorem moved_self (place : Place) (name : String) : moved place name place = place :=
  if_neg fun h => h.2 rfl

theorem moved_root (root : Root) : moved place name ⟨root, []⟩ = ⟨root, []⟩ := by
  refine if_neg ?_
  rintro ⟨⟨rfl, hr⟩, hne⟩
  obtain ⟨root, route⟩ := place
  obtain rfl : route = [] := List.prefix_nil.mp hr
  exact hne rfl

/-- What a schema at a place has become: above the place of the reference it holds that, elsewhere
it is related to what it was. -/
inductive Tracks (R : Schema → Schema → Prop) (place : Place) (old new : Schema) :
    Place → Schema → Schema → Prop
  | above {p : Place} {s : Schema} {rest : Route} :
      place = ⟨p.root, p.route ++ rest⟩ → s.at? rest = some old →
      Tracks R place old new p s (s.put rest new)
  | apart {p : Place} {s s' : Schema} :
      ¬ place.Within p → R s s' → Tracks R place old new p s s'

theorem Tracks.self (h : Tracks R place old new place s s') : s = old ∧ s' = new := by
  cases h with
  | apart hw => exact absurd (Place.within_refl place) hw
  | @above rest he hs =>
    obtain rfl : rest = [] := by simpa using congrArg Place.route he
    exact ⟨Option.some.inj hs, rfl⟩

theorem Tracks.agrees (hR : Descending R) (h : Tracks R place old new p s s') (hne : p ≠ place) :
    s.Agrees s' := by
  cases h with
  | apart _ hr => exact hR.agrees hr
  | @above rest he hs =>
    refine Schema.agrees_put hs ?_
    rintro rfl
    exact hne (by simp [he])

theorem Tracks.along (hR : Descending R) (hrefl : ∀ s, R s s) (h : Tracks R place old new p s s')
    (hne : p ≠ place) (hc : s.at? [move] = some child) :
    ∃ child', s'.at? [move] = some child' ∧ Tracks R place old new (p.step move) child child' := by
  cases h with
  | apart hw hr =>
    obtain ⟨child', hc', hr'⟩ := hR.along hr hc
    exact ⟨child', hc', .apart (fun h => hw (Place.within_of_within_step h)) hr'⟩
  | @above rest he hs =>
    cases rest with
    | nil => exact absurd (by simp [he]) hne
    | cons other rest =>
      by_cases hm : move = other
      · subst hm
        rw [Schema.at?_cons, hc] at hs
        exact ⟨_, Schema.at?_put_cons hc, .above (by simp [he, Place.step]) hs⟩
      · refine ⟨child, (Schema.at?_put_of_ne hs hm).trans hc, .apart ?_ (hrefl child)⟩
        rw [he]
        rintro ⟨-, h⟩
        exact hm (by simpa [Place.step] using h)

namespace Relocation

/-- Every root is there in the new document, and is tracked. -/
theorem tracks_root (h : Relocation R d d' place old new name) (hs : d.rootSchema? root = some s) :
    ∃ s', d'.rootSchema? root = some s' ∧ Tracks R place old new ⟨root, []⟩ s s' := by
  refine ⟨_, h.roots root s hs, ?_⟩
  obtain ⟨u, hu, ho⟩ := Option.bind_eq_some_iff.mp h.held
  split
  · rename_i hr
    subst hr
    obtain rfl := Option.some.inj (hs.symm.trans hu)
    exact .above rfl ho
  · rename_i hr
    exact .apart (fun hw => hr hw.1.symm) (h.refl s)

/-- What stood below the schema that has moved is found below the one that the reference names. -/
theorem below (h : Relocation R d d' place old new name) :
    ∃ e, d'.definitions.find? name = some e ∧ old.Agrees e ∧
      ∀ move child, old.at? [move] = some child →
        ∃ child', e.at? [move] = some child' ∧
          Tracks R place old new (place.step move) child child' := by
  obtain ⟨e, he, hr⟩ := h.target
  refine ⟨e, he, h.descending.agrees hr, ?_⟩
  intro move child hc
  obtain ⟨child', hc', hr'⟩ := h.descending.along hr hc
  exact ⟨child', hc', .apart (Place.not_within_step_self place move) hr'⟩

/-- What has moved is no array. -/
theorem ne_of_array (h : Relocation R d d' place old new name) (ht : Tracks R place old new p s s')
    (ha : s.kind = .array) : p ≠ place := by
  rintro rfl
  exact h.leaf (ht.self.1 ▸ ha)

/-- A path that led to a place leads to where the place has moved. -/
theorem leads (h : Relocation R d d' place old new name) (hl : Leads d n p s steps q t)
    (ht : Tracks R place old new p s s') :
    ∃ m t', Leads d' m (moved place name p) s' steps (moved place name q) t' ∧
      Tracks R place old new q t t' := by
  induction hl generalizing s' with
  | @stop p s hk =>
    refine ⟨0, s', .stop ?_, ht⟩
    by_cases hp : p = place
    · subst hp
      rw [ht.self.2]
      exact Schema.not_array_of_referenceName h.refers
    · rwa [← (ht.agrees h.descending hp).kind]
  | @items n p q s item t steps ha hi _ ih =>
    have hp := h.ne_of_array ht ha
    obtain ⟨item', hi', hti⟩ := ht.along h.descending h.refl hp ((s.at?_items).trans hi)
    obtain ⟨m, t', hl', ht'⟩ := ih hti
    rw [moved_step hp] at hl'
    refine ⟨m, t', .items ?_ ((s'.at?_items).symm.trans hi') hl', ht'⟩
    rwa [← (ht.agrees h.descending hp).kind]
  | @property n p q s child t step rest hk hr hc _ ih =>
    have hc : s.at? [.property step] = some child := (s.at?_property step).trans hc
    by_cases hp : p = place
    · -- the path goes on within what has moved: first past the reference in its place
      subst hp
      obtain ⟨rfl, rfl⟩ := ht.self
      obtain ⟨e, he, hag, hbelow⟩ := h.below
      obtain ⟨child', hc', htc⟩ := hbelow _ _ hc
      obtain ⟨m, t', hl', ht'⟩ := ih htc
      rw [moved_step_self] at hl'
      refine ⟨m + 1, t', .follow h.refers he (.property ?_ ?_ ?_ hl'), ht'⟩
      · rwa [← hag.kind]
      · rwa [← hag.referenceName]
      · exact (e.at?_property step).symm.trans hc'
    · obtain ⟨child', hc', htc⟩ := ht.along h.descending h.refl hp hc
      obtain ⟨m, t', hl', ht'⟩ := ih htc
      rw [moved_step hp] at hl'
      have hag := ht.agrees h.descending hp
      refine ⟨m, t', .property ?_ ?_ ((s'.at?_property step).symm.trans hc') hl', ht'⟩
      · rwa [← hag.kind]
      · rwa [← hag.referenceName]
  | @follow n p q s target t other step rest hr htarget _ ih =>
    have hroot : d.rootSchema? (.definition other) = some target := htarget
    obtain ⟨target', htarget', htr⟩ := h.tracks_root hroot
    obtain ⟨m, t', hl', ht'⟩ := ih htr
    rw [moved_root] at hl'
    by_cases hp : p = place
    · -- a reference that has moved stands behind the one in its place
      subst hp
      obtain ⟨rfl, rfl⟩ := ht.self
      obtain ⟨e, he, hag, -⟩ := h.below
      exact ⟨m + 2, t', .follow h.refers he (.follow (hag.referenceName ▸ hr) htarget' hl'), ht'⟩
    · have hag := ht.agrees h.descending hp
      exact ⟨m + 1, t', .follow (hag.referenceName ▸ hr) htarget' hl', ht'⟩

/-- The slot of a rule moves with the schema that it lies in. -/
theorem slotOf (h : Relocation R d d' place old new name) (hb : d.Every Schema.Bare)
    (hslot : slotOf d rule = .ok q) (hq : d.schemaAt? q = some t) :
    Extraction.slotOf d' rule = .ok (moved place name q) ∧
      ∃ t', d'.schemaAt? (moved place name q) = some t' ∧ Tracks R place old new q t t' := by
  obtain ⟨n, s, u, hs, hl⟩ := leads_of_slotOf hb hslot
  have hu := hl.schemaAt? (p := ⟨rule.root, []⟩) (by simp [Document.schemaAt?, hs, Schema.at?])
  obtain rfl := Option.some.inj (hq.symm.trans hu)
  obtain ⟨s', hs', ht⟩ := h.tracks_root hs
  obtain ⟨m, t', hl', ht'⟩ := h.leads hl ht
  rw [moved_root] at hl'
  refine ⟨slotOf_of_leads hs' hl', t', ?_, ht'⟩
  exact hl'.schemaAt? (by simp [Document.schemaAt?, hs', Schema.at?])

end Relocation

end ApiContract.Extraction
