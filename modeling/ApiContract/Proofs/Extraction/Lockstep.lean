import ApiContract.Proofs.Extraction.Exchange

namespace ApiContract.Extraction

/-- Where a search stands: the slot it has come to and the schema there, how many steps are behind
it and which are left. -/
structure Stand where
  slot : Slot := {}
  schema : Schema
  skipped : Nat := 0
  left : List String

namespace Stand

def toItems (p : Stand) (item : Schema) : Stand :=
  { p with slot := p.slot.toItems, schema := item }

def toProperty (p : Stand) (step : String) (child : Schema) (rest : List String) : Stand :=
  ⟨p.slot.toProperty step, child, p.skipped + 1, rest⟩

/-- What the search for a slot gives from here. -/
def locate (p : Stand) : Except ResolveFault Slot := locateFrom p.slot p.schema p.left

/-- What the search for a reference gives from here. -/
def hop? (p : Stand) : Option Hop := hopFrom p.skipped p.schema p.left

end Stand

/-- What a search does in one turn. -/
inductive Turn (α : Type) where
  | on (next : Stand)
  | ends (result : α)

/-- The search for a slot passes an array whether steps are left or not. -/
def slotTurn (p : Stand) : Turn (Except ResolveFault Slot) :=
  if p.schema.kind = .array then
    match p.schema.singleItems with
    | some item => .on (p.toItems item)
    | none => .ends (.error (.malformedArray p.slot.name))
  else match p.left with
    | [] => .ends (.ok p.slot)
    | step :: rest =>
      match Members.find? p.schema.properties step with
      | some child => .on (p.toProperty step child rest)
      | none => .ends (.error (.noSuchProperty step))

/-- The search for a reference ends when no step is left, also at an array. -/
def hopTurn (p : Stand) : Turn (Option Hop) :=
  match p.left with
  | [] => .ends none
  | step :: rest =>
    if p.schema.kind = .array then
      match p.schema.singleItems with
      | some item => .on (p.toItems item)
      | none => .ends none
    else match p.schema.referenceName with
      | some name => .ends (some ⟨name, p.skipped⟩)
      | none =>
        match Members.find? p.schema.properties step with
        | some child => .on (p.toProperty step child rest)
        | none => .ends none

/-- One move down, into the items of an array or to a property. -/
inductive Down : Stand → Stand → Prop
  | items {p : Stand} {item : Schema} :
      p.schema.kind = .array → p.schema.singleItems = some item → Down p (p.toItems item)
  | property {p : Stand} {step : String} {rest : List String} {child : Schema} :
      p.schema.kind ≠ .array → p.left = step :: rest →
      Members.find? p.schema.properties step = some child → Down p (p.toProperty step child rest)

/-- The search for a reference ends here without one: no step is left, or there is no way down. -/
inductive Stuck : Stand → Prop
  | spent {p : Stand} : p.left = [] → Stuck p
  | malformed {p : Stand} : p.left ≠ [] → p.schema.kind = .array → p.schema.singleItems = none →
      Stuck p
  | missing {p : Stand} {step : String} {rest : List String} :
      p.schema.kind ≠ .array → p.schema.referenceName = none → p.left = step :: rest →
      Members.find? p.schema.properties step = none → Stuck p

variable {α : Type} {turn : Stand → Turn α} {answer : Stand → α} {p q last : Stand}
  {passed : List Stand} {hop : Hop} {root : Schema} {steps : List String}

theorem Down.sizeOf_lt (h : Down p q) : sizeOf q.schema < sizeOf p.schema := by
  cases h with
  | items _ hi => exact Schema.sizeOf_lt_of_singleItems hi
  | property _ _ hc => exact Schema.sizeOf_lt_of_find? hc

theorem Down.left_eq_nil (h : Down p q) (hp : p.left = []) : q.left = [] := by
  cases h with
  | items => exact hp
  | property _ hl => simp [hl] at hp

theorem slotTurn_eq_on_iff : slotTurn p = .on q ↔ Down p q := by
  constructor
  · intro h
    unfold slotTurn at h
    split at h
    · rename_i ha
      split at h <;> cases h
      exact .items ha ‹_›
    · rename_i ha
      split at h
      · cases h
      · rename_i hl
        split at h <;> cases h
        exact .property ha hl ‹_›
  · rintro (⟨ha, hi⟩ | ⟨ha, hl, hc⟩)
    · simp only [slotTurn, if_pos ha, hi]
    · simp only [slotTurn, if_neg ha, hl, hc]

/-- The search for a reference goes on as the other one does, if steps are left and it does not
stand at a reference. -/
theorem hopTurn_eq_on_iff :
    hopTurn p = .on q ↔ slotTurn p = .on q ∧ p.left ≠ [] ∧ p.schema.referenceName = none := by
  rw [slotTurn_eq_on_iff]
  constructor
  · intro h
    unfold hopTurn at h
    split at h
    · cases h
    · rename_i step rest hl
      have hne : p.left ≠ [] := by simp [hl]
      split at h
      · rename_i ha
        split at h <;> cases h
        exact ⟨.items ha ‹_›, hne, Schema.referenceName_eq_none_of_array ha⟩
      · rename_i ha
        split at h
        · cases h
        · rename_i hr
          split at h <;> cases h
          exact ⟨.property ha hl ‹_›, hne, hr⟩
  · rintro ⟨⟨ha, hi⟩ | ⟨ha, hl, hc⟩, hne, hr⟩
    · obtain ⟨step, rest, hl⟩ := List.exists_cons_of_ne_nil hne
      simp only [hopTurn, hl, if_pos ha, hi]
    · simp only [hopTurn, hl, if_neg ha, hr, hc]

theorem hopTurn_eq_ends_some_iff :
    hopTurn p = .ends (some hop) ↔
      p.left ≠ [] ∧ p.schema.referenceName = some hop.name ∧ p.skipped = hop.skipped := by
  constructor
  · intro h
    unfold hopTurn at h
    split at h
    · cases h
    · rename_i hl
      split at h
      · split at h <;> cases h
      · split at h
        · rename_i hr
          cases h
          exact ⟨by simp [hl], hr, rfl⟩
        · split at h <;> cases h
  · rintro ⟨hne, hr, hskipped⟩
    obtain ⟨step, rest, hl⟩ := List.exists_cons_of_ne_nil hne
    have ha := Schema.not_array_of_referenceName hr
    simp only [hopTurn, hl, if_neg ha, hr, hskipped]

theorem stuck_of_hopTurn (h : hopTurn p = .ends none) : Stuck p := by
  unfold hopTurn at h
  split at h
  · exact .spent ‹_›
  · rename_i hl
    split at h
    · rename_i ha
      split at h <;> cases h
      exact .malformed (by simp [hl]) ha ‹_›
    · rename_i ha
      split at h
      · cases h
      · rename_i hr
        split at h <;> cases h
        exact .missing ha hr hl ‹_›

/-- From a stand a search passes some stands, in order, and comes to the last. -/
inductive Passes {α : Type} (turn : Stand → Turn α) : Stand → List Stand → Stand → Prop
  | here {p : Stand} : Passes turn p [] p
  | on {p q last : Stand} {passed : List Stand} :
      turn p = .on q → Passes turn q passed last → Passes turn p (p :: passed) last

/-- A search gives what its turns come to: each goes down and leads on to the same answer, or gives
it. -/
structure Computes (turn : Stand → Turn α) (answer : Stand → α) : Prop where
  down : ∀ {p q}, turn p = .on q → Down p q
  on : ∀ {p q}, turn p = .on q → answer p = answer q
  ends : ∀ {p result}, turn p = .ends result → answer p = result

theorem Computes.answer_eq (h : Computes turn answer) (hp : Passes turn p passed last) :
    answer p = answer last := by
  induction hp with
  | here => rfl
  | on ht _ ih => exact (h.on ht).trans ih

/-- Every search ends, with its answer. -/
theorem Computes.exists_last (h : Computes turn answer) (p : Stand) :
    ∃ passed last, Passes turn p passed last ∧ turn last = .ends (answer p) := by
  cases ht : turn p with
  | ends result => exact ⟨[], p, .here, by rw [ht, h.ends ht]⟩
  | on q =>
    obtain ⟨passed, last, hp, hl⟩ := h.exists_last q
    exact ⟨p :: passed, last, .on ht hp, by rw [hl, h.on ht]⟩
termination_by sizeOf p.schema
decreasing_by exact (h.down ht).sizeOf_lt

theorem computes_slotTurn : Computes slotTurn Stand.locate where
  down := slotTurn_eq_on_iff.mp
  on := by
    intro p q h
    obtain ⟨ha, hi⟩ | ⟨ha, hl, hc⟩ := slotTurn_eq_on_iff.mp h
    · rw [Stand.locate, locateFrom_array ha, hi]
      rfl
    · rw [Stand.locate, hl, locateFrom_cons ha, hc]
      rfl
  ends := by
    intro p result h
    unfold slotTurn at h
    split at h
    · rename_i ha
      split at h <;> cases h
      rename_i hi
      rw [Stand.locate, locateFrom_array ha, hi]
    · rename_i ha
      split at h
      · rename_i hl
        cases h
        rw [Stand.locate, hl, locateFrom_nil ha]
      · rename_i hl
        split at h <;> cases h
        rename_i hc
        rw [Stand.locate, hl, locateFrom_cons ha, hc]

theorem Stuck.hop? (h : Stuck p) : p.hop? = none := by
  cases h with
  | spent hl => rw [Stand.hop?, hl, hopFrom_nil]
  | malformed hne ha hi =>
    obtain ⟨step, rest, hl⟩ := List.exists_cons_of_ne_nil hne
    rw [Stand.hop?, hl, hopFrom_array ha, hi]
  | missing ha hr hl hc => rw [Stand.hop?, hl, hopFrom_cons ha hr, hc]

theorem computes_hopTurn : Computes hopTurn Stand.hop? where
  down h := slotTurn_eq_on_iff.mp (hopTurn_eq_on_iff.mp h).1
  on := by
    intro p q h
    obtain ⟨hs, hne, hr⟩ := hopTurn_eq_on_iff.mp h
    obtain ⟨ha, hi⟩ | ⟨ha, hl, hc⟩ := slotTurn_eq_on_iff.mp hs
    · obtain ⟨step, rest, hl⟩ := List.exists_cons_of_ne_nil hne
      simp only [Stand.hop?, Stand.toItems, hl, hopFrom_array ha, hi]
    · rw [Stand.hop?, hl, hopFrom_cons ha hr, hc]
      rfl
  ends := by
    intro p result h
    cases result with
    | none => exact (stuck_of_hopTurn h).hop?
    | some hop =>
      obtain ⟨hne, hr, hskipped⟩ := hopTurn_eq_ends_some_iff.mp h
      obtain ⟨step, rest, hl⟩ := List.exists_cons_of_ne_nil hne
      rw [Stand.hop?, hl, hopFrom_reference hr, hskipped]

/-- Once no step is left, none comes back. -/
theorem Passes.left_eq_nil (h : Passes slotTurn p passed last) (hp : p.left = []) :
    last.left = [] := by
  induction h with
  | here => exact hp
  | on ht _ ih => exact ih ((slotTurn_eq_on_iff.mp ht).left_eq_nil hp)

/-- The stands that the search for a reference passes are the first that the other search passes,
while steps are left and none of them is at a reference. -/
theorem passes_hopTurn_iff :
    Passes hopTurn p passed last ↔
      Passes slotTurn p passed last ∧
        ∀ q ∈ passed, q.left ≠ [] ∧ q.schema.referenceName = none := by
  constructor
  · intro h
    induction h with
    | here => exact ⟨.here, nofun⟩
    | on ht _ ih =>
      obtain ⟨hs, hfree⟩ := hopTurn_eq_on_iff.mp ht
      exact ⟨.on hs ih.1, List.forall_mem_cons.mpr ⟨hfree, ih.2⟩⟩
  · rintro ⟨h, hfree⟩
    induction h with
    | here => exact .here
    | on ht _ ih =>
      obtain ⟨hp, hrest⟩ := List.forall_mem_cons.mp hfree
      exact .on (hopTurn_eq_on_iff.mpr ⟨ht, hp⟩) (ih hrest)

theorem Passes.left_ne_nil (h : Passes slotTurn p passed last) (hl : last.left ≠ []) :
    ∀ q ∈ passed, q.left ≠ [] := by
  induction h with
  | here => exact nofun
  | on ht hrest ih =>
    refine List.forall_mem_cons.mpr ⟨fun hp => hl ?_, ih hl⟩
    exact (Passes.on ht hrest).left_eq_nil hp

/-- The reference that is found is the first in which the search for a slot looks a step up. -/
theorem hop?_eq_some_iff :
    p.hop? = some hop ↔
      ∃ passed last, Passes slotTurn p passed last ∧
        (∀ q ∈ passed, q.schema.referenceName = none) ∧ last.skipped = hop.skipped ∧
        last.left ≠ [] ∧ last.schema.referenceName = some hop.name := by
  constructor
  · intro h
    obtain ⟨passed, last, hp, hl⟩ := computes_hopTurn.exists_last p
    rw [h] at hl
    obtain ⟨hne, hr, hskipped⟩ := hopTurn_eq_ends_some_iff.mp hl
    obtain ⟨hs, hfree⟩ := passes_hopTurn_iff.mp hp
    exact ⟨passed, last, hs, fun q hq => (hfree q hq).2, hskipped, hne, hr⟩
  · rintro ⟨passed, last, hs, hfree, hskipped, hne, hr⟩
    -- Steps are left at the last stand, so they are at all that come before it.
    have hp : Passes hopTurn p passed last :=
      passes_hopTurn_iff.mpr ⟨hs, fun q hq => ⟨hs.left_ne_nil hne q hq, hfree q hq⟩⟩
    rw [computes_hopTurn.answer_eq hp]
    exact computes_hopTurn.ends (hopTurn_eq_ends_some_iff.mpr ⟨hne, hr, hskipped⟩)

theorem referenceName_eq_none_of_hop? (h : p.hop? = none) (hl : p.left ≠ []) :
    p.schema.referenceName = none := by
  cases hr : p.schema.referenceName with
  | none => rfl
  | some name =>
    have hends : hopTurn p = .ends (some ⟨name, p.skipped⟩) :=
      hopTurn_eq_ends_some_iff.mpr ⟨hl, hr, rfl⟩
    rw [computes_hopTurn.ends hends] at h
    cases h

/-- Where no reference stands in the way, the search for a slot looks no step up in one. -/
theorem Passes.referenceName_eq_none (hs : Passes slotTurn p passed last) (h : p.hop? = none)
    (hl : last.left ≠ []) : last.schema.referenceName = none := by
  induction hs with
  | here => exact referenceName_eq_none_of_hop? h hl
  | on ht hrest ih =>
    have hne := (Passes.on ht hrest).left_ne_nil hl _ List.mem_cons_self
    have hr := referenceName_eq_none_of_hop? h hne
    exact ih (computes_hopTurn.on (hopTurn_eq_on_iff.mpr ⟨ht, hne, hr⟩) ▸ h) hl

/-- How the search for a slot ends from the stand where the search for a reference has ended without
one: there, if a property is missing or an array malformed, and past arrays if no step is left. -/
inductive Concludes (last : Stand) : Except ResolveFault Slot → Prop
  | missing {step : String} {rest : List String} :
      last.schema.kind ≠ .array → last.schema.referenceName = none → last.left = step :: rest →
      Members.find? last.schema.properties step = none →
      Concludes last (.error (.noSuchProperty step))
  | malformed : last.left ≠ [] → last.schema.kind = .array → last.schema.singleItems = none →
      Concludes last (.error (.malformedArray last.slot.name))
  | found {passed : List Stand} {target : Stand} :
      last.left = [] → Passes slotTurn last passed target → target.schema.kind ≠ .array →
      Concludes last (.ok target.slot)
  | malformedAfter {passed : List Stand} {array : Stand} :
      last.left = [] → Passes slotTurn last passed array → array.schema.kind = .array →
      array.schema.singleItems = none → Concludes last (.error (.malformedArray array.slot.name))

theorem Stuck.concludes (h : Stuck p) : Concludes p p.locate := by
  cases h with
  | malformed hne ha hi =>
    rw [Stand.locate, locateFrom_array ha, hi]
    exact .malformed hne ha hi
  | missing ha hr hl hc =>
    rw [Stand.locate, hl, locateFrom_cons ha, hc]
    exact .missing ha hr hl hc
  | spent hp =>
    obtain ⟨passed, last, hs, hends⟩ := computes_slotTurn.exists_last p
    have hl := hs.left_eq_nil hp
    rw [computes_slotTurn.answer_eq hs] at hends ⊢
    by_cases ha : last.schema.kind = .array
    · cases hi : last.schema.singleItems with
      | none =>
        rw [Stand.locate, locateFrom_array ha, hi]
        exact .malformedAfter hp hs ha hi
      | some item => simp [slotTurn, ha, hi] at hends
    · rw [Stand.locate, hl, locateFrom_nil ha]
      exact .found hp hs ha

namespace Stand

/-- Where both searches start. -/
def start (root : Schema) (steps : List String) : Stand := { schema := root, left := steps }

/-- A stand on the path from a root: the steps behind it lead to the schema there, which its slot
holds under the name of the last of them. -/
structure On (p : Stand) (root : Schema) (steps : List String) : Prop where
  left : p.left = steps.drop p.skipped
  name : p.slot.name = (steps.take p.skipped).getLast?.getD ""
  held : p.slot.held? root = some p.schema
  found : p.schema.kind ≠ .array → Extraction.locate root (steps.take p.skipped) = .ok p.slot

end Stand

/-- The steps between two stands lead down from the one to the other. -/
theorem Passes.descends (h : Passes slotTurn p passed q) :
    ∃ front route, p.left = front ++ q.left ∧ q.skipped = p.skipped + front.length ∧
      Descends p.schema front route q.schema ∧ q.slot = route.foldl Slot.move p.slot := by
  induction h with
  | here => exact ⟨[], [], rfl, rfl, .here, rfl⟩
  | @on p next q passed ht _ ih =>
    obtain ⟨front, route, hleft, hskipped, hd, hslot⟩ := ih
    cases slotTurn_eq_on_iff.mp ht with
    | items ha hi => exact ⟨front, .items :: route, hleft, hskipped, .items ha hi hd, hslot⟩
    | @property step rest child ha hl hc =>
      refine ⟨step :: front, .property step :: route, ?_, ?_, .property ha hc hd, hslot⟩
      · rw [hl, List.cons_append, ← hleft]
        rfl
      · have hskipped : q.skipped = p.skipped + 1 + front.length := hskipped
        rw [hskipped, List.length_cons, Nat.add_assoc, Nat.add_comm 1]

theorem Passes.on_path (h : Passes slotTurn (.start root steps) passed p) : p.On root steps := by
  obtain ⟨front, route, hleft, hskipped, hd, hslot⟩ := h.descends
  have hleft : steps = front ++ p.left := hleft
  have hskipped : p.skipped = front.length := by simpa [Stand.start] using hskipped
  have hd : Descends root front route p.schema := hd
  have hslot : p.slot = Slot.along route := hslot
  have htake : steps.take p.skipped = front := by rw [hskipped, hleft, List.take_left]
  constructor
  case left => rw [hskipped, hleft, List.drop_left]
  case name =>
    rw [htake, hslot]
    exact hd.name {}
  case held =>
    rw [hslot]
    exact held?_along hd.at?
  case found =>
    intro ha
    rw [htake]
    exact locate_eq_ok_iff.mpr ⟨route, p.schema, hd, ha, hslot⟩

/-- The search for a slot and the search for a reference go in step. Each is the run of its turns
from the root. The stands that the second one passes the first one passes too, and from each of them
both come to their answers; at every stand the steps behind it lead to its slot. A reference is
found exactly if the search for a slot comes to it with steps left, and past no other one. If none
is found, the search for a slot looks no step up in a reference, and it ends where the other one has
ended, by the same missing property or malformed array, or past arrays after the last step. -/
theorem searches_in_step (root : Schema) (steps : List String) :
    (∃ passed last, Passes slotTurn (.start root steps) passed last ∧
      slotTurn last = .ends (locate root steps)) ∧
    (∃ passed last, Passes hopTurn (.start root steps) passed last ∧
      hopTurn last = .ends (hop? root steps)) ∧
    (∀ passed p, Passes hopTurn (.start root steps) passed p →
      Passes slotTurn (.start root steps) passed p ∧
        p.hop? = hop? root steps ∧ p.locate = locate root steps) ∧
    (∀ passed p, Passes slotTurn (.start root steps) passed p → p.On root steps) ∧
    (∀ name i, hop? root steps = some ⟨name, i⟩ ↔
      ∃ passed p, Passes slotTurn (.start root steps) passed p ∧
        (∀ q ∈ passed, q.schema.referenceName = none) ∧ p.skipped = i ∧ p.left ≠ [] ∧
        p.schema.referenceName = some name) ∧
    (hop? root steps = none →
      (∀ passed p, Passes slotTurn (.start root steps) passed p → p.left ≠ [] →
        p.schema.referenceName = none) ∧
      ∃ passed last, Passes hopTurn (.start root steps) passed last ∧
        hopTurn last = .ends none ∧ Concludes last (locate root steps)) := by
  have hslot := computes_slotTurn.exists_last (.start root steps)
  have hhop := computes_hopTurn.exists_last (.start root steps)
  refine ⟨hslot, hhop, ?_, fun passed p h => h.on_path, ?_, ?_⟩
  · intro passed p h
    have hs := (passes_hopTurn_iff.mp h).1
    exact ⟨hs, (computes_hopTurn.answer_eq h).symm, (computes_slotTurn.answer_eq hs).symm⟩
  · exact fun name i => hop?_eq_some_iff (p := .start root steps)
  · intro hnone
    obtain ⟨passed, last, hp, hends⟩ := hhop
    have hends : hopTurn last = .ends none := hends.trans (congrArg Turn.ends hnone)
    have hs := (passes_hopTurn_iff.mp hp).1
    have hlocate : locate root steps = last.locate := computes_slotTurn.answer_eq hs
    refine ⟨fun _ _ h hl => h.referenceName_eq_none hnone hl, passed, last, hp, hends, ?_⟩
    rw [hlocate]
    exact (stuck_of_hopTurn hends).concludes

namespace Berth

def label : Schema := { types := some (.single .string) }

/-- A reference with a property beside it. -/
def owner : Schema := { Schema.referTo "Person" with properties := [("name", label)] }

/-- The reference stands behind an array and a property. -/
def berths : Schema :=
  { types := some (.single .array)
    items := some (.single { properties := [("owner", owner)] }) }

end Berth

open Berth in
/-- A path through a reference meets it, though the search for a slot goes on past it; a path up to
the reference does not. -/
theorem berths_in_step :
    hop? berths ["owner", "name"] = some ⟨"Person", 1⟩ ∧
    (∃ slot, locate berths ["owner", "name"] = .ok slot) ∧
    (∃ passed p, Passes slotTurn (.start berths ["owner", "name"]) passed p ∧ p.skipped = 1 ∧
      p.schema.referenceName = some "Person") ∧
    hop? berths ["owner"] = none ∧
    ∃ last, hopTurn last = .ends none ∧ Concludes last (locate berths ["owner"]) := by
  have hhop : hop? berths ["owner", "name"] = some ⟨"Person", 1⟩ := rfl
  have hnone : hop? berths ["owner"] = none := rfl
  obtain ⟨-, -, -, -, hsome, -⟩ := searches_in_step berths ["owner", "name"]
  obtain ⟨-, -, -, -, -, hstop⟩ := searches_in_step berths ["owner"]
  obtain ⟨passed, p, hp, -, hskipped, -, hr⟩ := (hsome "Person" 1).mp hhop
  obtain ⟨-, _, last, -, hends, hconcludes⟩ := hstop hnone
  exact ⟨hhop, ⟨_, rfl⟩, ⟨passed, p, hp, hskipped, hr⟩, hnone, last, hends, hconcludes⟩

end ApiContract.Extraction
