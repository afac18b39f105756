import ApiContract.Proofs.Extraction.Effect
import ApiContract.Proofs.Schema.Agreement

namespace ApiContract

open Extraction

namespace Schema

variable {s t new : Schema} {route rest other : Route}

/-- To put a schema further down is to put the changed schema on the way. -/
theorem put_append (h : s.at? route = some t) (rest : Route) (new : Schema) :
    s.put (route ++ rest) new = s.put route (t.put rest new) := by
  induction route generalizing s with
  | nil =>
    cases h
    rfl
  | cons move route ih =>
    cases move with
    | items =>
      obtain ⟨item, hi, h⟩ := Option.bind_eq_some_iff.mp h
      rw [List.cons_append, put_items hi, put_items hi, ih h]
    | property name =>
      obtain ⟨child, hc, h⟩ := Option.bind_eq_some_iff.mp h
      rw [List.cons_append, put_property hc, put_property hc, ih h]

/-- The old schema in its old place makes the whole what it was. -/
theorem put_put_self (h : s.at? route = some t) (new : Schema) :
    (s.put route new).put route t = s := by
  induction route generalizing s with
  | nil => exact (Option.some.inj h).symm
  | cons move route ih =>
    cases move with
    | items =>
      obtain ⟨item, hi, h⟩ := Option.bind_eq_some_iff.mp h
      rw [put_items hi, put_items rfl, ih h, ← items_of_singleItems hi]
      cases s
      rfl
    | property name =>
      obtain ⟨child, hc, h⟩ := Option.bind_eq_some_iff.mp h
      rw [put_property hc, put_property (Members.find?_insert_self ..), ih h,
        Members.insert_insert_of_find? hc]
      cases s
      rfl

/-- What stands neither on the way to a place nor below it stays as it is. -/
theorem at?_put_of_apart (h : s.at? route = some t) (hbelow : ¬ route <+: other)
    (habove : ¬ other <+: route) (new : Schema) : (s.put route new).at? other = s.at? other := by
  induction route generalizing s other with
  | nil => exact absurd List.nil_prefix hbelow
  | cons move route ih =>
    cases other with
    | nil => exact absurd List.nil_prefix habove
    | cons step other =>
      rw [at?_cons, at?_cons s step]
      by_cases he : step = move
      · subst he
        rw [List.prefix_cons_inj] at hbelow habove
        rw [at?_cons] at h
        obtain ⟨child, hc, h⟩ := Option.bind_eq_some_iff.mp h
        rw [at?_put_cons hc, hc]
        exact ih h hbelow habove
      · rw [at?_put_of_ne h he]

end Schema

namespace Extraction

namespace Slot

/-- The slot one move down. -/
def move (slot : Slot) : Move → Slot
  | .items => slot.toItems
  | .property name => slot.toProperty name

/-- The slot at the end of a route. -/
def along (route : Route) : Slot := route.foldl move {}

/-- The schema in a slot, as its owner holds it. -/
def held? (slot : Slot) (root : Schema) : Option Schema :=
  match slot.kind with
  | .root => some root
  | .items => (root.at? slot.route.dropLast).bind Schema.singleItems
  | .property =>
    (root.at? slot.route.dropLast).bind fun owner => Members.find? owner.properties slot.name

/-- Gives back the schema in a slot when its owner takes another one for it. A root that is replaced
leaves its description and whether it may be null. -/
def exchange (slot : Slot) (root new : Schema) : Option (Schema × Schema) :=
  match slot.kind with
  | .root => some (root, { new with description := root.description, nullable := root.nullable })
  | .items =>
    (root.at? slot.route.dropLast).bind fun owner => owner.singleItems.map fun old =>
      (old, root.put slot.route.dropLast { owner with items := some (.single new) })
  | .property =>
    (root.at? slot.route.dropLast).bind fun owner =>
      (Members.find? owner.properties slot.name).map fun old =>
        (old, root.put slot.route.dropLast
          { owner with properties := Members.insert owner.properties slot.name new })

end Slot

variable {root s t new old child item : Schema} {slot : Slot} {route : Route} {step : String}
  {steps before rest : List String}

theorem along_concat (route : Route) (move : Move) :
    Slot.along (route ++ [move]) = (Slot.along route).move move := by
  rw [Slot.along, List.foldl_append]
  rfl

theorem foldl_move_route (slot : Slot) (route : Route) :
    (route.foldl Slot.move slot).route = slot.route ++ route := by
  induction route generalizing slot with
  | nil => simp
  | cons move route ih =>
    rw [List.foldl_cons, ih]
    cases move <;> simp [Slot.move, Slot.toItems, Slot.toProperty]

@[simp] theorem along_route (route : Route) : (Slot.along route).route = route :=
  foldl_move_route {} route

/-- Every slot but the root is one move down from another one. -/
theorem eq_nil_or_move (route : Route) : route = [] ∨ ∃ front move, route = front ++ [move] ∧
    Slot.along route = (Slot.along front).move move := by
  rcases List.eq_nil_or_concat route with rfl | ⟨front, move, rfl⟩
  · exact Or.inl rfl
  · rw [List.concat_eq_append]
    exact Or.inr ⟨front, move, rfl, along_concat front move⟩

theorem along_kind_eq_root_iff : (Slot.along route).kind = .root ↔ route = [] := by
  rcases eq_nil_or_move route with rfl | ⟨front, move, rfl, he⟩
  · exact iff_of_true rfl rfl
  · rw [he]
    cases move <;> simp [Slot.move, Slot.toItems, Slot.toProperty]

/-- The owner of a slot has what stands there. -/
theorem held?_along (h : root.at? route = some t) : (Slot.along route).held? root = some t := by
  rcases eq_nil_or_move route with rfl | ⟨front, move, rfl, he⟩
  · exact h
  · rw [Schema.at?_append] at h
    obtain ⟨owner, ho, h⟩ := Option.bind_eq_some_iff.mp h
    have hroute := along_route (front ++ [move])
    rw [Slot.held?, hroute, List.dropLast_concat, ho, he]
    cases move with
    | items => exact (owner.at?_items).symm.trans h
    | property name => exact (owner.at?_property name).symm.trans h

/-- An exchange through the owner is a replacement from the root down. -/
theorem exchange_along (h : root.at? route = some t) (new : Schema) :
    (Slot.along route).exchange root new = some (t, (Slot.along route).replace root new) := by
  rcases eq_nil_or_move route with rfl | ⟨front, move, rfl, he⟩
  · obtain rfl := Option.some.inj h
    rfl
  · rw [Schema.at?_append] at h
    obtain ⟨owner, ho, h⟩ := Option.bind_eq_some_iff.mp h
    have hroute := along_route (front ++ [move])
    rw [Slot.exchange, Slot.replace, hroute, List.dropLast_concat, ho,
      Schema.put_append ho, he]
    cases move with
    | items =>
      rw [Schema.at?_items] at h
      simp [Slot.move, Slot.toItems, Slot.adapt, h, Schema.put]
    | property name =>
      rw [Schema.at?_property] at h
      simp [Slot.move, Slot.toProperty, Slot.adapt, h, Schema.put]

/-- Some steps lead down a route to a schema. Arrays are passed before a step is looked up, and may
be passed after the last one. -/
inductive Descends : Schema → List String → Route → Schema → Prop
  | here {s : Schema} : Descends s [] [] s
  | items {s item t : Schema} {steps : List String} {route : Route} :
      s.kind = .array → s.singleItems = some item → Descends item steps route t →
      Descends s steps (.items :: route) t
  | property {s child t : Schema} {step : String} {rest : List String} {route : Route} :
      s.kind ≠ .array → Members.find? s.properties step = some child →
      Descends child rest route t → Descends s (step :: rest) (.property step :: route) t

theorem Descends.at? (h : Descends s steps route t) : s.at? route = some t := by
  induction h with
  | here => rfl
  | items _ hi _ ih => simp [Schema.at?, hi, ih]
  | property _ hc _ ih => simp [Schema.at?, hc, ih]

/-- The name of a slot is the last step. -/
theorem Descends.name (h : Descends s steps route t) (slot : Slot) :
    (route.foldl Slot.move slot).name = steps.getLast?.getD slot.name := by
  induction h generalizing slot with
  | here => rfl
  | items _ _ _ ih => exact ih slot.toItems
  | @property s child t step rest route _ _ _ ih =>
    rw [List.foldl_cons, ih, List.getLast?_cons, Option.getD_some]
    rfl

/-- A search goes on from where the first of its steps lead. -/
theorem Descends.locateFrom_eq (h : Descends s before route t) (slot : Slot)
    (rest : List String) :
    locateFrom slot s (before ++ rest) = locateFrom (route.foldl Slot.move slot) t rest := by
  induction h generalizing slot with
  | here => rfl
  | items ha hi _ ih =>
    rw [locateFrom_array ha, hi]
    exact ih slot.toItems
  | @property s child t step before route ha hc _ ih =>
    rw [List.cons_append, locateFrom_cons ha, hc]
    exact ih (slot.toProperty step)

theorem Descends.locate_eq (h : Descends root before route t) (rest : List String) :
    locate root (before ++ rest) = locateFrom (Slot.along route) t rest :=
  h.locateFrom_eq {} rest

/-- Where a search ends: at its slot, at a step that is missing, or at an array without a single
schema for its items. -/
inductive Ends : Schema → List String → Prop
  | found {t : Schema} : t.kind ≠ .array → Ends t []
  | missing {t : Schema} {step : String} {rest : List String} :
      t.kind ≠ .array → Members.find? t.properties step = none → Ends t (step :: rest)
  | malformed {t : Schema} {rest : List String} :
      t.kind = .array → t.singleItems = none → Ends t rest

theorem exists_ends (s : Schema) (steps : List String) :
    ∃ before rest route t, steps = before ++ rest ∧ Descends s before route t ∧ Ends t rest := by
  by_cases ha : s.kind = .array
  · cases hi : s.singleItems with
    | none => exact ⟨[], steps, [], s, rfl, .here, .malformed ha hi⟩
    | some item =>
      obtain ⟨before, rest, route, t, hsteps, hd, he⟩ := exists_ends item steps
      exact ⟨before, rest, .items :: route, t, hsteps, .items ha hi hd, he⟩
  · match steps with
    | [] => exact ⟨[], [], [], s, rfl, .here, .found ha⟩
    | step :: steps =>
      cases hc : Members.find? s.properties step with
      | none => exact ⟨[], step :: steps, [], s, rfl, .here, .missing ha hc⟩
      | some child =>
        obtain ⟨before, rest, route, t, hsteps, hd, he⟩ := exists_ends child steps
        exact ⟨step :: before, rest, .property step :: route, t, congrArg _ hsteps,
          .property ha hc hd, he⟩
termination_by sizeOf s
decreasing_by
  · exact Schema.sizeOf_lt_of_singleItems hi
  · exact Schema.sizeOf_lt_of_find? hc

/-- What a search gives where it ends. -/
theorem locateFrom_of_ends (slot : Slot) (h : Ends t rest) :
    locateFrom slot t rest =
      if t.kind = .array then .error (.malformedArray slot.name)
      else match rest with
        | [] => .ok slot
        | step :: _ => .error (.noSuchProperty step) := by
  cases h with
  | found ha => rw [locateFrom_nil ha, if_neg ha]
  | missing ha hc => rw [locateFrom_cons ha, hc, if_neg ha]
  | malformed ha hi => rw [locateFrom_array ha, hi, if_pos ha]

theorem locate_eq_ok_iff :
    locate root steps = .ok slot ↔
      ∃ route t, Descends root steps route t ∧ t.kind ≠ .array ∧ slot = .along route := by
  constructor
  · intro h
    obtain ⟨before, rest, route, t, rfl, hd, he⟩ := exists_ends root steps
    rw [hd.locate_eq, locateFrom_of_ends _ he] at h
    cases he with
    | found ha =>
      rw [if_neg ha] at h
      rw [List.append_nil]
      exact ⟨route, t, hd, ha, (Except.ok.inj h).symm⟩
    | missing ha | malformed ha => simp [ha] at h
  · rintro ⟨route, t, hd, ha, rfl⟩
    rw [← List.append_nil steps, hd.locate_eq, locateFrom_nil ha]

theorem locate_eq_noSuchProperty_iff :
    locate root steps = .error (.noSuchProperty step) ↔
      ∃ before rest route t, steps = before ++ step :: rest ∧ Descends root before route t ∧
        t.kind ≠ .array ∧ Members.find? t.properties step = none := by
  constructor
  · intro h
    obtain ⟨before, rest, route, t, rfl, hd, he⟩ := exists_ends root steps
    rw [hd.locate_eq, locateFrom_of_ends _ he] at h
    cases he with
    | found ha | malformed ha => simp [ha] at h
    | missing ha hc =>
      obtain rfl : _ = step := by simpa [ha] using h
      exact ⟨before, _, route, t, rfl, hd, ha, hc⟩
  · rintro ⟨before, rest, route, t, rfl, hd, ha, hc⟩
    rw [hd.locate_eq, locateFrom_cons ha, hc]

theorem locate_eq_malformedArray_iff {name : String} :
    locate root steps = .error (.malformedArray name) ↔
      ∃ before rest route t, steps = before ++ rest ∧ Descends root before route t ∧
        t.kind = .array ∧ t.singleItems = none ∧ name = before.getLast?.getD "" := by
  have hname : ∀ {before route t}, Descends root before route t →
      (Slot.along route).name = before.getLast?.getD "" := fun hd => hd.name {}
  constructor
  · intro h
    obtain ⟨before, rest, route, t, rfl, hd, he⟩ := exists_ends root steps
    rw [hd.locate_eq, locateFrom_of_ends _ he] at h
    cases he with
    | found ha | missing ha => simp [ha] at h
    | malformed ha hi =>
      rw [if_pos ha, hname hd] at h
      cases h
      exact ⟨before, rest, route, t, rfl, hd, ha, hi, rfl⟩
  · rintro ⟨before, rest, route, t, rfl, hd, ha, hi, rfl⟩
    rw [hd.locate_eq, locateFrom_array ha, hi, hname hd]

/-- A search fails in no other way. -/
theorem fault_of_locate {fault : ResolveFault} (h : locate root steps = .error fault) :
    (∃ step, fault = .noSuchProperty step) ∨ ∃ name, fault = .malformedArray name := by
  obtain ⟨before, rest, route, t, rfl, hd, he⟩ := exists_ends root steps
  rw [hd.locate_eq, locateFrom_of_ends _ he] at h
  cases he with
  | found ha => simp [ha] at h
  | missing ha =>
    rw [if_neg ha] at h
    exact Or.inl ⟨_, (Except.error.inj h).symm⟩
  | malformed ha =>
    rw [if_pos ha] at h
    exact Or.inr ⟨_, (Except.error.inj h).symm⟩

/-- The same steps lead down the same route to what was put at its end. -/
theorem Descends.put (h : Descends s steps route t) (new : Schema) :
    Descends (s.put route new) steps route new := by
  induction h with
  | here => exact .here
  | @items s item t steps route ha hi h ih =>
    have hat : s.at? (.items :: route) = some t := (Descends.items ha hi h).at?
    have hagrees : s.Agrees (s.put (.items :: route) new) := Schema.agrees_put hat nofun
    have hkind := hagrees.kind
    rw [Schema.put_items hi] at hkind ⊢
    exact .items (hkind ▸ ha) rfl ih
  | @property s child t step rest route ha hc h ih =>
    have hat : s.at? (.property step :: route) = some t := (Descends.property ha hc h).at?
    have hagrees : s.Agrees (s.put (.property step :: route) new) := Schema.agrees_put hat nofun
    have hkind := hagrees.kind
    rw [Schema.put_property hc] at hkind ⊢
    exact .property (hkind ▸ ha) (Members.find?_insert_self ..) ih

/-- A slot holds one schema and takes another for it. The search finds the same slot again, nothing
else has changed, and putting the first schema back makes the root what it was. -/
structure Replaces (root : Schema) (steps : List String) (slot : Slot) (old new : Schema) :
    Prop where
  held : slot.held? root = some old
  exchanged : slot.exchange root new = some (old, slot.replace root new)
  found : locate (slot.replace root new) steps = .ok slot
  stored : slot.held? (slot.replace root new) = some (slot.adapt old new)
  edited : Schema.Edited old (slot.adapt old new) slot.route root (slot.replace root new)
  apart : ∀ other, ¬ slot.route <+: other → ¬ other <+: slot.route →
    (slot.replace root new).at? other = root.at? other
  restored : slot.exchange (slot.replace root new) old = some (slot.adapt old new, root)

theorem kind_adapt (slot : Slot) (root new : Schema) : (slot.adapt root new).kind = new.kind := by
  unfold Slot.adapt
  split <;> rfl

/-- Only a root leaves something of its own, and then it is what the slot holds. -/
theorem adapt_along (h : root.at? route = some old) (new : Schema) :
    (Slot.along route).adapt root new = (Slot.along route).adapt old new := by
  unfold Slot.adapt
  split
  · rename_i hk
    rw [along_kind_eq_root_iff] at hk
    subst hk
    obtain rfl := Option.some.inj h
    rfl
  · rfl

theorem replace_along (h : root.at? route = some old) (new : Schema) :
    (Slot.along route).replace root new = root.put route ((Slot.along route).adapt old new) := by
  rw [Slot.replace, along_route, adapt_along h]

theorem adapt_adapt (slot : Slot) (old new : Schema) :
    slot.adapt (slot.adapt old new) old = old := by
  unfold Slot.adapt
  split
  · cases old
    rfl
  · rfl

theorem replaces_of_descends (h : Descends root steps route old) (hn : new.kind ≠ .array) :
    Replaces root steps (.along route) old new := by
  have hold := h.at?
  have hreplace := replace_along hold new
  have hstored : (root.put route ((Slot.along route).adapt old new)).at? route =
      some ((Slot.along route).adapt old new) := Schema.at?_put hold
  rw [← hreplace] at hstored
  constructor
  case held => exact held?_along hold
  case exchanged => exact exchange_along hold new
  case found =>
    rw [locate_eq_ok_iff, hreplace]
    exact ⟨route, _, h.put _, by rwa [kind_adapt], rfl⟩
  case stored => exact held?_along hstored
  case edited =>
    rw [hreplace, along_route]
    exact Schema.edited_put hold _
  case apart =>
    intro other hbelow habove
    rw [along_route] at hbelow habove
    rw [hreplace]
    exact Schema.at?_put_of_apart hold hbelow habove _
  case restored =>
    rw [exchange_along hstored old, replace_along hstored old, adapt_adapt, hreplace,
      Schema.put_put_self hold]

/-- Every slot that a search passes holds a schema through its owner, and its name is the last step
taken. The search fails at the first step that is no property of the schema it is looked up in, or
at the first array without a single schema for its items, and otherwise finds the schema that its
steps lead to, which is no array. What is put there in its place, if it is no array either, is found
in the same way. -/
theorem locate_replaces (root : Schema) (steps : List String) :
    (∀ before rest route t, steps = before ++ rest → Descends root before route t →
      (Slot.along route).held? root = some t ∧
        (Slot.along route).name = before.getLast?.getD "") ∧
    (∀ step, locate root steps = .error (.noSuchProperty step) ↔
      ∃ before rest route t, steps = before ++ step :: rest ∧ Descends root before route t ∧
        t.kind ≠ .array ∧ Members.find? t.properties step = none) ∧
    (∀ name, locate root steps = .error (.malformedArray name) ↔
      ∃ before rest route t, steps = before ++ rest ∧ Descends root before route t ∧
        t.kind = .array ∧ t.singleItems = none ∧ name = before.getLast?.getD "") ∧
    (∀ fault, locate root steps = .error fault →
      (∃ step, fault = .noSuchProperty step) ∨ ∃ name, fault = .malformedArray name) ∧
    ∀ slot, locate root steps = .ok slot → ∃ old, Descends root steps slot.route old ∧
      old.kind ≠ .array ∧ ∀ new : Schema, new.kind ≠ .array → Replaces root steps slot old new := by
  refine ⟨?_, fun _ => locate_eq_noSuchProperty_iff, fun _ => locate_eq_malformedArray_iff,
    fun _ => fault_of_locate, ?_⟩
  · intro before rest route t _ hd
    exact ⟨held?_along hd.at?, hd.name {}⟩
  · intro slot h
    obtain ⟨route, old, hd, ha, rfl⟩ := locate_eq_ok_iff.mp h
    rw [along_route]
    exact ⟨old, hd, ha, fun new => replaces_of_descends hd⟩

namespace Crate

def label : Schema := { types := some (.single .string) }

def crate : Schema :=
  { types := some (.single .object)
    properties := [("labels", { types := some (.single .array), items := some (.single label) })] }

/-- Arrays stand before and after the property. -/
def crates : Schema := { types := some (.single .array), items := some (.single crate) }

end Crate

open Crate in
/-- A reference takes the place of the items of a property of items, and gives it back. -/
theorem crate_exchange :
    locate crates ["labels"] =
      .ok ⟨.items, "labels", [.items, .property "labels", .items]⟩ ∧
    (Schema.referTo "Label").kind ≠ .array ∧
    Replaces crates ["labels"] ⟨.items, "labels", [.items, .property "labels", .items]⟩ label
      (Schema.referTo "Label") := by
  have hlocate : locate crates ["labels"] =
      .ok ⟨.items, "labels", [.items, .property "labels", .items]⟩ := rfl
  have hnew : (Schema.referTo "Label").kind ≠ .array := by decide
  obtain ⟨-, -, -, -, hfound⟩ := locate_replaces crates ["labels"]
  obtain ⟨old, hd, -, hreplaces⟩ := hfound _ hlocate
  obtain rfl : label = old := Option.some.inj hd.at?
  exact ⟨hlocate, hnew, hreplaces _ hnew⟩

end Extraction

end ApiContract
