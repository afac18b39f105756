import ApiContract.Document.Schema
import ApiContract.Members
import ApiContract.Message

namespace ApiContract.Extraction

/-- One step down in a schema. -/
inductive Move where
  | items
  | property (name : String)
deriving Repr, DecidableEq

abbrev Route := List Move

end ApiContract.Extraction

namespace ApiContract.Schema

open Extraction

/-- The schema at the end of a route. -/
def at? : Route → Schema → Option Schema
  | [], s => some s
  | .items :: route, s => s.singleItems.bind (at? route)
  | .property name :: route, s => (Members.find? s.properties name).bind (at? route)

/-- The schema with another one at the end of a route; a route that leads nowhere changes
nothing. -/
def put : Route → Schema → Schema → Schema
  | [], _, new => new
  | .items :: route, s, new =>
    match s.singleItems with
    | some item => { s with items := some (.single (put route item new)) }
    | none => s
  | .property name :: route, s, new =>
    match Members.find? s.properties name with
    | some child => { s with properties := Members.insert s.properties name (put route child new) }
    | none => s

end ApiContract.Schema

namespace ApiContract.Extraction

/-- How a slot is held: as the root, as the items of an array, or as a property. -/
inductive SlotKind where
  | root
  | items
  | property
deriving Repr, DecidableEq

def SlotKind.label : SlotKind → String
  | root => "root"
  | items => "items"
  | property => "property"

/-- A place in a schema, and the last step of the path that led there; no step is the empty one. -/
structure Slot where
  kind : SlotKind := .root
  name : String := ""
  route : Route := []
deriving Repr, DecidableEq

namespace Slot

def toItems (slot : Slot) : Slot :=
  { slot with kind := .items, route := slot.route ++ [.items] }

def toProperty (slot : Slot) (name : String) : Slot :=
  ⟨.property, name, slot.route ++ [.property name]⟩

def schema? (slot : Slot) (root : Schema) : Option Schema := root.at? slot.route

/-- What is put in a slot. The root keeps its description and whether it may be null. -/
def adapt (slot : Slot) (root new : Schema) : Schema :=
  match slot.kind with
  | .root => { new with description := root.description, nullable := root.nullable }
  | _ => new

def replace (slot : Slot) (root new : Schema) : Schema :=
  root.put slot.route (slot.adapt root new)

end Slot

/-- A dotted property path; the empty one has no steps. -/
def splitSteps (property : String) : List String :=
  if property = "" then []
  else (Text.pieces (· = '.') property.toList).map String.ofList

mutual

/-- Walks the steps from a slot down. Arrays are passed through, so a step is looked up in the items
of an array, and a path that ends at an array ends at its items. -/
def locateFrom (slot : Slot) : Schema → List String → Except ResolveFault Slot
  | ⟨reference, types, _, _, _, properties, _, items, _⟩, steps =>
    if kindOf reference types (!properties.isEmpty) = .array then
      locateItems slot items steps
    else match steps with
      | [] => .ok slot
      | step :: rest => locateProperty slot step rest properties

def locateItems (slot : Slot) : Option (Items Schema) → List String → Except ResolveFault Slot
  | some (.single item), steps => locateFrom slot.toItems item steps
  | _, _ => .error (.malformedArray slot.name)

def locateProperty (slot : Slot) (step : String) (rest : List String) :
    List (String × Schema) → Except ResolveFault Slot
  | [] => .error (.noSuchProperty step)
  | (name, s) :: more =>
    if name = step then locateFrom (slot.toProperty step) s rest
    else locateProperty slot step rest more

end

/-- The slot that a property path leads to. -/
def locate (root : Schema) (steps : List String) : Except ResolveFault Slot :=
  locateFrom {} root steps

/-- The definition that a path runs into while steps remain, and the steps before it. -/
structure Hop where
  name : String
  skipped : Nat
deriving Repr, DecidableEq

mutual

def hopFrom (skipped : Nat) : Schema → List String → Option Hop
  | _, [] => none
  | ⟨reference, types, _, _, _, properties, _, items, _⟩, step :: rest =>
    match kindOf reference types (!properties.isEmpty) with
    | .array => hopItems skipped items (step :: rest)
    | .reference name => some ⟨name, skipped⟩
    | _ => hopProperty skipped step rest properties

def hopItems (skipped : Nat) : Option (Items Schema) → List String → Option Hop
  | some (.single item), steps => hopFrom skipped item steps
  | _, _ => none

def hopProperty (skipped : Nat) (step : String) (rest : List String) :
    List (String × Schema) → Option Hop
  | [] => none
  | (name, s) :: more =>
    if name = step then hopFrom (skipped + 1) s rest else hopProperty skipped step rest more

end

/-- The first reference that stands in the way of a path. -/
def hop? (root : Schema) (steps : List String) : Option Hop := hopFrom 0 root steps

end ApiContract.Extraction
