import ApiContract.Yaml.Event

namespace ApiContract.Yaml

/-- A list or a record that the text breaks off in has the fault. -/
inductive Node where
  | scalar (s : Scalar)
  /-- The node that begins with the event at a place. -/
  | aliasOf (place : Nat)
  | list (tag : Option String) (items : List Node) (fault : Option Fault)
  | record (tag : Option String) (members : List (Node × Node)) (fault : Option Fault)
  | broken (fault : Fault)
deriving Repr, Inhabited

/-- A list or a record that is open: where it began if it has an anchor, its tag, and what it holds
so far, the last first. -/
inductive Opening where
  | list (anchored : Option Nat) (tag : Option String) (items : List Node)
  | record (anchored : Option Nat) (tag : Option String) (members : List (Node × Node))
      (key : Option Node)

namespace Opening

def add (v : Node) : Opening → Opening
  | list anchored tag items => list anchored tag (v :: items)
  | record anchored tag members none => record anchored tag members (some v)
  | record anchored tag members (some key) => record anchored tag ((key, v) :: members) none

def anchored : Opening → Option Nat
  | list anchored _ _ | record anchored _ _ _ => anchored

/-- What was open, with the fault that it breaks off with. -/
def close (fault : Option Fault) : Opening → Node
  | list _ tag items => .list tag items.reverse fault
  | record _ tag members none => .record tag members.reverse fault
  | record _ tag members (some key) =>
    match fault with
    | some fault => .record tag ((key, .broken fault) :: members).reverse none
    | none => .record tag members.reverse none

end Opening

/-- A document in the making: the number of events so far, the number of each anchor, the place
where the last node of each number began, the nodes with an anchor by their places, and what is
open. An anchor's number counts the names before it, and an alias leads to the last node of its
number. -/
structure Growth where
  count : Nat := 0
  anchors : List (String × Nat) := []
  places : List (Nat × Nat) := []
  nodes : List (Nat × Node) := []
  openings : List Opening := []
  root : Option Node := none

namespace Growth

/-- Takes note of the node that begins here. -/
def mark (g : Growth) : Option String → Option Nat × Growth
  | none => (none, g)
  | some name =>
    let number := g.anchors.length
    let others := g.anchors.filter fun p => p.1 ≠ name
    (some g.count, { g with
      anchors := (name, number) :: others
      places := (number, g.count) :: g.places.filter fun p => p.1 ≠ number })

/-- Puts a finished node where it belongs. -/
def place (g : Growth) (anchored : Option Nat) (v : Node) : Growth :=
  let g := match anchored with
    | some n => { g with nodes := (n, v) :: g.nodes }
    | none => g
  match g.openings with
  | top :: openings => { g with openings := top.add v :: openings }
  | [] => { g with root := some v }

def open_ (g : Growth) (o : Opening) : Growth := { g with openings := o :: g.openings }

def close (g : Growth) (fault : Option Fault) : Growth :=
  match g.openings with
  | top :: openings => { g with openings }.place top.anchored (top.close fault)
  | [] => g

/-- Adds an event; only an alias can be at fault. -/
def add (g : Growth) (e : Event) : Except Fault Growth :=
  let next (g : Growth) : Except Fault Growth := .ok { g with count := g.count + 1 }
  match e with
  | .aliasOf name =>
    match g.anchors.lookup name with
    | some number => next (g.place none (.aliasOf number))
    | none => .error { problem := .unknownAnchor }
  | .scalar anchor s =>
    let (anchored, g) := g.mark anchor
    next (g.place anchored (.scalar s))
  | .listStart anchor tag =>
    let (anchored, g) := g.mark anchor
    next (g.open_ (.list anchored tag []))
  | .recordStart anchor tag =>
    let (anchored, g) := g.mark anchor
    next (g.open_ (.record anchored tag [] none))
  | .listEnd | .recordEnd => next (g.close none)
  | .documentStart | .documentEnd | .textEnd => .ok g

/-- The innermost list or record that is open breaks off, and all others end. -/
def breakOff (g : Growth) (fault : Fault) : Growth :=
  match g.openings with
  | [] => if g.root.isSome then g else { g with root := some (.broken fault) }
  | top :: openings =>
    openings.foldl (fun g _ => g.close none) ({ g with openings }.place top.anchored
      (top.close (some fault)))

end Growth

/-- The first document of a text: its root, the nodes that aliases lead to, the number of its
events, and what is at fault behind the root. -/
structure Tree where
  root : Node
  targets : List (Nat × Node)
  size : Nat
  after : Option Fault

namespace Tree

/-- The tree that was grown. -/
def ofGrowth (g : Growth) (after : Option Fault) : Tree where
  root := g.root.getD (.scalar { text := "" })
  targets := g.places.filterMap fun (number, place) =>
    (g.nodes.lookup place).map fun v => (number, v)
  size := g.count
  after

/-- Nothing but the end of the text may follow the first document. -/
def afterDocument : List Event → Option Fault
  | [.textEnd] => none
  | _ => some { problem := .severalDocuments }

/-- Takes the events up to the end of the first document. -/
def grow (g : Growth) (fault : Option Fault) : List Event → Tree
  | [] =>
    let fault := fault.getD { problem := .endOfText }
    ofGrowth (g.breakOff fault) (some fault)
  | .textEnd :: _ => ofGrowth g none
  | .documentEnd :: rest => ofGrowth g (afterDocument rest)
  | e :: rest =>
    match g.add e with
    | .ok g => grow g fault rest
    | .error fault => ofGrowth (g.breakOff fault) (some fault)

def ofText (text : List Char) : Tree :=
  let (events, fault) := events text
  grow {} fault events

end Tree

end ApiContract.Yaml
