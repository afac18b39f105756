import ApiContract.Source.Basic
import ApiContract.Yaml.Node

namespace ApiContract.Source

open Yaml (Node Tree)

/-- A text may have this many lists and records inside each other. -/
def deepestYaml : Nat := 128

/-- For each node, aliases may be followed this often. -/
def followsPerNode : Nat := 100

/-- Follows an alias if it may still be followed, and counts that. -/
def follow (targets : List (Nat × Node)) (v : Node) : StateM Nat Node := do
  match v with
  | .aliasOf n =>
    match ← get with
    | 0 => return .broken { problem := .tooManyAliases }
    | left + 1 =>
      set left
      return (targets.lookup n).getD (.broken { problem := .unknownAnchor })
  | v => return v

def nameOf : Node → MemberName
  | .scalar s => .scalar s
  | _ => .compound

/-- A tag of the user's own is kept with the value. -/
def withTag (tag : Option String) (v : Source) : Source :=
  match tag.bind Yaml.ownTag? with
  | some name => .tagged name v
  | none => v

/-- An alias gives way to the node that it stands for. How deep nodes may lie in each other and how
often an alias may be followed have a limit, so that a node within itself does not go on forever. -/
def ofNode (targets : List (Nat × Node)) : Nat → Node → StateM Nat Source
  | 0, v => do
    match ← follow targets v with
    | .scalar s => return .scalar s
    | .broken fault => return .broken (.yaml fault)
    | _ => return .broken (.yaml { problem := .tooDeep })
  | depth + 1, v => do
    match ← follow targets v with
    | .scalar s => return .scalar s
    | .broken fault => return .broken (.yaml fault)
    | .list tag items fault =>
      let items ← items.mapM fun v => ofNode targets depth v
      return withTag tag (.list items (fault.map .yaml))
    | .record tag members fault =>
      let members ← members.mapM fun (k, v) => do
        let name := nameOf (← follow targets k)
        return (name, ← ofNode targets depth v)
      return withTag tag (.record members (fault.map .yaml))
    | .aliasOf _ => return .broken (.yaml { problem := .unknownAnchor })

/-- Reads the first document of a YAML text; what follows it counts only if it is in order. -/
def readYaml {α : Type} (read : Source → Except DecodeFault α) (text : String) :
    Except DecodeFault α := do
  let tree := Tree.ofText text.toList
  let (v, _) := (ofNode tree.targets deepestYaml tree.root).run (followsPerNode * tree.size)
  let a ← read v
  match tree.after with
  | some fault => throw (.malformed (.yaml fault))
  | none => return a

end ApiContract.Source
