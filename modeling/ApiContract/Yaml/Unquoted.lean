import ApiContract.Yaml.Gap

namespace ApiContract.Yaml

/-- The brackets and the comma, which end a word between brackets. -/
def isFlowMark (x : Char) : Bool :=
  x = ',' || x = '[' || x = ']' || x = '\x7b' || x = '\x7d'

/-- Between brackets a colon must not stand right before one of these. -/
def refusesColon : List Char → Bool
  | x :: _ => isFlowMark x || x = '?'
  | [] => false

/-- The scalar that stands at a place, whether it was followed by a line break, and the place behind
it and the gap after it. -/
structure Unquoted where
  text : List Char
  broken : Bool
  next : Cursor

def Unquoted.finish (gap : Gap) (done : List Char) (c : Cursor) : Unquoted :=
  ⟨done.reverse, gap.hasBreak, c⟩

/-- Reads on; outside of brackets a new line must be indented by `indent`. -/
def unquotedFrom (flow : Bool) (indent : Nat) (gap : Gap) (done : List Char) (c : Cursor) :
    Except Fault Unquoted :=
  match hc : c.rest with
  | [] => .ok (.finish gap done c)
  | x :: rest =>
    have hr : c.rest ≠ [] := by simp [hc]
    if isBlank x then
      if gap.hasBreak ∧ c.column < indent ∧ isTab x then
        .error ⟨.tabInIndentation, some .plainScalar⟩
      else
        have := Cursor.length_skip_lt hr Nat.one_pos
        unquotedFrom flow indent (gap.addBlank x) done (c.skip 1)
    else match hb : lineBreak? c.rest with
      | some (b, n) =>
        have := Cursor.length_nextLine_lt hb
        unquotedFrom flow indent (gap.addBreak b) done (c.nextLine n)
      | none =>
        if gap ≠ .none ∧ (!flow && c.column < indent || c.atDocumentMark || x = '#') then
          .ok (.finish gap done c)
        else if flow ∧ x = ':' ∧ refusesColon rest then
          .error ⟨.colonInScalar, some .plainScalar⟩
        else if x = ':' ∧ endsWord rest ∨ flow ∧ isFlowMark x then .ok (.finish gap done c)
        else
          have := Cursor.length_skip_lt hr Nat.one_pos
          unquotedFrom flow indent .none (x :: (gap.text.reverse ++ done)) (c.skip 1)
termination_by c.rest.length

end ApiContract.Yaml
