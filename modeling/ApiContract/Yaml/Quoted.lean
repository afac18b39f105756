import ApiContract.Text.Escape
import ApiContract.Yaml.Gap

namespace ApiContract.Yaml

inductive Quote where
  | single
  | double
deriving Repr, DecidableEq

def Quote.mark : Quote → Char
  | single => '\''
  | double => '"'

/-- The character whose number is spelled by a count of hexadecimal digits. -/
def numbered (count : Nat) (cs : List Char) : Except Fault (Char × Nat) :=
  let digits := cs.take count
  match if digits.length = count then Text.hexNumber? digits else none with
  | none => .error ⟨.noHexNumber, some .escape⟩
  | some n =>
    if h : n.isValidChar then .ok (Char.ofNatAux n h, count + 1)
    else .error ⟨.noCharacter, some .escape⟩

/-- The character that is meant by what follows a backslash, and how many characters that is. -/
def escapedChar : List Char → Except Fault (Char × Nat)
  | '0' :: _ => .ok ('\x00', 1)
  | 'a' :: _ => .ok ('\x07', 1)
  | 'b' :: _ => .ok ('\x08', 1)
  | 't' :: _ => .ok ('\t', 1)
  | '\t' :: _ => .ok ('\t', 1)
  | 'n' :: _ => .ok ('\n', 1)
  | 'v' :: _ => .ok ('\x0b', 1)
  | 'f' :: _ => .ok ('\x0c', 1)
  | 'r' :: _ => .ok ('\r', 1)
  | 'e' :: _ => .ok ('\x1b', 1)
  | ' ' :: _ => .ok (' ', 1)
  | '"' :: _ => .ok ('"', 1)
  | '/' :: _ => .ok ('/', 1)
  | '\\' :: _ => .ok ('\\', 1)
  | 'N' :: _ => .ok ('\u0085', 1)
  | '_' :: _ => .ok ('\u00a0', 1)
  | 'L' :: _ => .ok ('\u2028', 1)
  | 'P' :: _ => .ok ('\u2029', 1)
  | 'x' :: rest => numbered 2 rest
  | 'u' :: rest => numbered 4 rest
  | 'U' :: rest => numbered 8 rest
  | _ => .error ⟨.unknownEscape, some .escape⟩

/-- The text up to the closing quote and the place behind it; `done` holds what was read, the last
character first. -/
def quotedFrom (q : Quote) (gap : Gap) (done : List Char) (c : Cursor) :
    Except Fault (List Char × Cursor) :=
  if c.atDocumentMark then .error ⟨.documentMark, some .quotedScalar⟩
  else match hc : c.rest with
    | [] => .error ⟨.endInScalar, some .quotedScalar⟩
    | x :: rest =>
      have hr : c.rest ≠ [] := by simp [hc]
      if isBlank x then
        have := Cursor.length_skip_lt hr Nat.one_pos
        quotedFrom q (gap.addBlank x) done (c.skip 1)
      else match hb : lineBreak? c.rest with
        | some (b, n) =>
          have := Cursor.length_nextLine_lt hb
          quotedFrom q (gap.addBreak b) done (c.nextLine n)
        | none =>
          let done := gap.text.reverse ++ done
          if x = q.mark then
            if q = .single ∧ rest.head? = some '\'' then
              have := Cursor.length_skip_lt hr Nat.two_pos
              quotedFrom q .none ('\'' :: done) (c.skip 2)
            else .ok (done.reverse, c.skip 1)
          else if q = .double ∧ x = '\\' then
            match hn : lineBreak? (c.skip 1).rest with
            | some (_, n) =>
              have := Cursor.length_skip_lt hr Nat.one_pos
              have := Cursor.length_nextLine_lt hn
              quotedFrom q (.breaks [] []) done ((c.skip 1).nextLine n)
            | none =>
              match escapedChar rest with
              | .error fault => .error fault
              | .ok (y, n) =>
                have := Cursor.length_skip_lt hr (Nat.succ_pos n)
                quotedFrom q .none (y :: done) (c.skip (n + 1))
          else
            have := Cursor.length_skip_lt hr Nat.one_pos
            quotedFrom q .none (x :: done) (c.skip 1)
termination_by c.rest.length

/-- The scalar whose opening quote stands here. -/
def quotedScalar (q : Quote) (c : Cursor) : Except Fault (String × Cursor) := do
  let (text, c) ← quotedFrom q .none [] (c.skip 1)
  return (String.ofList text, c)

end ApiContract.Yaml
