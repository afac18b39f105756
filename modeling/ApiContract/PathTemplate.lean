import ApiContract.Text.Search

namespace ApiContract

inductive Piece where
  | literal (text : String)
  | parameter (name : String)
deriving Repr, DecidableEq

namespace Piece

/-- The part of the template that a piece stands for. -/
def source : Piece → String
  | literal text => text
  | parameter name => "\x7b" ++ name ++ "\x7d"

def parameter? : Piece → Option String
  | literal _ => none
  | parameter name => some name

/-- No piece at all for the empty text. -/
def ofText (cs : List Char) : List Piece :=
  if cs = [] then [] else [.literal (String.ofList cs)]

end Piece

/-- The pieces of a template and the parameters that occur nowhere in it. -/
structure PathTemplate where
  pieces : List Piece
  unplaced : List String
deriving Repr, DecidableEq

namespace PathTemplate

/-- Puts `name` at the first literal that holds its placeholder. -/
def place? (name : String) : List Piece → Option (List Piece)
  | [] => none
  | .parameter v :: rest => (place? name rest).map (.parameter v :: ·)
  | .literal text :: rest =>
    match Text.splitFirst? (Piece.parameter name).source.toList text.toList with
    | some (before, after) =>
      some (Piece.ofText before ++ .parameter name :: Piece.ofText after ++ rest)
    | none => (place? name rest).map (.literal text :: ·)

def step (t : PathTemplate) (name : String) : PathTemplate :=
  match place? name t.pieces with
  | some pieces => { t with pieces }
  | none => { t with unplaced := t.unplaced ++ [name] }

/-- A template relative to a base: one leading slash goes. -/
def relative (template : String) : List Char :=
  match template.toList with
  | '/' :: rest => rest
  | cs => cs

/-- Where a placeholder stands in the template decides where its parameter stands, whatever the
order in which the parameters are given. -/
def interpolate (template : String) (parameters : List String) : PathTemplate :=
  parameters.foldl step ⟨Piece.ofText (relative template), []⟩

/-- The placed parameters in the order of the template. -/
def placed (t : PathTemplate) : List String :=
  t.pieces.filterMap Piece.parameter?

end PathTemplate

end ApiContract
