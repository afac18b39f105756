import ApiContract.Text.Diff.Edit

namespace ApiContract.Text.Diff

/-- A place in a script: the edits before it, the nearest first, the edit itself and those after. -/
structure Cursor where
  before : List Edit
  here : Edit
  after : List Edit

namespace Edit

def moveBack (e : Edit) (k : Nat) : Edit :=
  { e with oldStart := e.oldStart - k, newStart := e.newStart - k }

def moveOn (e : Edit) (k : Nat) : Edit :=
  { e with oldStart := e.oldStart + k, newStart := e.newStart + k }

def shorten (e : Edit) (k : Nat) : Edit := { e with length := e.length - k }

def lengthen (e : Edit) (k : Nat) : Edit := { e with length := e.length + k }

/-- The lines at the end of an equal run that are also the last lines of an insertion after it. A
deletion holds no new lines, so it shares none. -/
def sharedEnd (old new : Array String) (equal change : Edit) : Nat :=
  if change.kind = .insert then
    commonEnd old new (equal.oldStart + equal.length) (change.newStart + change.length)
      (min equal.length change.length)
  else 0

/-- The lines at the start of an equal run that are also the first lines of an insertion before
it. -/
def sharedStart (old new : Array String) (equal change : Edit) : Nat :=
  if change.kind = .insert then
    commonStart old new equal.oldStart change.newStart (min equal.length change.length)
  else 0

end Edit

/-- Gives lines to the equal run at the start of a script, or starts one. -/
def growStart (run : Edit) : List Edit → List Edit
  | e :: rest =>
    if e.kind = .equal then (e.moveBack run.length).lengthen run.length :: rest
    else run :: e :: rest
  | [] => [run]

/-- Gives lines to the equal run at the end of the edits before a place, or starts one. -/
def growEnd (run : Edit) : List Edit → List Edit
  | e :: rest => if e.kind = .equal then e.lengthen run.length :: rest else run :: e :: rest
  | [] => [run]

def totalLength (es : List Edit) : Nat := es.foldr (fun e n => e.length + n) 0

/-- Moves a change up as far as it goes. -/
def raise (old new : Array String) (before : List Edit) (here : Edit) (after : List Edit) :
    Cursor :=
  match before with
  | [] => ⟨[], here, after⟩
  | prev :: more =>
    if here.kind = .equal then ⟨prev :: more, here, after⟩
    else if prev.kind = .equal then
      let k := Edit.sharedEnd old new prev here
      if k = 0 then
        if prev.length = 0 then raise old new more here after else ⟨prev :: more, here, after⟩
      else
        let run : Edit :=
          ⟨.equal, prev.oldStart + prev.length - k, here.newStart + here.length - k, k⟩
        let after := growStart run after
        if prev.length - k = 0 then raise old new more (here.moveBack k) after
        else raise old new (prev.shorten k :: more) (here.moveBack k) after
    else if prev.kind = here.kind then raise old new more (prev.lengthen here.length) after
    else raise old new more here (prev :: after)
termination_by totalLength before + before.length
decreasing_by all_goals simp_wf; all_goals simp [totalLength, Edit.shorten]; all_goals omega

/-- Moves a change down as far as it goes. -/
def lower (old new : Array String) (before : List Edit) (here : Edit) (after : List Edit) :
    Cursor :=
  match after with
  | [] => ⟨before, here, []⟩
  | next :: more =>
    if here.kind = .equal then ⟨before, here, next :: more⟩
    else if next.kind = .equal then
      let k := Edit.sharedStart old new next here
      if k = 0 then
        if next.length = 0 then lower old new before here more else ⟨before, here, next :: more⟩
      else
        let run : Edit := ⟨.equal, next.oldStart, here.newStart, k⟩
        let before := growEnd run before
        if next.length - k = 0 then lower old new before (here.moveOn k) more
        else lower old new before (here.moveOn k) ((next.moveOn k).shorten k :: more)
    else if next.kind = here.kind then lower old new before (here.lengthen next.length) more
    else lower old new (next :: before) here more
termination_by totalLength after + after.length
decreasing_by
  all_goals simp_wf
  all_goals simp [totalLength, Edit.shorten, Edit.moveOn]
  all_goals omega

/-- The edits of one kind. -/
def countKind (kind : EditKind) (es : List Edit) : Nat := es.countP (·.kind = kind)

theorem countKind_growStart {kind : EditKind} (h : kind ≠ .equal) (i j k : Nat) (es : List Edit) :
    countKind kind (growStart ⟨.equal, i, j, k⟩ es) = countKind kind es := by
  cases es with
  | nil => simp [growStart, countKind, Ne.symm h]
  | cons e rest =>
    simp only [growStart]
    split
    · simp [countKind, List.countP_cons, Edit.lengthen, Edit.moveBack]
    · simp [countKind, List.countP_cons, Ne.symm h]

/-- A change keeps its kind on its way up, and no other edit of that kind gets behind it. -/
theorem raise_kind (old new : Array String) (before : List Edit) (here : Edit)
    (after : List Edit) :
    (raise old new before here after).here.kind = here.kind ∧
    countKind here.kind (raise old new before here after).after = countKind here.kind after := by
  fun_induction raise old new before here after with
  | case1 => exact ⟨rfl, rfl⟩
  | case2 => exact ⟨rfl, rfl⟩
  | case3 _ _ _ _ _ _ _ _ _ ih => exact ih
  | case4 => exact ⟨rfl, rfl⟩
  | case5 here after prev more hk _ k _ run after' _ ih =>
    exact ⟨ih.1, ih.2.trans (countKind_growStart hk _ _ _ _)⟩
  | case6 here after prev more hk _ k _ run after' _ ih =>
    exact ⟨ih.1, ih.2.trans (countKind_growStart hk _ _ _ _)⟩
  | case7 here after prev more hk _ he ih => exact ⟨ih.1.trans he, by rw [← he]; exact ih.2⟩
  | case8 here after prev more hk _ he ih =>
    refine ⟨ih.1, ih.2.trans ?_⟩
    simp [countKind, he]

/-- On its way down a change only leaves edits behind. -/
theorem countKind_lower_le (kind : EditKind) (old new : Array String) (before : List Edit)
    (here : Edit) (after : List Edit) :
    countKind kind (lower old new before here after).after ≤ countKind kind after := by
  fun_induction lower old new before here after <;>
    simp_all [countKind, List.countP_cons, Edit.shorten, Edit.moveOn] <;> omega

/-- Moves every change of one kind to its place, from the first to the last. -/
def compactKind (kind : EditKind) (old new : Array String) (before after : List Edit) : List Edit :=
  match after with
  | [] => before.reverse
  | e :: rest =>
    if e.kind = kind then
      let up := raise old new before e rest
      let down := lower old new up.before up.here up.after
      compactKind kind old new (down.here :: down.before) down.after
    else compactKind kind old new (e :: before) rest
termination_by (countKind kind after, after.length)
decreasing_by
  · rename_i he
    have hr := (raise_kind old new before e rest).2
    have hl := countKind_lower_le kind old new up.before up.here up.after
    rw [he] at hr
    have hc : countKind kind (e :: rest) = countKind kind rest + 1 := by
      simp [countKind, he]
    apply Prod.Lex.left
    rw [hc]
    exact Nat.lt_succ_of_le (Nat.le_trans hl (Nat.le_of_eq hr))
  · rename_i he
    apply Prod.Lex.right'
    · simp [countKind, he]
    · simp

/-- Moves first the deletions and then the insertions to where they read best: up past equal lines
while the lines before a change are its own last lines, and then down in the same way. -/
def compact (old new : Array String) (es : List Edit) : List Edit :=
  compactKind .insert old new [] (compactKind .delete old new [] es)

end ApiContract.Text.Diff
