import ApiContract.Proofs.Json.Numeral
import ApiContract.Proofs.Source.Plain

namespace ApiContract.Source

/-- A plain value whose numbers all are of one kind. -/
structure PlainWith (P : Number → Prop) (n : Nat) (v : Source) : Prop where
  plain : Plain n v
  numbers : ∀ x, v.Has x → P x

namespace PlainWith

variable {P : Number → Prop} {n m : Nat} {v : Source}

theorem mono (h : PlainWith P n v) (hle : n ≤ m) : PlainWith P m v :=
  ⟨h.plain.mono hle, h.numbers⟩

theorem null : PlainWith P n .null := ⟨.null, nofun⟩

theorem bool (b : Bool) : PlainWith P n (.bool b) := ⟨.bool b, nofun⟩

theorem string (s : String) : PlainWith P n (.string s) := ⟨.string s, nofun⟩

theorem broken (fault : TextFault) : PlainWith P n (.broken fault) := ⟨.broken fault, nofun⟩

theorem misspelt (fault : TextFault) : PlainWith P n (.misspelt fault) := ⟨.misspelt fault, nofun⟩

theorem emptyList (fault : TextFault) : PlainWith P n (.list [] (some fault)) :=
  ⟨.emptyList fault, by rintro x (_ | ⟨⟨⟩, -⟩)⟩

theorem emptyRecord (fault : TextFault) : PlainWith P n (.record [] (some fault)) :=
  ⟨.emptyRecord fault, by rintro x (_ | _ | ⟨⟨⟩, -⟩)⟩

theorem number {x : Number} (h : P x) : PlainWith P n (.number x) :=
  ⟨.number x, by rintro _ ⟨⟩; exact h⟩

theorem list {vs : List Source} (fault : Option TextFault) (h : ∀ v ∈ vs, PlainWith P n v) :
    PlainWith P (n + 1) (.list vs fault) where
  plain := .list fault fun v hv => (h v hv).plain
  numbers := by
    rintro x (_ | ⟨hv, hx⟩)
    exact (h _ hv).numbers x hx

theorem record {ms : List (MemberName × Source)} (fault : Option TextFault)
    (names : ∀ p ∈ ms, ∃ s, p.1 = .text s) (h : ∀ p ∈ ms, PlainWith P n p.2) :
    PlainWith P (n + 1) (.record ms fault) where
  plain := .record fault names fun p hp => (h p hp).plain
  numbers := by
    rintro x (_ | _ | ⟨hp, hx⟩)
    exact (h _ hp).numbers x hx

end PlainWith

variable {P : Number → Prop}

namespace Frame

/-- What a list or record holds so far is plain. -/
def Holds (P : Number → Prop) (n : Nat) : Frame → Prop
  | list _ items => ∀ v ∈ items, PlainWith P n v
  | record _ members _ => ∀ p ∈ members, (∃ s, p.1 = .text s) ∧ PlainWith P n p.2

variable {n : Nat} {frame : Frame} {v : Source}

theorem Holds.add (h : frame.Holds P n) (hv : PlainWith P n v) : (frame.add v).Holds P n := by
  cases frame with
  | list plan items => exact List.forall_mem_cons.mpr ⟨hv, h⟩
  | record plan members name => exact List.forall_mem_cons.mpr ⟨⟨⟨name, rfl⟩, hv⟩, h⟩

theorem Holds.close (h : frame.Holds P n) (fault : Option Json.Fault) :
    PlainWith P (n + 1) (frame.close fault) := by
  cases frame with
  | list plan items => exact .list _ fun v hv => h v (List.mem_reverse.mp hv)
  | record plan members name =>
    exact .record _ (fun p hp => (h p (List.mem_reverse.mp hp)).1)
      fun p hp => (h p (List.mem_reverse.mp hp)).2

end Frame

namespace State

/-- The lists and records that are open hold what may still stand at their depth. -/
def Open (P : Number → Prop) : List Frame → Prop
  | [] => True
  | frame :: frames =>
    frames.length < deepest ∧ frame.Holds P (deepest - (frames.length + 1)) ∧ Open P frames

/-- Whatever has been read is plain. -/
def Sound (P : Number → Prop) : State → Prop
  | value _ _ frames | colon _ frames | passing _ _ frames => Open P frames
  | memberName plan members _ frames => Open P (.record plan members "" :: frames)
  | separator frame frames => Open P (frame :: frames)
  | done v | overrun v | stopped v => PlainWith P deepest v

variable {frame : Frame} {frames : List Frame} {v : Source} {state : State} {token : Json.Token}

theorem Open.close (h : Open P (frame :: frames)) (fault : Option Json.Fault) :
    PlainWith P (deepest - frames.length) (frame.close fault) := by
  obtain ⟨hlt, hholds, -⟩ := h
  exact (hholds.close fault).mono (by omega)

theorem Open.add (h : Open P (frame :: frames))
    (hv : PlainWith P (deepest - (frames.length + 1)) v) : Open P (frame.add v :: frames) :=
  ⟨h.1, h.2.1.add hv, h.2.2⟩

theorem sound_accept (h : Open P frames) (hv : PlainWith P (deepest - frames.length) v) :
    (accept v frames).Sound P := by
  cases frames with
  | nil => exact hv
  | cons frame frames => exact h.add hv

theorem sound_stop (h : Open P frames) (hv : PlainWith P (deepest - frames.length) v) :
    (stop v frames).Sound P := by
  induction frames generalizing v with
  | nil => exact hv
  | cons frame frames ih => exact ih h.2.2 ((h.add hv).close none)

theorem sound_fail (h : Open P frames) (fault : Json.Fault) : (fail fault frames).Sound P :=
  sound_stop h (.broken _)

theorem sound_stopIn (h : Open P (frame :: frames)) (fault : Json.Fault) :
    (stopIn fault frame frames).Sound P :=
  sound_stop h.2.2 (h.close (some fault))

theorem plain_ofWord {n : Nat} (w : Json.Word) : PlainWith P n (ofWord w) := by
  cases w with
  | null => exact .null
  | true | false => exact .bool _

theorem sound_closeEarly (h : Open P frames) (opened : Bool) :
    (closeEarly opened frames).Sound P := by
  unfold closeEarly
  split
  · split
    · exact sound_accept h.2.2 (h.close none)
    · exact sound_stopIn h _
  · exact sound_fail h _

/-- The number of a token, if it has one, is of the kind. -/
def Gives (P : Number → Prop) : Json.Token → Prop
  | .number (.ok x) _ => P x
  | _ => True

theorem sound_stepValue (h : Open P frames) (plan : Plan) (opened : Bool)
    (htoken : Gives P token) : (stepValue plan opened frames token).Sound P := by
  unfold stepValue
  split
  · exact sound_accept h (plain_ofWord _)
  · exact sound_stop h (.misspelt _)
  · exact sound_accept h (.number htoken)
  · exact sound_stop h (.misspelt _)
  · exact sound_accept h (.string _)
  · exact sound_fail h _
  · split
    · rename_i hlt
      exact ⟨hlt, nofun, h⟩
    · exact sound_stop h (.emptyList _)
  · split
    · rename_i hlt
      exact ⟨hlt, nofun, h⟩
    · exact sound_stop h (.emptyRecord _)
  · exact sound_closeEarly h opened
  all_goals exact sound_fail h _

theorem sound_stepName {plan : Plan} {members : List (MemberName × Source)}
    (h : Open P (.record plan members "" :: frames)) (opened : Bool) (token : Json.Token) :
    (stepName plan members opened frames token).Sound P := by
  unfold stepName
  split
  · exact h
  · exact sound_stopIn h _
  · split
    · exact sound_accept h.2.2 (h.close none)
    · exact sound_stopIn h _
  · exact sound_stopIn h _

theorem sound_stepSeparator (h : Open P (frame :: frames)) (token : Json.Token) :
    (stepSeparator frame frames token).Sound P := by
  unfold stepSeparator
  split
  · exact h
  · exact sound_accept h.2.2 (h.close none)
  · exact sound_stopIn h _
  · exact h
  · exact sound_accept h.2.2 (h.close none)
  · exact sound_stopIn h _

theorem sound_passed (h : Open P frames) (brackets : List Bracket) :
    (passed frames brackets).Sound P := by
  cases brackets with
  | nil => exact sound_accept h .null
  | cons => exact h

theorem sound_passValue (h : Open P frames) (brackets : List Bracket) (token : Json.Token) :
    (passValue brackets frames token).Sound P := by
  unfold passValue
  split
  all_goals first | exact sound_passed h _ | exact sound_fail h _ | exact h

theorem sound_passName (h : Open P frames) (brackets : List Bracket) (token : Json.Token) :
    (passName brackets frames token).Sound P := by
  unfold passName
  split
  · exact h
  · exact sound_fail h _
  · exact sound_fail h _

theorem sound_stepPassing (h : Open P frames) (expected : Passing) (brackets : List Bracket)
    (token : Json.Token) : (stepPassing expected brackets frames token).Sound P := by
  unfold stepPassing
  split
  all_goals first
    | exact sound_passValue h _ _
    | exact sound_passName h _ _
    | exact sound_passed h _
    | exact sound_fail h _
    | exact h

theorem Sound.step (h : state.Sound P) (htoken : Gives P token) :
    (state.step token).Sound P := by
  cases state with
  | value plan opened frames => exact sound_stepValue h plan opened htoken
  | memberName plan members opened frames => exact sound_stepName h opened token
  | colon plan frames =>
    cases plan <;> cases token <;> first | exact h | exact sound_fail h _
  | separator frame frames => exact sound_stepSeparator h token
  | passing expected brackets frames => exact sound_stepPassing h expected brackets token
  | done v | overrun v | stopped v => exact h

theorem Sound.run {tokens : List Json.Token} (h : state.Sound P)
    (htokens : ∀ token ∈ tokens, Gives P token) : (tokens.foldl State.step state).Sound P := by
  induction tokens generalizing state with
  | nil => exact h
  | cons token tokens ih =>
    rw [List.forall_mem_cons] at htokens
    exact ih (h.step htokens.1) htokens.2

theorem Sound.finish (h : state.Sound P) : state.finish.Sound P := by
  unfold State.finish
  split
  all_goals first | exact sound_stopIn h _ | exact sound_fail h _ | exact h

variable {valueOf : Json.Numeral → Except Json.Fault Number}

theorem gives_ofWord (found : Except Json.Fault (Json.Word × List Char)) :
    Gives P (Json.scanToken.ofWord found).1 := by
  cases found <;> exact trivial

theorem gives_scanToken (h : ∀ numeral x, valueOf numeral = .ok x → P x) (c : Char)
    (cs : List Char) : Gives P (Json.scanToken valueOf c cs).1 := by
  unfold Json.scanToken
  split
  case h_7 | h_8 | h_9 => exact gives_ofWord _
  case h_10 => split <;> exact trivial
  case h_11 =>
    have hvalue (passed : Option Json.Fault) : Gives P (.number
        ((Json.scanNumeral true (c :: cs)).bind fun found => valueOf found.1) passed) := by
      cases hscan : Json.scanNumeral true (c :: cs) with
      | error fault => exact trivial
      | ok found =>
        cases hx : valueOf found.1 with
        | error fault => simp only [Except.bind, hx, Gives]
        | ok x => simpa only [Except.bind, hx, Gives] using h _ x hx
    split
    · split <;> exact hvalue _
    · exact trivial
  all_goals exact trivial

/-- The numbers of the tokens of a text are what its numerals stand for. -/
theorem gives_tokens (h : ∀ numeral x, valueOf numeral = .ok x → P x) (cs : List Char) :
    ∀ token ∈ Json.tokens valueOf cs, Gives P token := by
  have hfirst {c : Char} {tail : List Char} {token : Json.Token} {rest : Option (List Char)}
      (ht : Json.scanToken valueOf c tail = (token, rest)) : Gives P token := by
    have := gives_scanToken h c tail
    rwa [ht] at this
  fun_induction Json.tokens valueOf cs with
  | case1 => simp
  | case2 cs c tail hskip token ht => exact List.forall_mem_singleton.mpr (hfirst ht)
  | case3 cs c tail hskip token rest ht ih => exact List.forall_mem_cons.mpr ⟨hfirst ht, ih⟩

end State

/-- What is read from a JSON text is plain, and no deeper than a text may go. Its numbers come from
the tokens. -/
theorem plain_ofTokens {tokens : List Json.Token} (plan : Plan)
    (h : ∀ token ∈ tokens, State.Gives P token) :
    PlainWith P State.deepest (ofTokens plan tokens).1 := by
  have start : (State.value plan false []).Sound P := trivial
  have hsound := (start.run h).finish
  unfold ofTokens
  split
  · rename_i v he
    rwa [he] at hsound
  · rename_i v he
    rwa [he] at hsound
  · rename_i v he
    rwa [he] at hsound
  · exact .broken _

/-- The numbers of a JSON text are numbers that there are. -/
theorem plain_ofJsonText (plan : Plan) (text : String) :
    PlainWith Number.Valid State.deepest (ofJsonText plan text).1 :=
  plain_ofTokens plan (State.gives_tokens (fun _ _ => Json.Numeral.valid_value) _)

namespace State

mutual

/-- The tokens of a value add the value to what is open. -/
theorem run_tokensOf (v : Json) (frames : List Frame) (opened : Bool)
    (hdepth : v.depth + frames.length ≤ deepest) :
    (Json.tokensOf v).foldl State.step (.value .whole opened frames) =
      accept (ofJson v) frames := by
  match v with
  | .null | .bool true | .bool false | .number _ | .string _ => rfl
  | .array [] =>
    have hlt : frames.length < deepest := by
      rw [Json.depth, Json.depthOfList] at hdepth
      omega
    simp [Json.tokensOf, State.step, stepValue, hlt, closeEarly, Frame.close, ofJson, ofList]
  | .array (v :: vs) =>
    rw [Json.depth, Json.depthOfList] at hdepth
    have hlt : frames.length < deepest := by omega
    have hv := run_tokensOf v (.list .whole [] :: frames) true
      (by simp only [List.length_cons]; omega)
    have hvs := run_tokensOfItems vs [ofJson v] frames (by omega) (by omega)
    simp only [Json.tokensOf, List.foldl_cons, List.foldl_append, State.step, stepValue, if_pos hlt,
      Plan.item, Plan.afterItem]
    rw [hv]
    exact hvs
  | .object [] =>
    have hlt : frames.length < deepest := by
      rw [Json.depth, Json.depthOfMembers] at hdepth
      omega
    simp [Json.tokensOf, State.step, stepValue, stepName, hlt, Frame.close, ofJson, ofMembers]
  | .object ((k, v) :: ms) =>
    rw [Json.depth, Json.depthOfMembers] at hdepth
    have hlt : frames.length < deepest := by omega
    have hv := run_tokensOf v (.record .whole [] k :: frames) false
      (by simp only [List.length_cons]; omega)
    have hms := run_tokensOfMembers ms [(.text k, ofJson v)] k frames (by omega) (by omega)
    simp only [Json.tokensOf, List.foldl_cons, List.foldl_append, State.step, stepValue, if_pos hlt,
      stepName, Plan.member?]
    rw [hv]
    exact hms

theorem run_tokensOfItems (vs : List Json) (items : List Source) (frames : List Frame)
    (hlt : frames.length < deepest) (hdepth : Json.depthOfList vs + frames.length < deepest) :
    (Json.tokensOfItems vs).foldl State.step (.separator (.list .whole items) frames) =
      accept (.list (items.reverse ++ ofList vs) none) frames := by
  match vs with
  | [] => simp [Json.tokensOfItems, State.step, stepSeparator, Frame.close, ofList]
  | v :: vs =>
    rw [Json.depthOfList] at hdepth
    have hv := run_tokensOf v (.list .whole items :: frames) false
      (by simp only [List.length_cons]; omega)
    have hvs := run_tokensOfItems vs (ofJson v :: items) frames hlt (by omega)
    simp only [Json.tokensOfItems, List.foldl_cons, List.foldl_append, State.step, stepSeparator,
      Plan.item, Plan.afterItem]
    rw [hv]
    refine hvs.trans ?_
    rw [List.reverse_cons, List.append_assoc, ofList, List.singleton_append]

theorem run_tokensOfMembers (ms : List (String × Json)) (members : List (MemberName × Source))
    (name : String) (frames : List Frame) (hlt : frames.length < deepest)
    (hdepth : Json.depthOfMembers ms + frames.length < deepest) :
    (Json.tokensOfMembers ms).foldl State.step (.separator (.record .whole members name) frames) =
      accept (.record (members.reverse ++ ofMembers ms) none) frames := by
  match ms with
  | [] => simp [Json.tokensOfMembers, State.step, stepSeparator, Frame.close, ofMembers]
  | (k, v) :: ms =>
    rw [Json.depthOfMembers] at hdepth
    have hv := run_tokensOf v (.record .whole members k :: frames) false
      (by simp only [List.length_cons]; omega)
    have hms := run_tokensOfMembers ms ((.text k, ofJson v) :: members) k frames hlt (by omega)
    simp only [Json.tokensOfMembers, List.foldl_cons, List.foldl_append, State.step, stepSeparator,
      stepName, Plan.member?]
    rw [hv]
    refine hms.trans ?_
    rw [List.reverse_cons, List.append_assoc, ofMembers, List.singleton_append]

end

end State

theorem ofTokens_tokensOf {v : Json} (hdepth : v.depth ≤ State.deepest) :
    ofTokens .whole (Json.tokensOf v) = (ofJson v, false) := by
  rw [ofTokens, State.run_tokensOf v [] false hdepth]
  rfl

/-- A value is read back from its text, if its numbers are. -/
theorem ofTokens_pretty {valueOf : Json.Numeral → Except Json.Fault Number} {v : Json}
    (hdepth : v.depth ≤ State.deepest) (hv : ∀ n ∈ v.numbers, n.ReadBy valueOf) :
    ofTokens .whole (Json.tokens valueOf (v.pretty ++ "\n").toList) = (ofJson v, false) := by
  rw [Json.tokens_pretty hv, ofTokens_tokensOf hdepth]

theorem ofJsonText_pretty {v : Json} (hdepth : v.depth ≤ State.deepest)
    (hv : ∀ n ∈ v.numbers, n.ReadsBack) :
    ofJsonText .whole (v.pretty ++ "\n") = (ofJson v, false) :=
  ofTokens_pretty hdepth hv

end ApiContract.Source
