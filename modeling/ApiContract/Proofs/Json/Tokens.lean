import ApiContract.Proofs.Json.Alike

namespace ApiContract

/-- The text of the number is a numeral that stands for the number; `valueOf` says what a numeral
stands for. -/
def Number.ReadBy (valueOf : Json.Numeral → Except Json.Fault Number) (n : Number) : Prop :=
  ∃ numeral, Json.scanNumeral true n.text = .ok (numeral, []) ∧ valueOf numeral = .ok n

/-- The text of the number is read as the number. -/
def Number.ReadsBack (n : Number) : Prop := n.ReadBy Json.Numeral.value

instance (valueOf : Json.Numeral → Except Json.Fault Number) (n : Number) :
    Decidable (n.ReadBy valueOf) :=
  match h : Json.scanNumeral true n.text with
  | .ok (numeral, []) =>
    decidable_of_iff ((valueOf numeral).toOption = some n) <| by
      cases hv : valueOf numeral <;> simp [Number.ReadBy, h, hv, Except.toOption]
  | .ok (_, _ :: _) => isFalse (by simp [Number.ReadBy, h])
  | .error _ => isFalse (by simp [Number.ReadBy, h])

instance (n : Number) : Decidable n.ReadsBack :=
  inferInstanceAs (Decidable (n.ReadBy Json.Numeral.value))

namespace Json

mutual

/-- The numbers within a value, from left to right. -/
def numbers : Json → List Number
  | number n => [n]
  | array vs => numbersOfList vs
  | object ms => numbersOfMembers ms
  | _ => []

def numbersOfList : List Json → List Number
  | [] => []
  | v :: vs => numbers v ++ numbersOfList vs

def numbersOfMembers : List (String × Json) → List Number
  | [] => []
  | (_, v) :: ms => numbers v ++ numbersOfMembers ms

end

theorem mem_numbersOfList {vs : List Json} {n : Number} :
    n ∈ numbersOfList vs ↔ ∃ v ∈ vs, n ∈ v.numbers := by
  induction vs with
  | nil => simp [numbersOfList]
  | cons v vs ih => simp [numbersOfList, ih]

theorem mem_numbersOfMembers {ms : List (String × Json)} {n : Number} :
    n ∈ numbersOfMembers ms ↔ ∃ p ∈ ms, n ∈ p.2.numbers := by
  induction ms with
  | nil => simp [numbersOfMembers]
  | cons p ms ih =>
    obtain ⟨k, v⟩ := p
    simp [numbersOfMembers, ih]

mutual

/-- The tokens that a value is written with. -/
def tokensOf : Json → List Token
  | null => [.word (.ok .null)]
  | bool true => [.word (.ok .true)]
  | bool false => [.word (.ok .false)]
  | number n => [.number (.ok n) none]
  | string s => [.string (.ok s) none]
  | array [] => [.beginList, .endList]
  | array (v :: vs) => .beginList :: (tokensOf v ++ tokensOfItems vs)
  | object [] => [.beginRecord, .endRecord]
  | object ((k, v) :: ms) =>
    .beginRecord :: .string (.ok k) none :: .colon :: (tokensOf v ++ tokensOfMembers ms)

def tokensOfItems : List Json → List Token
  | [] => [.endList]
  | v :: vs => .comma :: (tokensOf v ++ tokensOfItems vs)

def tokensOfMembers : List (String × Json) → List Token
  | [] => [.endRecord]
  | (k, v) :: ms => .comma :: .string (.ok k) none :: .colon :: (tokensOf v ++ tokensOfMembers ms)

end

variable {valueOf : Numeral → Except Fault Number}

theorem tokens_eq (cs : List Char) :
    tokens valueOf cs =
      match skipSpace cs with
      | [] => []
      | c :: tail =>
        match scanToken valueOf c tail with
        | (token, none) => [token]
        | (token, some rest) => token :: tokens valueOf rest := by
  rw [tokens.eq_def]
  split
  · rename_i he
    rw [he]
  · rename_i he
    rw [he]
    split
    · rename_i ht
      simp only [ht]
    · rename_i ht
      simp only [ht]

theorem tokens_of_skipSpace {cs ds : List Char} (h : skipSpace cs = skipSpace ds) :
    tokens valueOf cs = tokens valueOf ds := by
  rw [tokens_eq cs, tokens_eq ds, h]

theorem tokens_cons {c : Char} {cs rest : List Char} {t : Token} (hc : isSpace c = false)
    (h : scanToken valueOf c cs = (t, some rest)) :
    tokens valueOf (c :: cs) = t :: tokens valueOf rest := by
  have hskip : skipSpace (c :: cs) = c :: cs := by simp [skipSpace, hc]
  rw [tokens_eq, hskip]
  simp only [h]

theorem tokens_newline (depth : Nat) (cs : List Char) :
    tokens valueOf (newline depth ++ cs) = tokens valueOf cs := by
  refine tokens_of_skipSpace ?_
  have hblanks : ∀ k, skipSpace (List.replicate k ' ' ++ cs) = skipSpace cs := fun k => by
    induction k with
    | zero => rfl
    | succ k ih => exact ih
  exact hblanks (2 * depth)

theorem tokens_blank (cs : List Char) : tokens valueOf (' ' :: cs) = tokens valueOf cs :=
  tokens_of_skipSpace rfl

variable {r : List Char}

theorem tokens_beginList : tokens valueOf ('[' :: r) = .beginList :: tokens valueOf r :=
  tokens_cons rfl rfl

theorem tokens_endList : tokens valueOf (']' :: r) = .endList :: tokens valueOf r :=
  tokens_cons rfl rfl

theorem tokens_beginRecord : tokens valueOf ('\x7b' :: r) = .beginRecord :: tokens valueOf r :=
  tokens_cons rfl rfl

theorem tokens_endRecord : tokens valueOf ('\x7d' :: r) = .endRecord :: tokens valueOf r :=
  tokens_cons rfl rfl

theorem tokens_comma : tokens valueOf (',' :: r) = .comma :: tokens valueOf r :=
  tokens_cons rfl rfl

theorem tokens_colon : tokens valueOf (':' :: r) = .colon :: tokens valueOf r :=
  tokens_cons rfl rfl

theorem tokens_quoted (s : String) :
    tokens valueOf (quoted s ++ r) = .string (.ok s) none :: tokens valueOf r := by
  have hscan := scanString_quoted s.toList r
  have hpass := passString_quoted s.toList r
  rw [quoted, List.cons_append, List.cons_append, List.append_assoc, List.singleton_append]
  refine tokens_cons rfl ?_
  simp only [scanToken, hscan, hpass]
  simp [Except.map, String.ofList_toList]

theorem not_isDigit_of_endsValue (h : EndsValue r) : ∀ c ∈ r.head?, c.isDigit = false := by
  intro c hc
  rcases h c hc with rfl | rfl <;> decide

theorem takeDigits_append (h : EndsValue r) (cs : List Char) :
    takeDigits (cs ++ r) = ((takeDigits cs).1, (takeDigits cs).2 ++ r) := by
  induction cs with
  | nil =>
    cases r with
    | nil => rfl
    | cons c r => simp [takeDigits, not_isDigit_of_endsValue h c rfl]
  | cons c cs ih =>
    by_cases hc : c.isDigit
    · simp only [takeDigits, Prod.mk.injEq] at ih
      simp [takeDigits, hc, ih.1, ih.2]
    · simp [takeDigits, hc]

variable {kept kept' : Bool} {cs rest : List Char} {ds : List Nat}

theorem scanWhole_append (hr : EndsValue r) (h : scanWhole kept cs = .ok (ds, rest)) :
    scanWhole kept' (cs ++ r) = .ok (ds, rest ++ r) := by
  unfold scanWhole at h ⊢
  rw [takeDigits_append hr]
  generalize takeDigits cs = found at h ⊢
  obtain ⟨digits, left⟩ := found
  rcases digits with _ | ⟨_ | d, _ | ⟨e, digits⟩⟩ <;> cases h <;> rfl

theorem scanFraction_append (hr : EndsValue r) (h : scanFraction kept cs = .ok (ds, rest)) :
    scanFraction kept' (cs ++ r) = .ok (ds, rest ++ r) := by
  unfold scanFraction at h
  split at h
  · rename_i tail
    rw [List.cons_append, scanFraction, takeDigits_append hr]
    generalize takeDigits tail = found at h ⊢
    obtain ⟨digits, left⟩ := found
    cases digits <;> cases h
    rfl
  · rename_i hpoint
    cases h
    unfold scanFraction
    split
    · rename_i tail he
      cases cs with
      | nil =>
        rw [List.nil_append] at he
        rcases hr '.' (by simp [he]) with hc | hc <;> cases hc
      | cons c cs => exact absurd (congrArg (· :: cs) (List.cons.inj he).1) (hpoint cs)
    · rfl

theorem scanSign_append (hr : EndsValue r) (cs : List Char) :
    scanSign (cs ++ r) = ((scanSign cs).1, (scanSign cs).2 ++ r) := by
  cases cs with
  | nil =>
    cases r with
    | nil => rfl
    | cons c r => rcases hr c rfl with rfl | rfl <;> rfl
  | cons c cs =>
    by_cases hplus : c = '+'
    · subst hplus
      rfl
    · by_cases hminus : c = '-'
      · subst hminus
        rfl
      · simp [scanSign, hplus, hminus]

theorem scanMinus_append (hr : EndsValue r) (cs : List Char) :
    scanMinus (cs ++ r) = ((scanMinus cs).1, (scanMinus cs).2 ++ r) := by
  cases cs with
  | nil =>
    cases r with
    | nil => rfl
    | cons c r => rcases hr c rfl with rfl | rfl <;> rfl
  | cons c cs =>
    by_cases hminus : c = '-'
    · subst hminus
      rfl
    · simp [scanMinus, hminus]

/-- What stands behind the letter of an exponent. -/
theorem exponent_append {tail : List Char} {e : Option (Bool × List Nat)} (hr : EndsValue r)
    (h : (match takeDigits (scanSign tail).2 with
      | ([], left) => .error (missingDigit kept left)
      | (digits, left) => .ok (some ((scanSign tail).1, digits), left)) =
        (.ok (e, rest) : Except Fault _)) :
    (match takeDigits (scanSign (tail ++ r)).2 with
      | ([], left) => .error (missingDigit kept' left)
      | (digits, left) => .ok (some ((scanSign (tail ++ r)).1, digits), left)) =
        (.ok (e, rest ++ r) : Except Fault _) := by
  rw [scanSign_append hr, takeDigits_append hr]
  generalize takeDigits (scanSign tail).2 = found at h ⊢
  obtain ⟨digits, left⟩ := found
  cases digits <;> cases h
  rfl

theorem scanExponent_append {e : Option (Bool × List Nat)} (hr : EndsValue r)
    (h : scanExponent kept cs = .ok (e, rest)) :
    scanExponent kept' (cs ++ r) = .ok (e, rest ++ r) := by
  cases cs with
  | nil =>
    cases h
    cases r with
    | nil => rfl
    | cons c r => rcases hr c rfl with rfl | rfl <;> rfl
  | cons c cs =>
    by_cases hsmall : c = 'e'
    · subst hsmall
      exact exponent_append hr h
    · by_cases hlarge : c = 'E'
      · subst hlarge
        exact exponent_append hr h
      · have hnone : ∀ kept cs, scanExponent kept (c :: cs) = .ok (none, c :: cs) := by
          simp [scanExponent, hsmall, hlarge]
        rw [hnone] at h
        cases h
        exact hnone kept' (cs ++ r)

/-- A numeral is told from what follows it. -/
theorem scanNumeral_append {numeral : Numeral} (hr : EndsValue r)
    (h : scanNumeral kept cs = .ok (numeral, rest)) :
    scanNumeral kept' (cs ++ r) = .ok (numeral, rest ++ r) := by
  unfold scanNumeral at h ⊢
  rw [scanMinus_append hr]
  generalize scanMinus cs = found at h ⊢
  obtain ⟨negative, cs⟩ := found
  cases hwhole : scanWhole kept cs with
  | error fault => simp [hwhole, bind, Except.bind] at h
  | ok found =>
    obtain ⟨whole, cs₁⟩ := found
    cases hfraction : scanFraction kept cs₁ with
    | error fault => simp [hwhole, hfraction, bind, Except.bind] at h
    | ok found =>
      obtain ⟨fraction, cs₂⟩ := found
      cases hexponent : scanExponent kept cs₂ with
      | error fault => simp [hwhole, hfraction, hexponent, bind, Except.bind] at h
      | ok found =>
        obtain ⟨e, cs₃⟩ := found
        simp only [hwhole, hfraction, hexponent, bind, Except.bind] at h
        cases h
        simp only [scanWhole_append hr hwhole, scanFraction_append hr hfraction,
          scanExponent_append hr hexponent, bind, Except.bind]
        rfl

/-- A numeral starts with a digit or with a minus sign. -/
theorem scanNumeral_head {c : Char} {numeral : Numeral}
    (h : scanNumeral kept (c :: cs) = .ok (numeral, rest)) : c = '-' ∨ c.isDigit := by
  by_cases hminus : c = '-'
  · exact Or.inl hminus
  · refine Or.inr (Decidable.byContradiction fun hdigit => ?_)
    have hscan : scanMinus (c :: cs) = (false, c :: cs) := by simp [scanMinus, hminus]
    have hwhole : scanWhole kept (c :: cs) = .error (missingDigit kept (c :: cs)) := by
      simp [scanWhole, takeDigits, hdigit]
    simp [scanNumeral, hscan, hwhole, bind, Except.bind] at h

theorem scanToken_numeral {c : Char} {numeral : Numeral}
    (h : ∀ kept, scanNumeral kept (c :: cs) = .ok (numeral, rest)) :
    scanToken valueOf c cs = (.number (valueOf numeral) none, some rest) := by
  have hhead := scanNumeral_head (h true)
  unfold scanToken
  split
  case h_11 =>
    rw [if_pos hhead, h true, h false]
    rfl
  all_goals exact absurd hhead (by decide)

theorem tokens_number {n : Number} (hn : n.ReadBy valueOf) (hr : EndsValue r) :
    tokens valueOf (n.text ++ r) = .number (.ok n) none :: tokens valueOf r := by
  obtain ⟨numeral, hscan, hvalue⟩ := hn
  have key : ∀ kept, scanNumeral kept (n.text ++ r) = .ok (numeral, r) :=
    fun kept => scanNumeral_append hr hscan
  cases ht : n.text with
  | nil =>
    rw [ht] at hscan
    cases hscan
  | cons c cs =>
    rw [ht, List.cons_append] at key
    have hc : isSpace c = false := by
      refine Bool.eq_false_iff.mpr fun hspace => ?_
      have hhead := scanNumeral_head (key true)
      simp only [isSpace, Bool.or_eq_true, decide_eq_true_eq] at hspace
      rcases hspace with ((rfl | rfl) | rfl) | rfl <;> exact absurd hhead (by decide)
    rw [List.cons_append, tokens_cons hc (scanToken_numeral key), hvalue]

mutual

/-- A value that is laid out over lines is taken apart into its tokens. -/
theorem tokens_prettyText (depth : Nat) (v : Json) (hv : ∀ n ∈ v.numbers, n.ReadBy valueOf)
    {r : List Char} (hr : EndsValue r) :
    tokens valueOf (prettyText depth v ++ r) = tokensOf v ++ tokens valueOf r := by
  match v with
  | null => exact tokens_cons rfl rfl
  | bool true => exact tokens_cons rfl rfl
  | bool false => exact tokens_cons rfl rfl
  | number n => exact tokens_number (hv n List.mem_cons_self) hr
  | string s => exact tokens_quoted s
  | array [] => rw [prettyText, tokensOf]; exact tokens_beginList.trans (congrArg _ tokens_endList)
  | array (v :: vs) =>
    rw [numbers, numbersOfList, List.forall_mem_append] at hv
    simp only [prettyText, tokensOf, List.cons_append, List.append_assoc, tokens_beginList,
      tokens_newline]
    rw [tokens_prettyText (depth + 1) v hv.1 (endsValue_items depth vs r),
      tokens_prettyItems depth vs hv.2]
  | object [] =>
    rw [prettyText, tokensOf]; exact tokens_beginRecord.trans (congrArg _ tokens_endRecord)
  | object ((k, v) :: ms) =>
    rw [numbers, numbersOfMembers, List.forall_mem_append] at hv
    simp only [prettyText, tokensOf, List.cons_append, List.append_assoc, tokens_beginRecord,
      tokens_newline, tokens_quoted, tokens_colon, tokens_blank]
    rw [tokens_prettyText (depth + 1) v hv.1 (endsValue_members depth ms r),
      tokens_prettyMembers depth ms hv.2]

theorem tokens_prettyItems (depth : Nat) (vs : List Json)
    (hvs : ∀ n ∈ numbersOfList vs, n.ReadBy valueOf) {r : List Char} :
    tokens valueOf (prettyItems depth vs ++ r) = tokensOfItems vs ++ tokens valueOf r := by
  match vs with
  | [] =>
    simp only [prettyItems, tokensOfItems, List.append_assoc, tokens_newline, List.cons_append,
      List.nil_append, tokens_endList]
  | v :: vs =>
    rw [numbersOfList, List.forall_mem_append] at hvs
    simp only [prettyItems, tokensOfItems, List.cons_append, List.append_assoc, tokens_comma,
      tokens_newline]
    rw [tokens_prettyText (depth + 1) v hvs.1 (endsValue_items depth vs r),
      tokens_prettyItems depth vs hvs.2]

theorem tokens_prettyMembers (depth : Nat) (ms : List (String × Json))
    (hms : ∀ n ∈ numbersOfMembers ms, n.ReadBy valueOf) {r : List Char} :
    tokens valueOf (prettyMembers depth ms ++ r) = tokensOfMembers ms ++ tokens valueOf r := by
  match ms with
  | [] =>
    simp only [prettyMembers, tokensOfMembers, List.append_assoc, tokens_newline, List.cons_append,
      List.nil_append, tokens_endRecord]
  | (k, v) :: ms =>
    rw [numbersOfMembers, List.forall_mem_append] at hms
    simp only [prettyMembers, tokensOfMembers, List.cons_append, List.append_assoc, tokens_comma,
      tokens_newline, tokens_quoted, tokens_colon, tokens_blank]
    rw [tokens_prettyText (depth + 1) v hms.1 (endsValue_members depth ms r),
      tokens_prettyMembers depth ms hms.2]

end

theorem tokens_pretty {v : Json} (hv : ∀ n ∈ v.numbers, n.ReadBy valueOf) :
    tokens valueOf (v.pretty ++ "\n").toList = tokensOf v := by
  have htext : (v.pretty ++ "\n").toList = prettyText 0 v ++ ['\n'] := by
    simp [pretty]
  have hend : tokens valueOf ['\n'] = [] := by
    rw [tokens_eq]
    rfl
  rw [htext, tokens_prettyText 0 v hv (endsValue_cons (Or.inr rfl)), hend, List.append_nil]

end Json

end ApiContract
