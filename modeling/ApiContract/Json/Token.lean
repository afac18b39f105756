import ApiContract.Json.Numeral

namespace ApiContract.Json

inductive Word where
  | null
  | true
  | false
deriving Repr, DecidableEq

/-- A string or a numeral has two readings: its value, which may be at fault, and whether the text
goes on behind it, which is all that counts where the value is passed over. A token without value is
one that the text does not finish, and no token follows it. -/
inductive Token where
  | beginList
  | endList
  | beginRecord
  | endRecord
  | comma
  | colon
  | word (value : Except Fault Word)
  | number (value : Except Fault Number) (passed : Option Fault)
  | string (value : Except Fault String) (passed : Option Fault)
  | stray
deriving Repr

def isSpace (c : Char) : Bool :=
  c = ' ' || c = '\n' || c = '\t' || c = '\r'

def skipSpace (cs : List Char) : List Char := cs.dropWhile isSpace

theorem length_skipSpace_le (cs : List Char) : (skipSpace cs).length ≤ cs.length :=
  (List.dropWhile_sublist _).length_le

/-- The bytes that a text takes. -/
def byteCount (cs : List Char) : Nat := cs.foldr (fun c n => c.utf8Size + n) 0

/-- Four hexadecimal digits; the end of the text comes first if fewer than four bytes are left. -/
def scanUnit (cs : List Char) : Except Fault Nat :=
  match cs with
  | a :: b :: c :: d :: _ =>
    match Text.hexNumber? [a, b, c, d] with
    | some n => .ok n
    | none => .error .invalidEscape
  | cs => .error (if byteCount cs < 4 then .endInString else .invalidEscape)

/-- The character of an escape of one letter. -/
def simpleEscape? : Char → Option Char
  | '"' => some '"'
  | '\\' => some '\\'
  | '/' => some '/'
  | 'b' => some '\x08'
  | 'f' => some '\x0c'
  | 'n' => some '\n'
  | 'r' => some '\r'
  | 't' => some '\t'
  | _ => none

def isHighSurrogate (n : Nat) : Bool := 0xd800 ≤ n && n ≤ 0xdbff

def isLowSurrogate (n : Nat) : Bool := 0xdc00 ≤ n && n ≤ 0xdfff

/-- The second half of a surrogate pair, after the escape of the first. -/
def scanLowSurrogate : List Char → Except Fault Nat
  | [] => .error .endInString
  | '\\' :: [] => .error .endInString
  | '\\' :: 'u' :: rest => do
    let n ← scanUnit rest
    if isLowSurrogate n then return n else throw .loneSurrogate
  | _ => .error .unfinishedSurrogate

/-- Reads the rest of a string, up to its closing quote. -/
def scanString (cs : List Char) : Except Fault (List Char) :=
  match cs with
  | [] => .error .endInString
  | '"' :: _ => .ok []
  | '\\' :: [] => .error .endInString
  | '\\' :: 'u' :: rest =>
    match scanUnit rest with
    | .error f => .error f
    | .ok n =>
      if isLowSurrogate n then .error .loneSurrogate
      else if isHighSurrogate n then
        match scanLowSurrogate (rest.drop 4) with
        | .error f => .error f
        | .ok m =>
          (scanString (rest.drop 10)).map
            (Char.ofNat ((n - 0xd800) * 0x400 + (m - 0xdc00) + 0x10000) :: ·)
      else (scanString (rest.drop 4)).map (Char.ofNat n :: ·)
  | '\\' :: e :: rest =>
    match simpleEscape? e with
    | some c => (scanString rest).map (c :: ·)
    | none => .error .invalidEscape
  | c :: rest =>
    if c.toNat < 0x20 then .error .controlCharacter else (scanString rest).map (c :: ·)
termination_by cs.length
decreasing_by all_goals simp_wf; all_goals omega

/-- Passes over the rest of a string; the text behind its closing quote. -/
def passString : List Char → Except Fault (List Char)
  | [] => .error .endInString
  | '"' :: rest => .ok rest
  | '\\' :: [] => .error .endInString
  | '\\' :: 'u' :: a :: b :: c :: d :: rest =>
    if (Text.hexNumber? [a, b, c, d]).isSome then passString rest
    else .error .invalidEscape
  | '\\' :: 'u' :: rest => .error (if byteCount rest < 4 then .endInString else .invalidEscape)
  | '\\' :: e :: rest => if (simpleEscape? e).isSome then passString rest else .error .invalidEscape
  | c :: rest => if c.toNat < 0x20 then .error .controlCharacter else passString rest

theorem length_lt_of_passString {cs rest : List Char} (h : passString cs = .ok rest) :
    rest.length < cs.length := by
  fun_induction passString cs <;> simp_all <;> omega

/-- The letters that must follow the first letter of a word. -/
def scanWord (word : Word) : List Char → List Char → Except Fault (Word × List Char)
  | [], cs => .ok (word, cs)
  | _ :: _, [] => .error .endInValue
  | e :: es, c :: cs => if e = c then scanWord word es cs else .error .wordExpected

/-- A token that starts with `c`, and the text behind it unless the token is left unfinished;
`valueOf` says what a numeral stands for. -/
def scanToken (valueOf : Numeral → Except Fault Number) (c : Char) (cs : List Char) :
    Token × Option (List Char) :=
  match c with
  | '[' => (.beginList, some cs)
  | ']' => (.endList, some cs)
  | '\x7b' => (.beginRecord, some cs)
  | '\x7d' => (.endRecord, some cs)
  | ',' => (.comma, some cs)
  | ':' => (.colon, some cs)
  | 'n' => ofWord (scanWord .null ['u', 'l', 'l'] cs)
  | 't' => ofWord (scanWord .true ['r', 'u', 'e'] cs)
  | 'f' => ofWord (scanWord .false ['a', 'l', 's', 'e'] cs)
  | '"' =>
    let value := (scanString cs).map String.ofList
    match passString cs with
    | .ok rest => (.string value none, some rest)
    | .error f => (.string value (some f), none)
  | c =>
    if c = '-' ∨ c.isDigit then
      let value := (scanNumeral true (c :: cs)).bind fun (n, _) => valueOf n
      match scanNumeral false (c :: cs) with
      | .ok (_, rest) => (.number value none, some rest)
      | .error f => (.number value (some f), none)
    else (.stray, none)
where
  ofWord : Except Fault (Word × List Char) → Token × Option (List Char)
    | .ok (w, rest) => (.word (.ok w), some rest)
    | .error f => (.word (.error f), none)

theorem length_le_of_scanWord {w : Word} {es cs rest : List Char} {v : Word}
    (h : scanWord w es cs = .ok (v, rest)) : rest.length ≤ cs.length := by
  fun_induction scanWord w es cs <;> grind

theorem length_takeDigits_le (cs : List Char) : (takeDigits cs).2.length ≤ cs.length :=
  (List.dropWhile_sublist _).length_le

theorem length_lt_of_takeDigits {cs : List Char} (h : (takeDigits cs).1 ≠ []) :
    (takeDigits cs).2.length < cs.length := by
  cases cs with
  | nil => simp [takeDigits] at h
  | cons c rest =>
    by_cases hc : c.isDigit
    · have := (List.dropWhile_sublist (l := rest) Char.isDigit).length_le
      simp [takeDigits, hc]
      omega
    · simp [takeDigits, hc] at h

theorem length_lt_of_scanWhole {kept : Bool} {cs rest : List Char} {ds : List Nat}
    (h : scanWhole kept cs = .ok (ds, rest)) : rest.length < cs.length := by
  have hlt := @length_lt_of_takeDigits cs
  unfold scanWhole at h
  split at h <;> simp_all

theorem length_le_of_scanFraction {kept : Bool} {cs rest : List Char} {ds : List Nat}
    (h : scanFraction kept cs = .ok (ds, rest)) : rest.length ≤ cs.length := by
  unfold scanFraction at h
  split at h
  · rename_i tail
    have hle := length_takeDigits_le tail
    split at h
    · simp at h
    · simp_all
      omega
  · simp_all

theorem length_scanSign_le (cs : List Char) : (scanSign cs).2.length ≤ cs.length := by
  unfold scanSign
  split <;> simp

theorem length_le_of_scanExponent {kept : Bool} {cs rest : List Char}
    {e : Option (Bool × List Nat)} (h : scanExponent kept cs = .ok (e, rest)) :
    rest.length ≤ cs.length := by
  have key (tail : List Char) : (takeDigits (scanSign tail).2).2.length ≤ tail.length :=
    Nat.le_trans (length_takeDigits_le _) (length_scanSign_le tail)
  unfold scanExponent at h
  split at h
  · rename_i tail
    have := key tail
    grind
  · rename_i tail
    have := key tail
    grind
  · simp_all

theorem length_scanMinus_le (cs : List Char) : (scanMinus cs).2.length ≤ cs.length := by
  unfold scanMinus
  split <;> simp

theorem length_lt_of_scanNumeral {kept : Bool} {cs rest : List Char} {n : Numeral}
    (h : scanNumeral kept cs = .ok (n, rest)) : rest.length < cs.length := by
  unfold scanNumeral at h
  simp only [bind, Except.bind, pure, Except.pure] at h
  have ht := length_scanMinus_le cs
  split at h
  · simp at h
  rename_i w hw
  split at h
  · simp at h
  rename_i f hf
  split at h
  · simp at h
  rename_i e he
  cases h
  have := length_lt_of_scanWhole hw
  have := length_le_of_scanFraction hf
  have := length_le_of_scanExponent he
  omega

theorem length_le_of_scanToken {valueOf : Numeral → Except Fault Number} {c : Char}
    {cs rest : List Char} {t : Token} (h : scanToken valueOf c cs = (t, some rest)) :
    rest.length ≤ cs.length := by
  have word {v : Word} {es : List Char}
      (hw : scanToken.ofWord (scanWord v es cs) = (t, some rest)) : rest.length ≤ cs.length := by
    unfold scanToken.ofWord at hw
    split at hw
    · rename_i he
      cases hw
      exact length_le_of_scanWord he
    · simp at hw
  unfold scanToken at h
  split at h
  all_goals first | (cases h; exact Nat.le_refl _) | exact word h | skip
  · dsimp only at h
    split at h
    · rename_i hp
      cases h
      exact Nat.le_of_lt (length_lt_of_passString hp)
    · simp at h
  · split at h
    · dsimp only at h
      split at h
      · rename_i hp
        cases h
        exact Nat.le_of_lt_succ (length_lt_of_scanNumeral hp)
      · simp at h
    · simp at h

/-- The tokens of a text, up to the first that it does not finish. -/
def tokens (valueOf : Numeral → Except Fault Number) (cs : List Char) : List Token :=
  match _h : skipSpace cs with
  | [] => []
  | c :: tail =>
    match _ht : scanToken valueOf c tail with
    | (token, none) => [token]
    | (token, some rest) => token :: tokens valueOf rest
termination_by cs.length
decreasing_by
  have h1 := length_le_of_scanToken _ht
  have h2 := length_skipSpace_le cs
  rw [_h] at h2
  simp at h2
  omega

end ApiContract.Json
