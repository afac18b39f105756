import ApiContract.GoClient.Rendering
import ApiContract.Proofs.Text.Range

namespace ApiContract.GoClient

/-- What code is made of; comments are nothing. -/
inductive Token where
  /-- A name or a keyword without a dot next to it. -/
  | name (s : String)
  /-- A name with a dot behind it. -/
  | qualifier (s : String)
  /-- A name behind a dot. -/
  | selector (s : String)
  | number
  /-- A string or a character between quotes. -/
  | literal
  | sign (c : Char)
  /-- The end of a line. -/
  | line
deriving DecidableEq

/-- Where a reader of code stands. -/
inductive Reader where
  /-- In code, behind a dot or not, with what has been read of a word. -/
  | code (dotted : Bool) (word : List Char)
  | slash
  | lineComment
  | blockComment (starred : Bool)
  | quoted (quote : Char) (escaped : Bool)
  | raw
deriving DecidableEq

namespace Reader

/-- Letters, digits and underscores; of the characters beyond ASCII all. -/
def isWordPart (c : Char) : Bool := c = '_' || Text.isWordCharacter c

/-- The token of a word, if there is one. -/
def wordToken (dotted dotBehind : Bool) (word : List Char) : List Token :=
  match word with
  | [] => []
  | c :: _ =>
    if c.isDigit then [.number]
    else if dotted then [.selector (String.ofList word)]
    else if dotBehind then [.qualifier (String.ofList word)]
    else [.name (String.ofList word)]

/-- What a character that is part of no word begins. -/
def outside (c : Char) : Reader × List Token :=
  if c = '"' ∨ c = '\'' then (quoted c false, [])
  else if c = '\x60' then (raw, [])
  else if c = '/' then (slash, [])
  else if c = '.' then (code true [], [])
  else if c = '\n' then (code false [], [.line])
  else if c = ' ' ∨ c = '\t' ∨ c = '\r' then (code false [], [])
  else (code false [], [.sign c])

def step : Reader → Char → Reader × List Token
  | code dotted word, c =>
    if isWordPart c then (code dotted (word ++ [c]), [])
    else ((outside c).1, wordToken dotted (c = '.') word ++ (outside c).2)
  | slash, c =>
    if c = '/' then (lineComment, [])
    else if c = '*' then (blockComment false, [])
    else if isWordPart c then (code false [c], [.sign '/'])
    else ((outside c).1, .sign '/' :: (outside c).2)
  | lineComment, c => if c = '\n' then (code false [], [.line]) else (lineComment, [])
  | blockComment starred, c =>
    if starred ∧ c = '/' then (code false [], []) else (blockComment (c = '*'), [])
  | quoted quote escaped, c =>
    if c = '\n' then (code false [], [.line])
    else if escaped then (quoted quote false, [])
    else if c = '\\' then (quoted quote true, [])
    else if c = quote then (code false [], [.literal])
    else (quoted quote false, [])
  | raw, c => if c = '\x60' then (code false [], [.literal]) else (raw, [])

/-- What a reader finds in a text, and where it stands behind it. -/
def run (s : Reader) : List Char → Reader × List Token
  | [] => (s, [])
  | c :: cs => ((run (step s c).1 cs).1, (step s c).2 ++ (run (step s c).1 cs).2)

/-- In code, between two words. -/
def between : Reader := code false []

theorem run_append (s : Reader) (cs ds : List Char) :
    run s (cs ++ ds) = ((run (run s cs).1 ds).1, (run s cs).2 ++ (run (run s cs).1 ds).2) := by
  induction cs generalizing s with
  | nil => rfl
  | cons c cs ih => simp [run, ih]

theorem run_word {word : List Char} (h : ∀ c ∈ word, isWordPart c) (dotted : Bool)
    (before : List Char) : run (code dotted before) word = (code dotted (before ++ word), []) := by
  induction word generalizing before with
  | nil => simp [run]
  | cons c word ih =>
    obtain ⟨hc, hword⟩ := List.forall_mem_cons.mp h
    simp [run, step, hc, ih hword]

end Reader

open Reader

variable {cs ds : List Char} {ts us : List Token}

/-- A text is read to its end, so that what follows it is read on its own. -/
def Lexed (cs : List Char) (ts : List Token) : Prop := run between cs = (between, ts)

instance (cs : List Char) (ts : List Token) : Decidable (Lexed cs ts) :=
  inferInstanceAs (Decidable (_ = _))

/-- A text begins with a character that ends a word and is no dot. -/
def Separates (cs : List Char) : Prop := cs.head?.any fun c => !isWordPart c && c != '.'

instance (cs : List Char) : Decidable (Separates cs) := inferInstanceAs (Decidable (_ = true))

/-- A text is read to its end if a word does not go on behind it. -/
def Pending (cs : List Char) (ts : List Token) : Prop :=
  ∀ ds, Separates ds → run between (cs ++ ds) = ((run between ds).1, ts ++ (run between ds).2)

theorem Separates.append (h : Separates cs) (ds : List Char) : Separates (cs ++ ds) := by
  cases cs with
  | nil => cases h
  | cons c cs => exact h

theorem lexed_nil : Lexed [] [] := rfl

theorem Lexed.run_append (h : Lexed cs ts) (ds : List Char) :
    run between (cs ++ ds) = ((run between ds).1, ts ++ (run between ds).2) := by
  rw [Reader.run_append, h]

theorem Lexed.pending (h : Lexed cs ts) : Pending cs ts := fun ds _ => h.run_append ds

theorem Lexed.append (h : Lexed cs ts) (hd : Lexed ds us) : Lexed (cs ++ ds) (ts ++ us) := by
  rw [Lexed, h.run_append, hd]

theorem Lexed.append_pending (h : Lexed cs ts) (hd : Pending ds us) :
    Pending (cs ++ ds) (ts ++ us) := by
  intro es hes
  rw [List.append_assoc, h.run_append, hd es hes, List.append_assoc]

theorem Pending.append (h : Pending cs ts) (hd : Pending ds us) (hs : Separates ds) :
    Pending (cs ++ ds) (ts ++ us) := by
  intro es hes
  rw [List.append_assoc, h _ (hs.append es), hd es hes, List.append_assoc]

theorem Pending.append_lexed (h : Pending cs ts) (hd : Lexed ds us) (hs : Separates ds) :
    Lexed (cs ++ ds) (ts ++ us) := by
  rw [Lexed, h ds hs, hd]

/-- A text that ends within a word. -/
theorem pending_of_run {dotted : Bool} {word : List Char}
    (h : run between cs = (code dotted word, ts)) :
    Pending cs (ts ++ wordToken dotted false word) := by
  intro ds hds
  cases ds with
  | nil => cases hds
  | cons d ds =>
    obtain ⟨hd, hdot⟩ : isWordPart d = false ∧ d ≠ '.' := by simpa [Separates] using hds
    have hempty : wordToken false false [] = [] := rfl
    rw [Reader.run_append, h]
    simp [between, run, step, hd, hdot, hempty]

theorem pending_word {word : List Char} (h : ∀ c ∈ word, isWordPart c) :
    Pending word (wordToken false false word) :=
  pending_of_run (run_word h false [])

theorem step_quoted {c : Char} (h : c ≠ '\n' ∧ c ≠ '\\' ∧ c ≠ '"') :
    step (quoted '"' false) c = (quoted '"' false, []) := by
  obtain ⟨hline, hbackslash, hquote⟩ := h
  simp [step, hline, hbackslash, hquote]

theorem hexDigit_inside {n : Nat} (h : n < 16) :
    Text.hexDigit n ≠ '\n' ∧ Text.hexDigit n ≠ '\\' ∧ Text.hexDigit n ≠ '"' := by
  have hall : ∀ n : Fin 16, Text.hexDigit n ≠ '\n' ∧ Text.hexDigit n ≠ '\\' ∧
      Text.hexDigit n ≠ '"' := by decide
  exact hall ⟨n, h⟩

/-- What is written for a character does not end the literal. -/
theorem run_escaped (c : Char) : run (quoted '"' false) (escaped c) = (quoted '"' false, []) := by
  unfold escaped
  split
  case h_6 hquote hbackslash hline _ _ =>
    split
    · have hhigh := step_quoted (hexDigit_inside (n := c.toNat / 16) (by omega))
      have hlow := step_quoted (hexDigit_inside (n := c.toNat % 16) (by omega))
      have hescape : step (quoted '"' false) '\\' = (quoted '"' true, []) := rfl
      have hx : step (quoted '"' true) 'x' = (quoted '"' false, []) := rfl
      simp [run, hescape, hx, hhigh, hlow]
    · have hstep := step_quoted ⟨hline, hbackslash, hquote⟩
      simp [run, hstep]
  all_goals rfl

/-- Nothing in a string literal is code. -/
theorem lexed_stringLiteral (s : String) : Lexed (stringLiteral s).toList [.literal] := by
  have hinside : ∀ cs : List Char, run (quoted '"' false) (cs.flatMap escaped) =
      (quoted '"' false, []) := by
    intro cs
    induction cs with
    | nil => rfl
    | cons c cs ih => rw [List.flatMap_cons, Reader.run_append, run_escaped, ih, List.append_nil]
  have hopen : step between '"' = (quoted '"' false, []) := rfl
  have hclose : run (quoted '"' false) ['"'] = (between, [.literal]) := rfl
  rw [Lexed, stringLiteral, String.toList_ofList, List.cons_append, run, hopen]
  simp only [Reader.run_append, hinside, hclose, List.nil_append]

/-- A raw string without backticks is one literal. -/
theorem lexed_raw (h : '\x60' ∉ cs) : Lexed ('\x60' :: (cs ++ ['\x60'])) [.literal] := by
  have hinside : run raw cs = (raw, []) := by
    induction cs with
    | nil => rfl
    | cons c cs ih =>
      obtain ⟨hc, hcs⟩ := not_or.mp (mt List.mem_cons.mpr h)
      simp [run, step, Ne.symm hc, ih hcs]
  have hopen : step between '\x60' = (raw, []) := rfl
  have hclose : run raw ['\x60'] = (between, [.literal]) := rfl
  rw [Lexed, run, hopen]
  simp only [Reader.run_append, hinside, hclose, List.nil_append]

theorem run_comment (h : '\n' ∉ cs) : run lineComment cs = (lineComment, []) := by
  induction cs with
  | nil => rfl
  | cons c cs ih =>
    obtain ⟨hc, hcs⟩ := not_or.mp (mt List.mem_cons.mpr h)
    simp [run, step, Ne.symm hc, ih hcs]

/-- A comment is nothing but the end of its line. -/
theorem lexed_comment (h : '\n' ∉ cs) : Lexed ('/' :: '/' :: (cs ++ ['\n'])) [.line] := by
  have hopen : run between ['/', '/'] = (lineComment, []) := rfl
  have hclose : run lineComment ['\n'] = (between, [.line]) := rfl
  have hsplit : '/' :: '/' :: (cs ++ ['\n']) = ['/', '/'] ++ (cs ++ ['\n']) := rfl
  rw [Lexed, hsplit, Reader.run_append, hopen]
  simp only [Reader.run_append, run_comment h, hclose, List.nil_append]

/-- The tokens between the ends of lines, a sentence for each line that is ended. -/
def sentencesFrom (sentence : List Token) : List Token → List (List Token)
  | [] => []
  | .line :: rest => sentence :: sentencesFrom [] rest
  | t :: rest => sentencesFrom (sentence ++ [t]) rest

/-- The lines of a text as tokens. A line goes on where its end stands in a raw string. -/
def sentences (text : String) : List (List Token) :=
  sentencesFrom [] (run between (text.toList ++ ['\n'])).2

/-- A line of a text, read up to its end. -/
def LexedLine (line : String) (ts : List Token) : Prop :=
  Lexed (line.toList ++ ['\n']) (ts ++ [.line])

theorem sentencesFrom_append (sentence ts rest : List Token) :
    sentencesFrom sentence (ts ++ .line :: rest) =
      sentencesFrom sentence (ts ++ [.line]) ++ sentencesFrom [] rest := by
  induction ts generalizing sentence with
  | nil => simp [sentencesFrom]
  | cons t ts ih => cases t <;> simp [sentencesFrom, ih]

theorem sentencesFrom_of_not_mem (h : Token.line ∉ ts) (sentence : List Token) :
    sentencesFrom sentence (ts ++ [.line]) = [sentence ++ ts] := by
  induction ts generalizing sentence with
  | nil => simp [sentencesFrom]
  | cons t ts ih =>
    obtain ⟨ht, hts⟩ := not_or.mp (mt List.mem_cons.mpr h)
    cases t with
    | line => exact absurd rfl ht
    | _ => simp [sentencesFrom, ih hts]

theorem LexedLine.sentences_eq {line : String} (h : LexedLine line ts) (hl : Token.line ∉ ts) :
    sentences line = [ts] := by
  rw [sentences, h, sentencesFrom_of_not_mem hl, List.nil_append]

/-- The lines of a text that are read to their ends are read one by one. -/
theorem sentences_intercalate {lines : List String} (hne : lines ≠ [])
    (h : ∀ line ∈ lines, ∃ ts, LexedLine line ts) :
    sentences ("\n".intercalate lines) = lines.flatMap sentences ∧
      ∃ ts, LexedLine ("\n".intercalate lines) ts := by
  induction lines with
  | nil => exact absurd rfl hne
  | cons line rest ih =>
    obtain ⟨⟨ts, hts⟩, hrest⟩ := List.forall_mem_cons.mp h
    cases rest with
    | nil => exact ⟨by simp, ts, by simpa using hts⟩
    | cons next rest =>
      obtain ⟨ih, us, hus⟩ := ih (List.cons_ne_nil _ _) hrest
      have htext : ("\n".intercalate (line :: next :: rest)).toList ++ ['\n'] =
          (line.toList ++ ['\n']) ++ (("\n".intercalate (next :: rest)).toList ++ ['\n']) := by
        simp
      have hlexed : Lexed (("\n".intercalate (line :: next :: rest)).toList ++ ['\n'])
          ((ts ++ [.line]) ++ (us ++ [.line])) := by
        rw [htext]
        exact Lexed.append hts hus
      constructor
      · rw [List.flatMap_cons, ← ih, sentences, sentences, sentences, hlexed, hts, hus]
        dsimp only
        rw [List.append_assoc, List.singleton_append, sentencesFrom_append]
      · exact ⟨ts ++ .line :: us, by simpa [LexedLine] using hlexed⟩

end ApiContract.GoClient
