import ApiContract.Json.Text
import ApiContract.Yaml.Cursor
import ApiContract.Yaml.Scalar

namespace ApiContract.Yaml

/-- What there is in a string that forbids a way to write it. -/
structure Traits where
  /-- It looks like the start of something else than an unquoted word. -/
  indicator : Bool
  lineBreak : Bool
  unprintable : Bool
  tab : Bool
  /-- A blank or a line break begins it. -/
  leading : Bool
  trailingBlank : Bool
  trailingBreak : Bool
  blankAfterBreak : Bool
  blankBeforeBreak : Bool

namespace Traits

/-- A line break and a visible character of any script can be written as it is. -/
def isVisible (x : Char) : Bool :=
  let n := x.toNat
  n = 0x0a || 0x20 ≤ n && n ≤ 0x7e || 0xa0 ≤ n && n ≠ 0xfeff && n ≤ 0xfffd || 0x10000 ≤ n

def isFirstIndicator (cs : List Char) : Bool :=
  match cs with
  | x :: rest =>
    "#,[]\x7b\x7d&*!|>'\"%@\x60".toList.contains x ||
      (x = '?' || x = ':' || x = '-') && endsWord rest
  | [] => false

/-- A colon at the end of a word, or a number sign at the start of one. -/
def hasLaterIndicator : List Char → Bool
  | x :: y :: rest =>
    y = ':' && endsWord rest || y = '#' && (isBlank x || isBreak x) ||
      hasLaterIndicator (y :: rest)
  | _ => false

def startsDocument (cs : List Char) : Bool :=
  cs.take 3 = ['-', '-', '-'] || cs.take 3 = ['.', '.', '.']

/-- Some character that `p` holds of stands right before one that `q` holds of. -/
def hasPair (p q : Char → Bool) : List Char → Bool
  | x :: y :: rest => p x && q y || hasPair p q (y :: rest)
  | _ => false

def ofText (cs : List Char) : Traits where
  indicator := startsDocument cs || isFirstIndicator cs || hasLaterIndicator cs
  lineBreak := cs.any isBreak
  unprintable := cs.any fun x => !isTab x && !isVisible x
  tab := cs.any isTab
  leading := cs.head?.any fun x => isSpace x || isBreak x
  trailingBlank := cs.getLast?.any isSpace
  trailingBreak := cs.getLast?.any isBreak
  blankAfterBreak := hasPair isBreak isSpace cs
  blankBeforeBreak := hasPair isSpace isBreak cs

def allowsSingleQuotes (t : Traits) : Bool :=
  !(t.blankAfterBreak || t.blankBeforeBreak || t.tab || t.unprintable)

def allowsPlain (t : Traits) : Bool :=
  t.allowsSingleQuotes &&
    !(t.leading || t.trailingBlank || t.trailingBreak || t.lineBreak || t.indicator)

def allowsLiteral (t : Traits) : Bool :=
  !(t.trailingBlank || t.blankBeforeBreak || t.unprintable)

end Traits

def upperHexDigit (n : Nat) : Char := (Text.hexDigit n).toUpper

/-- The last `count` hexadecimal digits of a number. -/
def upperHex : Nat → Nat → List Char
  | 0, _ => []
  | count + 1, n => upperHex count (n / 16) ++ [upperHexDigit (n % 16)]

/-- How a character is written between double quotes. -/
def doubleQuotedChar (x : Char) : List Char :=
  match x with
  | '\x00' => ['\\', '0']
  | '\x07' => ['\\', 'a']
  | '\x08' => ['\\', 'b']
  | '\t' => ['\\', 't']
  | '\n' => ['\\', 'n']
  | '\x0b' => ['\\', 'v']
  | '\x0c' => ['\\', 'f']
  | '\r' => ['\\', 'r']
  | '\x1b' => ['\\', 'e']
  | '"' => ['\\', '"']
  | '\\' => ['\\', '\\']
  | '\u0085' => ['\\', 'N']
  | '\u2028' => ['\\', 'L']
  | '\u2029' => ['\\', 'P']
  | x =>
    let n := x.toNat
    if Traits.isVisible x then [x]
    else if n ≤ 0xff then '\\' :: 'x' :: upperHex 2 n
    else if n ≤ 0xffff then '\\' :: 'u' :: upperHex 4 n
    else '\\' :: 'U' :: upperHex 8 n

def doubleQuoted (cs : List Char) : List Char :=
  '"' :: cs.flatMap doubleQuotedChar ++ ['"']

def blanks (n : Nat) : List Char := List.replicate n ' '

/-- Lines with every one that is not empty indented; `fresh` says that a line begins. -/
def indented (indent : Nat) (fresh : Bool) : List Char → List Char
  | [] => []
  | x :: rest =>
    if isBreak x then x :: indented indent true rest
    else (if fresh then blanks indent else []) ++ x :: indented indent false rest

def singleQuoted (indent : Nat) (cs : List Char) : List Char :=
  let doubled := cs.flatMap fun x => if x = '\'' then ['\'', '\''] else [x]
  '\'' :: indented indent false doubled ++
    (if cs.getLast?.any isBreak then blanks indent else []) ++
    ['\'']

/-- What tells how a literal ends, after a digit if its first line could be taken for
indentation. -/
def literalHeader (cs : List Char) : List Char :=
  let digit := if cs.head?.any fun x => isSpace x || isBreak x then ['2'] else []
  let last := cs.getLast?.any isBreak
  let chomping :=
    if !last then ['-']
    else if cs.length = 1 || cs.dropLast.getLast?.any isBreak then ['+']
    else []
  '|' :: digit ++ chomping

/-- The string and the end of its line. -/
def stringLine (indent : Nat) (s : String) : List Char :=
  let cs := s.toList
  let traits := Traits.ofText cs
  let quotes := if traits.allowsSingleQuotes then singleQuoted indent cs else doubleQuoted cs
  if cs.contains '\n' then
    if traits.allowsLiteral then
      literalHeader cs ++ '\n' :: indented indent true cs ++
        (if cs.getLast?.any isBreak then [] else ['\n'])
    else doubleQuoted cs ++ ['\n']
  else if plainMeaning cs = .text ∧ ¬ isPadded cs ∧ traits.allowsPlain then cs ++ ['\n']
  else quotes ++ ['\n']

/-- A scalar or an empty list or record, and the end of its line. -/
def leafLine (indent : Nat) : Json → List Char
  | .null => "null\n".toList
  | .bool b => (if b then "true\n" else "false\n").toList
  | .number n => n.text ++ ['\n']
  | .string s => stringLine indent s
  | .array _ => "[]\n".toList
  | .object _ => "\x7b\x7d\n".toList

def keyText (indent : Nat) (k : String) : List Char := (stringLine indent k).dropLast ++ [':']

mutual

/-- A value behind the name of its member. The items of a list are not indented. -/
def memberLines (indent : Nat) : Json → List Char
  | .array (v :: vs) =>
    '\n' :: blanks indent ++ '-' :: ' ' :: itemLines (indent + 2) v ++ moreItems indent vs
  | .object ((k, v) :: rest) =>
    '\n' :: blanks (indent + 2) ++ keyText (indent + 4) k ++ memberLines (indent + 2) v ++
      moreMembers (indent + 2) rest
  | v => ' ' :: leafLine (indent + 2) v

/-- A value that begins in the middle of a line. -/
def itemLines (indent : Nat) : Json → List Char
  | .array (v :: vs) => '-' :: ' ' :: itemLines (indent + 2) v ++ moreItems indent vs
  | .object ((k, v) :: rest) =>
    keyText (indent + 2) k ++ memberLines indent v ++ moreMembers indent rest
  | v => leafLine indent v

def moreItems (indent : Nat) : List Json → List Char
  | [] => []
  | v :: rest =>
    blanks indent ++ '-' :: ' ' :: itemLines (indent + 2) v ++ moreItems indent rest

def moreMembers (indent : Nat) : List (String × Json) → List Char
  | [] => []
  | (k, v) :: rest =>
    blanks indent ++ keyText (indent + 2) k ++ memberLines indent v ++ moreMembers indent rest

end

def text (v : Json) : String := String.ofList (itemLines 0 v)

end ApiContract.Yaml
