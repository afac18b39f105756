namespace ApiContract.Yaml

/-- What was being read when a fault was met. -/
inductive Activity where
  | simpleKey
  | nextToken
  | directive
  | versionDirective
  | tagDirective
  | tagDirectiveStart
  | tagDirectiveHandle
  | tagDirectiveAddress
  | tag
  | tagAddress
  | anchor
  | aliasName
  | blockScalar
  | quotedScalar
  | escape
  | plainScalar
  | node
  | blockNode
  | flowNode
  | blockSequence
  | blockMapping
  | flowSequence
  | flowMapping
deriving Repr, DecidableEq

def Activity.message : Activity → String
  | simpleKey => "while scanning a simple key"
  | nextToken => "while scanning for the next token"
  | directive => "while scanning a directive"
  | versionDirective => "while scanning a %YAML directive"
  | tagDirective => "while scanning a %TAG directive"
  | tagDirectiveStart => "while scanning a tag directive"
  | tagDirectiveHandle => "while parsing a tag directive"
  | tagDirectiveAddress => "while parsing a %TAG directive"
  | tag => "while scanning a tag"
  | tagAddress => "while parsing a tag"
  | anchor => "while scanning an anchor"
  | aliasName => "while scanning an alias"
  | blockScalar => "while scanning a block scalar"
  | quotedScalar => "while scanning a quoted scalar"
  | escape => "while parsing a quoted scalar"
  | plainScalar => "while scanning a plain scalar"
  | node => "while parsing a node"
  | blockNode => "while parsing a block node"
  | flowNode => "while parsing a flow node"
  | blockSequence => "while parsing a block collection"
  | blockMapping => "while parsing a block mapping"
  | flowSequence => "while parsing a flow sequence"
  | flowMapping => "while parsing a flow mapping"

inductive Problem where
  /-- A character that no text may hold, at a distance in bytes from the start. -/
  | control (place : Nat)
  | noColon
  | entryNotAllowed
  | keyNotAllowed
  | valueNotAllowed
  | noTokenStart
  | unknownDirective
  | noDirectiveName
  | directiveNameEnd
  | noLineEnd
  | noVersionPoint
  | longVersion
  | noVersionNumber
  | noBlank
  | noBlankOrBreak
  | noExclamationMark
  | noAddress
  | noAddressEnd
  | noOctet
  | leadingOctet
  | trailingOctet
  | noName
  | zeroIndentation
  | tabForSpace
  | documentMark
  | endInScalar
  | unknownEscape
  | noHexNumber
  | noCharacter
  | colonInScalar
  | tabInIndentation
  | noDocumentStart
  | repeatedVersion
  | incompatibleVersion
  | repeatedHandle
  | unknownHandle
  | noContent
  | noDash
  | noKey
  | noCommaOrBracket
  | noCommaOrBrace
  | unknownAnchor
  | severalDocuments
  | tooDeep
  | tooManyAliases
  | endOfText
deriving Repr, DecidableEq

def Problem.message : Problem → String
  | control place =>
    "control characters are not allowed" ++
      if place = 0 then "" else " at position " ++ toString place
  | noColon => "could not find expected ':'"
  | entryNotAllowed => "block sequence entries are not allowed in this context"
  | keyNotAllowed => "mapping keys are not allowed in this context"
  | valueNotAllowed => "mapping values are not allowed in this context"
  | noTokenStart => "found character that cannot start any token"
  | unknownDirective => "found unknown directive name"
  | noDirectiveName => "could not find expected directive name"
  | directiveNameEnd => "found unexpected non-alphabetical character"
  | noLineEnd => "did not find expected comment or line break"
  | noVersionPoint => "did not find expected digit or '.' character"
  | longVersion => "found extremely long version number"
  | noVersionNumber => "did not find expected version number"
  | noBlank => "did not find expected whitespace"
  | noBlankOrBreak => "did not find expected whitespace or line break"
  | noExclamationMark => "did not find expected '!'"
  | noAddress => "did not find expected tag URI"
  | noAddressEnd => "did not find the expected '>'"
  | noOctet => "did not find URI escaped octet"
  | leadingOctet => "found an incorrect leading UTF-8 octet"
  | trailingOctet => "found an incorrect trailing UTF-8 octet"
  | noName => "did not find expected alphabetic or numeric character"
  | zeroIndentation => "found an indentation indicator equal to 0"
  | tabForSpace => "found a tab character where an indentation space is expected"
  | documentMark => "found unexpected document indicator"
  | endInScalar => "found unexpected end of stream"
  | unknownEscape => "found unknown escape character"
  | noHexNumber => "did not find expected hexdecimal number"
  | noCharacter => "found invalid Unicode character escape code"
  | colonInScalar => "found unexpected ':'"
  | tabInIndentation => "found a tab character that violates indentation"
  | noDocumentStart => "did not find expected <document start>"
  | repeatedVersion => "found duplicate %YAML directive"
  | incompatibleVersion => "found incompatible YAML document"
  | repeatedHandle => "found duplicate %TAG directive"
  | unknownHandle => "found undefined tag handle"
  | noContent => "did not find expected node content"
  | noDash => "did not find expected '-' indicator"
  | noKey => "did not find expected key"
  | noCommaOrBracket => "did not find expected ',' or ']'"
  | noCommaOrBrace => "did not find expected ',' or '\x7d'"
  | unknownAnchor => "unknown anchor"
  | severalDocuments =>
    "deserializing from YAML containing more than one document is not supported"
  | tooDeep => "recursion limit exceeded"
  | tooManyAliases => "repetition limit exceeded"
  | endOfText => "EOF while parsing a value"

structure Fault where
  problem : Problem
  activity : Option Activity := none
deriving Repr, DecidableEq

def Fault.message (f : Fault) : String :=
  match f.activity with
  | none => f.problem.message
  | some activity => f.problem.message ++ ", " ++ activity.message

end ApiContract.Yaml
