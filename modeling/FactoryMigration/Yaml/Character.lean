import FactoryMigration.Json.Basic

set_option autoImplicit false

/-! # Characters of YAML text

Which characters a text may hold, which of them end a line, and which end a word. Three line ends
are alike and become a line feed (`normalizedLines`); the two Unicode separators end a line too, but
stay what they are. -/

namespace FactoryMigration.Yaml

/-- A blank inside a line. -/
def isGap (c : Char) : Bool :=
  c == ' ' || c == '\t'

/-- The end of a line, once `normalizedLines` has made most of them a line feed. -/
def isLineEnd (c : Char) : Bool :=
  c == '\n' || c == '\u2028' || c == '\u2029'

/-- Whether the text begins with a blank, a line end, or not at all. -/
def endsWord : List Char → Bool
  | [] => true
  | c :: _ => isGap c || isLineEnd c

/-- Whether the text begins with a line end, or not at all. -/
def endsLine : List Char → Bool
  | [] => true
  | c :: _ => isLineEnd c

/-- What names are made of. -/
def isWordCharacter (c : Char) : Bool :=
  c.isAlphanum || c == '_' || c == '-'

/-- The brackets and the comma of flow collections. -/
def isFlowIndicator (c : Char) : Bool :=
  c == ',' || c == '[' || c == ']' || c == '\x7b' || c == '\x7d'

/-- Whether a line begins with the mark that a document starts or ends. -/
def isDocumentMark : List Char → Bool
  | '-' :: '-' :: '-' :: rest => endsWord rest
  | '.' :: '.' :: '.' :: rest => endsWord rest
  | _ => false

/-- The characters that a text may hold. -/
def isAllowed (c : Char) : Bool :=
  let n := c.toNat
  c == '\t' || c == '\n' || c == '\r' || (0x20 ≤ n && n ≤ 0x7E) || n == 0x85
    || (0xA0 ≤ n && n ≤ 0xFFFD) || 0x10000 ≤ n

/-- The text with a line feed for a carriage return, alone or before a line feed, and for a next
line. -/
def normalizedLines : List Char → List Char
  | [] => []
  | '\r' :: '\n' :: rest => '\n' :: normalizedLines rest
  | c :: rest => (if c = '\r' ∨ c = '\x85' then '\n' else c) :: normalizedLines rest

/-- The line after this one, of which only blanks and a comment may be left. -/
def nextLine? (cs : List Char) : Option (List Char) :=
  let cs := cs.dropWhile isGap
  let cs := if cs.head? = some '#' then cs.dropWhile (!isLineEnd ·) else cs
  if endsLine cs then some cs.tail else none

end FactoryMigration.Yaml
