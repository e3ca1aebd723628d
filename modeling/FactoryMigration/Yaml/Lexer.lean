import FactoryMigration.Yaml.Block
import FactoryMigration.Yaml.Token

set_option autoImplicit false

/-! # From text to tokens

Block collections start where a token stands further right than the collection around them, and end
where one stands further left. A mapping is noticed at the colon after its first key; the tokens for
the mapping and the key are then put in front of what was read as the key. For that the lexer
remembers where a key may have begun, in the block and in every flow collection that is open. A key
without a question mark stands on one line with its colon, and is of limited length. -/

namespace FactoryMigration.Yaml

/-- A place where a key may have begun. -/
structure PossibleKey where
  /-- How many tokens stand before it. -/
  before : Nat
  line : Nat
  column : Nat
  offset : Nat
  /-- Whether a key has to stand here, since it is where those of the block around it stand. -/
  required : Bool

/-- A text read up to a place. -/
structure Lexer where
  cursor : Cursor
  tokens : Array Token
  /-- The columns of the open block collections, innermost first. -/
  columns : List Nat
  /-- Whether a key may begin at the next token. -/
  keyAllowed : Bool
  /-- The last place where a key may have begun. -/
  key : Option PossibleKey
  /-- The same for the collections around the innermost flow collection; empty in blocks. -/
  outerKeys : List (Option PossibleKey)

namespace Lexer

/-- The beginning of a text. -/
def start (cs : List Char) : Lexer :=
  ⟨.start cs, #[], [], true, none, []⟩

/-- Whether a flow collection is open. -/
def inFlow (s : Lexer) : Bool :=
  !s.outerKeys.isEmpty

/-- The first column to the right of the innermost block collection. -/
def leastColumn (s : Lexer) : Nat :=
  (s.columns.head?.map (· + 1)).getD 0

/-- Adds a token. -/
def add (token : Token) (s : Lexer) : Lexer :=
  { s with tokens := s.tokens.push token }

/-- Adds a token of some characters. -/
def take (n : Nat) (token : Token) (s : Lexer) : Lexer :=
  { s.add token with cursor := s.cursor.advance n }

/-! ## Block collections -/

/-- Starts a block collection in a column, after the given number of tokens, unless one in that
column is open or the place is inside a flow collection. -/
def openBlock (token : Token) (column before : Nat) (s : Lexer) : Lexer :=
  if !s.inFlow ∧ s.leastColumn ≤ column then
    { s with
      columns := column :: s.columns
      tokens := s.tokens.insertIdxIfInBounds before token }
  else s

/-- Ends the block collections whose columns `closes` says; inside flow collections none. -/
def closeBlocks (closes : Nat → Bool) (s : Lexer) : Lexer :=
  if s.inFlow then s
  else
    let closed := s.columns.takeWhile closes
    { s with
      columns := s.columns.drop closed.length
      tokens := s.tokens ++ List.replicate closed.length Token.blockEnd }

/-! ## Keys -/

/-- How many octets a key may have, without its colon. -/
def maxKeyLength : Nat := 1024

/-- Whether a colon at the cursor is too far from the key. -/
def isStale (s : Lexer) (key : PossibleKey) : Bool :=
  key.line < s.cursor.line || key.offset + maxKeyLength < s.cursor.offset

/-- What is left of a possible key at the cursor; none if it is required and too far. -/
def freshKey? (s : Lexer) : Option PossibleKey → Option (Option PossibleKey)
  | none => some none
  | some key =>
    if !s.isStale key then some (some key) else if key.required then none else some none

/-- Forgets the possible keys that are too far from the cursor. -/
def dropStaleKeys? (s : Lexer) : Option Lexer := do
  return { s with key := ← s.freshKey? s.key, outerKeys := ← s.outerKeys.mapM s.freshKey? }

/-- Forgets the last possible key, which must not be required. -/
def dropKey? (s : Lexer) : Option Lexer :=
  if s.key.any (·.required) then none else some { s with key := none }

/-- Remembers that a key may begin at the cursor, if that is allowed. -/
def saveKey? (s : Lexer) : Option Lexer :=
  if s.keyAllowed then do
    let required := !s.inFlow && s.columns.head? == some s.cursor.column
    let s ← s.dropKey?
    let place := s.cursor
    let key := ⟨s.tokens.size, place.line, place.column, place.offset, required⟩
    return { s with key := some key }
  else some s

/-- Says whether a key may begin at the next token. -/
def allowKey (allowed : Bool) (s : Lexer) : Lexer :=
  { s with keyAllowed := allowed }

/-! ## Tokens -/

/-- Goes on to the next token: block collections further right end before it. -/
def toNext? (s : Lexer) : Option Lexer := do
  let cursor := s.cursor.skipGap s.inFlow s.keyAllowed
  let keyAllowed := s.keyAllowed || (!s.inFlow && s.cursor.line < cursor.line)
  let s ← { s with cursor := cursor, keyAllowed := keyAllowed }.dropStaleKeys?
  return s.closeBlocks (cursor.column < ·)

/-- Ends all block collections, where a document or the text ends. -/
def closeAll? (s : Lexer) : Option Lexer := do
  let s ← (s.closeBlocks fun _ => true).dropKey?
  return s.allowKey false

/-- A bracket that opens a flow collection. -/
def openFlow? (token : Token) (s : Lexer) : Option Lexer := do
  let s ← s.saveKey?
  return { s with key := none, outerKeys := s.key :: s.outerKeys }.allowKey true |>.take 1 token

/-- A bracket that closes a flow collection. -/
def closeFlow? (token : Token) (s : Lexer) : Option Lexer := do
  let s ← s.dropKey?
  let s := match s.outerKeys with
    | [] => s
    | key :: outer => { s with key := key, outerKeys := outer }
  return s.allowKey false |>.take 1 token

/-- Starts a block collection at the cursor, where an indicator stands. -/
def openBlockHere? (token : Token) (s : Lexer) : Option Lexer :=
  if s.inFlow then some s
  else if s.keyAllowed then some (s.openBlock token s.cursor.column s.tokens.size)
  else none

/-- The dash before an item. -/
def item? (s : Lexer) : Option Lexer := do
  let s ← (← s.openBlockHere? .blockSequence).dropKey?
  return s.allowKey true |>.take 1 .item

/-- The question mark before a key. -/
def explicitKey? (s : Lexer) : Option Lexer := do
  let s ← (← s.openBlockHere? .blockMapping).dropKey?
  return s.allowKey (!s.inFlow) |>.take 1 .key

/-- The colon before a value. -/
def value? (s : Lexer) : Option Lexer :=
  match s.key with
  | some key =>
    let s := { s with tokens := s.tokens.insertIdxIfInBounds key.before .key, key := none }
    some (s.openBlock .blockMapping key.column key.before |>.allowKey false |>.take 1 .value)
  | none => do
    let s ← s.openBlockHere? .blockMapping
    return s.allowKey (!s.inFlow) |>.take 1 .value

/-- What may follow a name apart from the end of the word. -/
def endsName : List Char → Bool
  | [] => true
  | c :: rest => endsWord (c :: rest) || "?:,]\x7d%@\u0060".toList.contains c

/-- A name of a node after its indicator. -/
def name? (token : String → Token) (s : Lexer) : Option Lexer := do
  let name := s.cursor.rest.tail.takeWhile isWordCharacter
  guard (!name.isEmpty ∧ endsName (s.cursor.rest.tail.drop name.length))
  return s.take (name.length + 1) (token (String.ofList name))

/-- A tag. -/
def tag? (s : Lexer) : Option Lexer := do
  let (name, rest) ← TagName.scan? s.cursor.rest.tail
  guard (endsWord rest ∨ (s.inFlow ∧ rest.head? = some ','))
  return { s.add (.tag name) with cursor := s.cursor.goTo rest }

/-- Adds the token of a scalar that was read up to a place. -/
def addScalar (s : Lexer) (read : Scalar × Cursor) : Lexer :=
  { s.add (.scalar read.1) with cursor := read.2 }

/-- Text in lines of its own. -/
def block? (folded : Bool) (s : Lexer) : Option Lexer := do
  let s ← s.dropKey?
  return s.allowKey true |>.addScalar (← blockText? folded s.leastColumn s.cursor.next)

/-- A directive, in the line that it takes up. -/
def directive? (s : Lexer) : Option Lexer := do
  let s ← s.closeAll?
  let (directive, rest) ← Directive.scan? s.cursor.rest.tail
  return { s.add (.directive directive) with cursor := s.cursor.goTo rest }

/-- Plain text. -/
def plainText? (s : Lexer) : Option Lexer := do
  let (scalar, newLine, cursor) ← plain? s.inFlow s.leastColumn s.cursor
  return s.allowKey newLine |>.addScalar (scalar, cursor)

/-- The mark that a document starts or ends. -/
def documentMark? (s : Lexer) : Option Lexer := do
  let token := if s.cursor.sees '-' then Token.documentStart else .documentEnd
  return (← s.closeAll?).take 3 token

/-- Reads a token that a key may begin with. -/
def inKey? (read : Lexer → Option Lexer) (s : Lexer) : Option Lexer := do
  read ((← s.saveKey?).allowKey false)

/-- Reads the token that begins at the cursor. -/
def token? (s : Lexer) : Option Lexer :=
  match s.cursor.rest with
  | [] => none
  | c :: rest =>
    if c = '%' ∧ s.cursor.column = 0 then s.directive?
    else if s.cursor.seesDocumentMark then s.documentMark?
    else if c = '[' then s.openFlow? .flowSequence
    else if c = '\x7b' then s.openFlow? .flowMapping
    else if c = ']' then s.closeFlow? .flowSequenceEnd
    else if c = '\x7d' then s.closeFlow? .flowMappingEnd
    else if c = ',' then do return (← s.dropKey?).allowKey true |>.take 1 .comma
    else if c = '-' ∧ endsWord rest then s.item?
    else if c = '?' ∧ (s.inFlow ∨ endsWord rest) then s.explicitKey?
    else if c = ':' ∧ (s.inFlow ∨ endsWord rest) then s.value?
    else if c = '*' then s.inKey? (name? .reference)
    else if c = '&' then s.inKey? (name? .anchor)
    else if c = '!' then s.inKey? tag?
    else if c = '|' ∧ !s.inFlow then s.block? false
    else if c = '>' ∧ !s.inFlow then s.block? true
    else if c = '\'' ∨ c = '"' then s.inKey? fun s => (quoted? s.cursor).map s.addScalar
    else if startsPlain s.inFlow (c :: rest) then s.inKey? plainText?
    else none

/-- Reads all tokens. The first argument bounds their number. -/
def readAll? : Nat → Lexer → Option (Array Token)
  | 0, _ => none
  | steps + 1, s => do
    let s ← s.toNext?
    if s.cursor.rest.isEmpty then return (← s.closeAll?).tokens
    else readAll? steps (← s.token?)

end Lexer

/-- The tokens of a text. -/
def Token.ofText? (text : String) : Option (List Token) :=
  if text.toList.all isAllowed then
    let cs := normalizedLines text.toList
    ((Lexer.start cs).readAll? (cs.length + 1)).map Array.toList
  else none

end FactoryMigration.Yaml
