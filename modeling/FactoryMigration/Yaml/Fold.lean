import FactoryMigration.Yaml.Cursor
import FactoryMigration.Yaml.Scalar

set_option autoImplicit false

/-! # Text over several lines

Plain and quoted text may go over several lines. Blanks around a line end are dropped; one line feed
becomes a blank, and of several the first is dropped. A separator in its place is kept. In double
quotes a line end may be escaped, and then it is dropped with the blanks after it. -/

namespace FactoryMigration.Yaml

/-- A piece of text before folding. -/
inductive TextPiece where
  | char (c : Char)
  | blank (c : Char)
  | lineEnd (c : Char)
  /-- An escaped line end. -/
  | joint
deriving DecidableEq

/-- A blank or any other character inside a line. -/
def TextPiece.inLine (c : Char) : TextPiece :=
  if isGap c then .blank c else .char c

/-- Text folded so far, and what stands after it: blanks, and line ends, possibly after a joint. All
are kept last first. -/
structure Folding where
  text : List Char
  blanks : List Char
  lineEnds : List Char
  joined : Bool

namespace Folding

def start : Folding := ⟨[], [], [], false⟩

/-- What some line ends become, first one first. -/
def foldedLineEnds : List Char → List Char
  | ['\n'] => [' ']
  | '\n' :: more => more
  | lineEnds => lineEnds

/-- The text with what stands after it. -/
def flush (folding : Folding) : List Char :=
  if folding.joined then folding.lineEnds ++ folding.text
  else if folding.lineEnds.isEmpty then folding.blanks ++ folding.text
  else (foldedLineEnds folding.lineEnds.reverse).reverse ++ folding.text

/-- Adds a piece. -/
def add (folding : Folding) : TextPiece → Folding
  | .char c => ⟨c :: folding.flush, [], [], false⟩
  | .blank c =>
    if folding.joined || !folding.lineEnds.isEmpty then folding
    else { folding with blanks := c :: folding.blanks }
  | .lineEnd c => { folding with blanks := [], lineEnds := c :: folding.lineEnds }
  | .joint => ⟨folding.flush, [], [], true⟩

/-- Folds some pieces. -/
def ofPieces (pieces : List TextPiece) : Folding :=
  pieces.foldl add start

end Folding

/-! ## Quotes -/

/-- The pieces up to the closing quote, and what follows it. -/
def scanSingleQuoted : List Char → Option (List TextPiece × List Char)
  | [] => none
  | '\'' :: '\'' :: rest =>
    (scanSingleQuoted rest).map fun (pieces, rest) => (.char '\'' :: pieces, rest)
  | '\'' :: rest => some ([], rest)
  | c :: rest =>
    if isLineEnd c then
      if isDocumentMark rest then none
      else (scanSingleQuoted rest).map fun (pieces, rest) => (.lineEnd c :: pieces, rest)
    else (scanSingleQuoted rest).map fun (pieces, rest) => (.inLine c :: pieces, rest)

/-- The character of a short escape. -/
def shortEscape? : Char → Option Char
  | '0' => some '\x00'
  | 'a' => some '\x07'
  | 'b' => some '\x08'
  | 't' => some '\t'
  | '\t' => some '\t'
  | 'n' => some '\n'
  | 'v' => some '\x0b'
  | 'f' => some '\x0c'
  | 'r' => some '\r'
  | 'e' => some '\x1b'
  | ' ' => some ' '
  | '"' => some '"'
  | '/' => some '/'
  | '\\' => some '\\'
  | 'N' => some '\x85'
  | '_' => some '\xa0'
  | 'L' => some '\u2028'
  | 'P' => some '\u2029'
  | _ => none

/-- How many hexadecimal digits an escape has. -/
def escapeWidth? : Char → Option Nat
  | 'x' => some 2
  | 'u' => some 4
  | 'U' => some 8
  | _ => none

/-- The character with the given code in hexadecimal digits. -/
def charOfDigits? (digits : List Char) : Option Char := do
  let code ← baseDigits? 16 digits
  if code.isValidChar then some (Char.ofNat code) else none

/-- The piece of an escape after its backslash, and what follows it. -/
def scanEscape? : List Char → Option (TextPiece × List Char)
  | [] => none
  | e :: rest =>
    if isLineEnd e then
      if isDocumentMark rest then none else some (.joint, rest)
    else
      match escapeWidth? e with
      | none => (shortEscape? e).map fun c => (.char c, rest)
      | some width => do
        guard (width ≤ rest.length)
        let c ← charOfDigits? (rest.take width)
        return (.char c, rest.drop width)

/-- The pieces up to the closing quote, and what follows it. The first argument bounds the number of
pieces. -/
def scanDoubleQuoted : Nat → List Char → Option (List TextPiece × List Char)
  | 0, _ => none
  | _, [] => none
  | steps + 1, c :: rest =>
    if c = '"' then some ([], rest)
    else do
      let (piece, rest) ←
        if c = '\\' then scanEscape? rest
        else if isLineEnd c then if isDocumentMark rest then none else some (.lineEnd c, rest)
        else some (.inLine c, rest)
      let (pieces, rest) ← scanDoubleQuoted steps rest
      return (piece :: pieces, rest)

/-- Quoted text. -/
def quoted? (c : Cursor) : Option (Scalar × Cursor) :=
  let scalar (style : Style) (pieces : List TextPiece) (rest : List Char) : Scalar × Cursor :=
    (⟨style, String.ofList (Folding.ofPieces pieces).flush.reverse⟩, c.goTo rest)
  match c.rest with
  | '\'' :: rest =>
    (scanSingleQuoted rest).map fun (pieces, rest) => scalar .singleQuoted pieces rest
  | '"' :: rest =>
    (scanDoubleQuoted (rest.length + 1) rest).map fun (pieces, rest) =>
      scalar .doubleQuoted pieces rest
  | _ => none

/-! ## Plain text -/

/-- Whether plain text may begin here. -/
def startsPlain (flow : Bool) : List Char → Bool
  | [] => false
  | c :: rest =>
    if endsWord (c :: rest) then false
    else if c = '-' then !endsWord rest
    else if c = '?' ∨ c = ':' then !flow && !endsWord rest
    else !(isFlowIndicator c || "#&*!|>'\"%@\u0060".toList.contains c)

/-- Whether a colon before this text is refused in flow collections. -/
def refusesColon : List Char → Bool
  | c :: _ => c == '?' || isFlowIndicator c
  | [] => false

/-- The word of plain text up to a blank or an indicator. None for a colon that a flow collection
refuses. -/
def plainWord (flow : Bool) : List Char → Option (List Char)
  | [] => some []
  | c :: rest =>
    if endsWord (c :: rest) then some []
    else if flow ∧ c = ':' ∧ refusesColon rest then none
    else if c = ':' ∧ endsWord rest then some []
    else if flow ∧ isFlowIndicator c then some []
    else (plainWord flow rest).map (c :: ·)

/-- The blanks and line ends after a word. None for a tab that stands in the place of
indentation. -/
def plainGap (least : Nat) : (column : Nat) → (newLine : Bool) → List Char →
    Option (List TextPiece)
  | _, _, [] => some []
  | column, newLine, c :: rest =>
    if isLineEnd c then (plainGap least 0 true rest).map (.lineEnd c :: ·)
    else if isGap c then
      if newLine ∧ column < least ∧ c = '\t' then none
      else (plainGap least (column + 1) newLine rest).map (.blank c :: ·)
    else some []

/-- Plain text word by word with the blanks after it, for as long as its lines begin in the column
`least` or further right. The first argument bounds the number of words. -/
def scanPlain (flow : Bool) (least : Nat) : Nat → Cursor → Option (List TextPiece × Cursor)
  | 0, c => some ([], c)
  | steps + 1, c =>
    if c.sees '#' ∨ c.seesDocumentMark then some ([], c)
    else do
      let word ← plainWord flow c.rest
      let c := c.advance word.length
      let gap ← plainGap least c.column false c.rest
      let c := c.advance gap.length
      let (pieces, c) ←
        if gap.isEmpty ∨ (!flow ∧ c.column < least) then some ([], c)
        else scanPlain flow least steps c
      return (word.map .char ++ gap ++ pieces, c)

/-- Plain text, and whether line ends follow it. -/
def plain? (flow : Bool) (least : Nat) (c : Cursor) : Option (Scalar × Bool × Cursor) :=
  (scanPlain flow least (c.rest.length + 1) c).map fun (pieces, c) =>
    let folding := Folding.ofPieces pieces
    (⟨.plain, String.ofList folding.text.reverse⟩, !folding.lineEnds.isEmpty, c)

end FactoryMigration.Yaml
