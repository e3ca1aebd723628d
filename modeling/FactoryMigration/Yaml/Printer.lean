import FactoryMigration.Decimal.Shortest
import FactoryMigration.Report.Basic
import FactoryMigration.Yaml.Tree
import FactoryMigration.Yaml.Style

set_option autoImplicit false

/-! # Writing YAML

Mappings are indented by two blanks, sequences stand in the column of their key, and empty
collections are written in brackets. Lines are as long as their text. -/

namespace FactoryMigration.Yaml

/-- Numbers in YAML text are positional from `0.00001` up to `10 ^ 16`, and only a negative exponent
has a sign. -/
def floatLayout : Decimal.Layout := ⟨-5, 16, false⟩

/-- How many columns a collection is indented. -/
def indentStep : Nat := 2

/-- Blanks up to a column. -/
def margin (column : Nat) : List Char :=
  List.replicate column ' '

/-! ## Scalars -/

/-- The text with the margin in front of every line but empty ones. The flag says whether the text
is at the beginning of a line. -/
def indentLines (column : Nat) : (atStart : Bool) → List Char → List Char
  | _, [] => []
  | atStart, c :: rest =>
    if isBreak c then c :: indentLines column true rest
    else (if atStart then margin column else []) ++ c :: indentLines column false rest

/-- Upper-case hexadecimal digits, as many as given. -/
def hexDigits : Nat → Nat → List Char
  | 0, _ => []
  | width + 1, n => hexDigits width (n / 16) ++ [(Text.hexDigit (n % 16)).toUpper]

/-- The letter of a short escape. -/
def escapeLetter? (c : Char) : Option Char :=
  if c = '\x00' then some '0'
  else if c = '\x07' then some 'a'
  else if c = '\x08' then some 'b'
  else if c = '\t' then some 't'
  else if c = '\n' then some 'n'
  else if c = '\x0b' then some 'v'
  else if c = '\x0c' then some 'f'
  else if c = '\r' then some 'r'
  else if c = '\x1b' then some 'e'
  else if c = '"' then some '"'
  else if c = '\\' then some '\\'
  else if c = '\x85' then some 'N'
  else if c = '\u2028' then some 'L'
  else if c = '\u2029' then some 'P'
  else none

/-- One character in double quotes. What cannot be printed has at most 16 bits. -/
def escapeChar (c : Char) : List Char :=
  match escapeLetter? c with
  | some letter => ['\\', letter]
  | none =>
    if isPrintable c then [c]
    else if c.toNat ≤ 0xFF then '\\' :: 'x' :: hexDigits 2 c.toNat
    else '\\' :: 'u' :: hexDigits 4 c.toNat

/-- What an indicator of a block has to say: the indentation if the first line does not show it, and
what becomes of the line ends after the last line. -/
def blockHints (cs : List Char) : List Char :=
  let indent := match cs with
    | c :: _ => if c == ' ' || isBreak c then Nat.toDigits 10 indentStep else []
    | [] => []
  let chomping := match cs.reverse with
    | [] => ['-']
    | [c] => if isBreak c then ['+'] else ['-']
    | c :: before :: _ => if !isBreak c then ['-'] else if isBreak before then ['+'] else []
  indent ++ chomping

/-- A scalar with the line end after it, for lines that begin in the given column. -/
def Scalar.written (column : Nat) (scalar : Scalar) : List Char :=
  let cs := scalar.text.toList
  match scalar.style with
  | .plain => cs ++ ['\n']
  | .singleQuoted =>
    let inner := cs.flatMap fun c => if c = '\'' then ['\'', '\''] else [c]
    '\'' :: indentLines column false (inner ++ ['\'']) ++ ['\n']
  | .doubleQuoted => '"' :: cs.flatMap escapeChar ++ ['"', '\n']
  -- Text in lines of its own keeps its line ends, and is never folded.
  | .literal | .folded =>
    let ended := (cs.getLast?.map isBreak).getD false
    '|' :: blockHints cs ++ '\n' :: indentLines column true cs ++ if ended then [] else ['\n']

/-- Whether a key fits into the line of its value: one line of at most 128 bytes. -/
def Scalar.isSimpleKey (key : Scalar) : Bool :=
  !key.text.toList.any isBreak && key.text.utf8ByteSize ≤ 128

/-! ## Trees -/

/-- Lines one after another, each but the first with a margin. -/
def joinAt (column : Nat) : List (List Char) → List Char
  | [] => []
  | [line] => line
  | line :: lines => line ++ margin column ++ joinAt column lines

/-- A key up to its colon. -/
def keyText (column : Nat) (key : Scalar) : List Char :=
  if key.isSimpleKey then (key.written column).dropLast ++ [':']
  else '?' :: ' ' :: key.written (column + indentStep) ++ margin column ++ [':']

mutual

/-- What follows a key of a mapping in the given column. -/
def afterKey (column : Nat) : Tree → List Char
  | .scalar s => ' ' :: s.written (column + indentStep)
  | .sequence [] => " []\n".toList
  | .sequence items => '\n' :: margin column ++ joinAt column (itemTexts column items)
  | .mapping [] => " \x7b\x7d\n".toList
  | .mapping entries =>
    let column := column + indentStep
    '\n' :: margin column ++ joinAt column (entryTexts column entries)
  | .tagged tag body => ' ' :: tag.toList ++ afterKey column body

/-- What follows the dash of a sequence in the given column, or the colon of a key that has lines of
its own. -/
def afterDash (column : Nat) : Tree → List Char
  | .scalar s => ' ' :: s.written (column + indentStep)
  | .sequence [] => " []\n".toList
  | .sequence items =>
    let column := column + indentStep
    ' ' :: joinAt column (itemTexts column items)
  | .mapping [] => " \x7b\x7d\n".toList
  | .mapping entries =>
    let column := column + indentStep
    ' ' :: joinAt column (entryTexts column entries)
  | .tagged tag body => ' ' :: tag.toList ++ afterTag column body

/-- What follows the tag of an item of a sequence in the given column. -/
def afterTag (column : Nat) : Tree → List Char
  | .scalar s => ' ' :: s.written (column + indentStep)
  | .sequence [] => " []\n".toList
  | .sequence items =>
    let column := column + indentStep
    '\n' :: margin column ++ joinAt column (itemTexts column items)
  | .mapping [] => " \x7b\x7d\n".toList
  | .mapping entries =>
    let column := column + indentStep
    '\n' :: margin column ++ joinAt column (entryTexts column entries)
  | .tagged tag body => ' ' :: tag.toList ++ afterTag column body

/-- The items of a sequence in the given column. -/
def itemTexts (column : Nat) : List Tree → List (List Char)
  | [] => []
  | item :: items => ('-' :: afterDash column item) :: itemTexts column items

/-- The entries of a mapping in the given column. -/
def entryTexts (column : Nat) : List (Scalar × Tree) → List (List Char)
  | [] => []
  | (key, value) :: entries =>
    let afterIt := if key.isSimpleKey then afterKey column value else afterDash column value
    (keyText column key ++ afterIt) :: entryTexts column entries

end

/-- The text of a document. -/
def Tree.text : Tree → List Char
  | .scalar s => s.written 0
  | .sequence [] => "[]\n".toList
  | .sequence items => joinAt 0 (itemTexts 0 items)
  | .mapping [] => "\x7b\x7d\n".toList
  | .mapping entries => joinAt 0 (entryTexts 0 entries)
  | .tagged tag body => tag.toList ++ afterTag 0 body

/-! ## Values as trees -/

/-- The plain scalar of a text that needs no quotes. -/
def plainTree (s : String) : Tree :=
  .scalar ⟨.plain, s⟩

/-- A number as plain text. -/
def Tree.ofNumber : Number → Tree
  | .int n => plainTree (toString n)
  | .real x => plainTree (String.ofList (floatLayout.text x))

mutual

/-- The tree of a JSON value. -/
def Tree.ofJson : Json → Tree
  | .null => plainTree "null"
  | .bool b => plainTree (if b then "true" else "false")
  | .num n => .ofNumber n
  | .str s => .scalar (.ofText s)
  | .arr items => .sequence (Tree.ofItems items)
  | .obj fields => .mapping (Tree.ofFields fields)

/-- The trees of the items. -/
def Tree.ofItems : List Json → List Tree
  | [] => []
  | item :: items => .ofJson item :: Tree.ofItems items

/-- The entries of the fields. -/
def Tree.ofFields : List (String × Json) → List (Scalar × Tree)
  | [] => []
  | (key, value) :: fields => (.ofText key, .ofJson value) :: Tree.ofFields fields

end

mutual

/-- The tree of a report. -/
def Tree.ofReport : Report → Tree
  | .json value => .ofJson value
  | .list items => .sequence (Tree.ofReports items)
  | .record fields => .mapping (Tree.ofRecord fields)
  | .tagged tag body => .tagged ("!" ++ tag) (.ofReport body)

/-- The trees of a list of reports. -/
def Tree.ofReports : List Report → List Tree
  | [] => []
  | item :: items => .ofReport item :: Tree.ofReports items

/-- The entries of a record. -/
def Tree.ofRecord : List (String × Report) → List (Scalar × Tree)
  | [] => []
  | (key, value) :: fields => (.ofText key, .ofReport value) :: Tree.ofRecord fields

end

end FactoryMigration.Yaml

/-- The YAML text of a report. -/
def FactoryMigration.Report.yaml (report : FactoryMigration.Report) : String :=
  String.ofList (FactoryMigration.Yaml.Tree.ofReport report).text
