import FactoryMigration.Yaml.Fold

set_option autoImplicit false

/-! # Block scalars

Text in lines after an indicator. A bar keeps the line ends, an angle folds them. What stands after
the last line is kept, clipped to one line end, or stripped. The indentation is given, or that of
the first line that is not empty. -/

namespace FactoryMigration.Yaml

/-- What is kept of the line ends after the last line. -/
inductive Chomping where
  | strip
  | clip
  | keep
deriving DecidableEq

/-- The marks after the indicator of a block scalar. -/
structure BlockHeader where
  chomping : Chomping
  /-- Given indentation, relative to the parent. -/
  indent : Option Nat

namespace BlockHeader

def chomping? : Char → Option Chomping
  | '-' => some .strip
  | '+' => some .keep
  | _ => none

/-- A digit from one to nine. -/
def indent? (c : Char) : Option Nat :=
  if c.isDigit ∧ c ≠ '0' then some (Text.digitValue c) else none

/-- Reads chomping and indentation, in any order. -/
def ofMarks : List Char → BlockHeader × List Char
  | a :: b :: rest =>
    match chomping? a, indent? a, chomping? b, indent? b with
    | some chomping, _, _, some n => (⟨chomping, some n⟩, rest)
    | _, some n, some chomping, _ => (⟨chomping, some n⟩, rest)
    | some chomping, _, _, _ => (⟨chomping, none⟩, b :: rest)
    | _, some n, _, _ => (⟨.clip, some n⟩, b :: rest)
    | _, _, _, _ => (⟨.clip, none⟩, a :: b :: rest)
  | [a] =>
    match chomping? a, indent? a with
    | some chomping, _ => (⟨chomping, none⟩, [])
    | _, some n => (⟨.clip, some n⟩, [])
    | _, _ => (⟨.clip, none⟩, [a])
  | [] => (⟨.clip, none⟩, [])

end BlockHeader

/-! ## Lines -/

/-- The ends of some empty lines, the greatest column of their blanks and of those before the next
line, and how many characters all this takes. -/
structure EmptyLines where
  lineEnds : List Char
  column : Nat
  length : Nat

/-- The empty lines before the next line of an indentation, with the indentation of that line; as
long as it is not known, all blanks count as indentation. None for a tab in the place of
indentation. -/
def emptyLines (indent : Option Nat) : (column greatest : Nat) → List Char → Option EmptyLines
  | column, greatest, [] => some ⟨[], max column greatest, 0⟩
  | column, greatest, c :: rest =>
    let inMargin := indent.all (column < ·)
    if inMargin ∧ c = ' ' then
      (emptyLines indent (column + 1) greatest rest).map fun lines =>
        { lines with length := lines.length + 1 }
    else if inMargin ∧ c = '\t' then none
    else if isLineEnd c then
      (emptyLines indent 0 (max column greatest) rest).map fun lines =>
        { lines with lineEnds := c :: lines.lineEnds, length := lines.length + 1 }
    else some ⟨[], max column greatest, 0⟩

/-- A line of a block scalar, with the ends of the empty lines before it. The last line of a text
may have no end of its own. -/
structure BlockLine where
  before : List Char
  text : List Char
  lineEnd : Option Char

/-- The lines of a block scalar from the one that begins here, the ends of the empty lines after
them, and the place behind. The first argument bounds the number of lines. -/
def blockLines (indent : Nat) :
    Nat → (before : List Char) → Cursor → Option (List BlockLine × List Char × Cursor)
  | 0, before, c => some ([], before, c)
  | steps + 1, before, c =>
    if c.column = indent ∧ !c.rest.isEmpty then do
      let text := c.rest.takeWhile (!isLineEnd ·)
      let c := c.advance text.length
      let lineEnd := c.rest.head?
      let c := c.next
      let empty ← emptyLines (some indent) c.column 0 c.rest
      let (lines, after, c) ← blockLines indent steps empty.lineEnds (c.advance empty.length)
      return (⟨before, text, lineEnd⟩ :: lines, after, c)
    else some ([], before, c)

namespace BlockLine

/-- Whether the line begins with a blank. -/
def isIndented (line : BlockLine) : Bool :=
  (line.text.head?.map isGap).getD false

/-- What stands between two lines of a folded text. A line feed between lines that are not indented
is dropped if empty lines follow it, and otherwise becomes a blank. -/
def foldedEnd (line next : BlockLine) : List Char :=
  if line.lineEnd = some '\n' ∧ !line.isIndented ∧ !next.isIndented then
    if next.before.isEmpty then [' '] else []
  else line.lineEnd.toList

/-- The text of some lines up to the end of the last one. -/
def join (folded : Bool) : List BlockLine → List Char
  | [] => []
  | [line] => line.before ++ line.text
  | line :: next :: lines =>
    let between := if folded then line.foldedEnd next else line.lineEnd.toList
    line.before ++ line.text ++ between ++ join folded (next :: lines)

/-- What is kept of the line ends after the last line. -/
def lastEnds (chomping : Chomping) (lines : List BlockLine) (after : List Char) : List Char :=
  let own := (lines.getLast?.bind (·.lineEnd)).toList
  match chomping with
  | .strip => []
  | .clip => own
  | .keep => own ++ after

end BlockLine

/-- Reads a block scalar after its bar or angle. `least` is the first column in which its lines may
begin, one more than that of the collection around it. -/
def blockText? (folded : Bool) (least : Nat) (c : Cursor) : Option (Scalar × Cursor) := do
  let (header, rest) := BlockHeader.ofMarks c.rest
  let c := c.goTo (← nextLine? rest)
  let given := header.indent.map (least - 1 + ·)
  let empty ← emptyLines given c.column 0 c.rest
  let indent := given.getD (max (max empty.column least) 1)
  let (lines, after, c) ←
    blockLines indent (c.rest.length + 1) empty.lineEnds (c.advance empty.length)
  let text := BlockLine.join folded lines ++ BlockLine.lastEnds header.chomping lines after
  return (⟨if folded then .folded else .literal, String.ofList text⟩, c)

end FactoryMigration.Yaml
