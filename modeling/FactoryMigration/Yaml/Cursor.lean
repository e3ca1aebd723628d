import FactoryMigration.Yaml.Character

set_option autoImplicit false

/-! # Places in a YAML text

A cursor is a place in a text: its line and column, how many octets stand before it, and the text
from there on. -/

namespace FactoryMigration.Yaml

/-- A place in a text. -/
structure Cursor where
  line : Nat
  column : Nat
  /-- The octets of UTF-8 before the place. -/
  offset : Nat
  rest : List Char

namespace Cursor

/-- The beginning of a text. -/
def start (cs : List Char) : Cursor :=
  ⟨0, 0, 0, cs⟩

/-- The place after the next character. -/
def next (c : Cursor) : Cursor :=
  match c.rest with
  | [] => c
  | char :: rest =>
    let offset := c.offset + char.utf8Size
    if isLineEnd char then ⟨c.line + 1, 0, offset, rest⟩ else ⟨c.line, c.column + 1, offset, rest⟩

/-- The place after some more characters. -/
def advance : Nat → Cursor → Cursor
  | 0, c => c
  | n + 1, c => advance n c.next

/-- The place where the given end of the text begins. -/
def goTo (rest : List Char) (c : Cursor) : Cursor :=
  c.advance (c.rest.length - rest.length)

/-- Whether the next character is the given one. -/
def sees (c : Cursor) (char : Char) : Bool :=
  c.rest.head? == some char

/-- Whether the mark that a document starts or ends stands here. -/
def seesDocumentMark (c : Cursor) : Bool :=
  c.column == 0 && isDocumentMark c.rest

/-! ## Between tokens -/

/-- How many characters stand before the next token: blanks, line ends and comments. A tab is a
blank only where no key may begin, as its width is not known, or in flow collections, where
indentation does not count. In blocks a key may begin in every new line. A byte order mark is
skipped at the start of a line. -/
def gapLength (flow : Bool) : (keyAllowed comment lineStart : Bool) → List Char → Nat
  | _, _, _, [] => 0
  | keyAllowed, comment, lineStart, c :: rest =>
    if isLineEnd c then gapLength flow (keyAllowed || !flow) false true rest + 1
    else if comment ∨ c = ' ' ∨ (c = '\t' ∧ (flow ∨ !keyAllowed))
        ∨ (lineStart ∧ c = '\ufeff') then
      gapLength flow keyAllowed comment false rest + 1
    else if c = '#' then gapLength flow keyAllowed true false rest + 1
    else 0

/-- The next token. -/
def skipGap (flow keyAllowed : Bool) (c : Cursor) : Cursor :=
  c.advance (gapLength flow keyAllowed false (c.column == 0) c.rest)

end Cursor

end FactoryMigration.Yaml
