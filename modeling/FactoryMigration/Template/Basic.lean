import FactoryMigration.Json.Printer
import FactoryMigration.Text.Count

set_option autoImplicit false

/-! # Script templates

A template is text with holes, each named after a variable. In template text a hole is a name
between two or three braces, with blanks around it if one likes, or with an ampersand before it; the
three forms mean the same. A backslash before two braces makes them text. Rendering fails if a
variable is missing. A few names are words of the template language and never mean a variable. -/

namespace FactoryMigration

/-- A run of text or a hole for a variable. -/
inductive Piece where
  | text (s : String)
  | hole (name : String)
deriving DecidableEq

/-- A template in pieces. -/
abbrev Template := List Piece

namespace Template

/-- What the braces of a hole may have around its name. -/
def isSpace (c : Char) : Bool :=
  c == ' ' || c == '\t' || c == '\n' || c == '\r'

/-- What names of variables are made of: ASCII letters, digits, the underscore, and everything
beyond ASCII. -/
def isNameCharacter (c : Char) : Bool :=
  c.isAlphanum || c == '_' || 0x80 ≤ c.toNat

/-- Adds a character before a template. -/
def addChar (c : Char) : Template → Template
  | .text s :: pieces => .text (String.singleton c ++ s) :: pieces
  | pieces => .text (String.singleton c) :: pieces

/-- The name in a hole after its opening braces, up to the given closing braces, and what
follows. -/
def holeName? (closing : List Char) (cs : List Char) : Option (String × List Char) := do
  let cs := cs.dropWhile isSpace
  let name := cs.takeWhile isNameCharacter
  let rest ← Text.afterStart closing ((cs.dropWhile isNameCharacter).dropWhile isSpace)
  if name = [] then none else some (String.ofList name, rest)

/-- Whether a name begins with the word that separates the branches of a condition, of which there
are none here. The word needs no blank after it. -/
def startsElse (name : String) : Bool :=
  (Text.afterStart "else".toList name.toList).isSome

/-- The name in a hole after its first two braces, and what follows. Without a further brace or an
ampersand, the name must not begin like another branch. -/
def hole? : List Char → Option (String × List Char)
  | '\x7b' :: cs => holeName? ['\x7d', '\x7d', '\x7d'] cs
  | '&' :: cs => holeName? ['\x7d', '\x7d'] cs
  | cs => (holeName? ['\x7d', '\x7d'] cs).filter fun (name, _) => !startsElse name

/-- Whether the text begins with two braces, after any number of backslashes. -/
def opensHole : List Char → Bool
  | '\\' :: cs => opensHole cs
  | '\x7b' :: '\x7b' :: _ => true
  | _ => false

/-- Reads template text. The first argument bounds the number of steps, each of which takes at least
one character. -/
def scan : Nat → List Char → Option Template
  | _, [] => some []
  | 0, _ => none
  | steps + 1, '\\' :: '\x7b' :: '\x7b' :: '\x7b' :: '\x7b' :: cs =>
    (scan steps cs).map (.text "\x7b\x7b\x7b\x7b" :: ·)
  | steps + 1, '\\' :: '\x7b' :: '\x7b' :: cs => (scan steps cs).map (.text "\x7b\x7b" :: ·)
  | steps + 1, '\\' :: '\\' :: cs =>
    if opensHole cs then
      let more := cs.takeWhile (· == '\\')
      (scan steps (cs.drop more.length)).map (.text (String.ofList ('\\' :: more)) :: ·)
    else (scan steps ('\\' :: cs)).map (addChar '\\')
  | steps + 1, '\x7b' :: '\x7b' :: cs => do
    let (name, rest) ← hole? cs
    let pieces ← scan steps rest
    return .hole name :: pieces
  | steps + 1, c :: cs => (scan steps cs).map (addChar c)

/-- Reads template text; none if a hole is not closed or has no name. -/
def parse? (text : String) : Option Template :=
  scan text.length text.toList

/-- The text of a hole. -/
def holeText (name : String) : String :=
  "\x7b\x7b" ++ name ++ "\x7d\x7d"

/-- The text of a piece. -/
def pieceText : Piece → String
  | .text s => s
  | .hole name => holeText name

/-- The text of a template. -/
def source (template : Template) : String :=
  String.join (template.map pieceText)

mutual

/-- The text of a JSON value in a hole: lists in brackets, objects by a fixed word, null as
nothing. -/
def valueText : Json → String
  | .str s => s
  | .null => ""
  | .arr items => "[" ++ Text.joinWith ", " (valueTexts items) ++ "]"
  | .obj _ => "[object]"
  | value => value.compact

/-- The texts of the items of a list. -/
def valueTexts : List Json → List String
  | [] => []
  | item :: items => valueText item :: valueTexts items

end

/-! ## Names -/

/-- Operations that need operands, which a hole with nothing but a name does not give them. -/
def needsOperands (name : String) : Bool :=
  ["if", "unless", "each", "with", "lookup", "eq", "ne", "gt", "gte", "lt", "lte", "not",
    "len"].contains name

/-- The value of an operation without operands. Raw text and entries of a log are empty, all of
nothing holds, and none of nothing does. -/
def operation? (name : String) : Option String :=
  if name = "raw" ∨ name = "log" then some ""
  else if name = "and" then some "true"
  else if name = "or" then some "false"
  else none

/-- What the names in the holes of a template stand for: its variables, and all of them together. -/
structure Scope where
  whole : String
  find? : String → Option String

namespace Scope

/-- The variables of a list. -/
def ofEntries (entries : List (String × String)) : Scope :=
  { whole := "[object]"
    find? := fun name => entries.lookup name }

/-- The variables of a JSON value: the fields of an object, or the items of a list by their
position. -/
def ofJson (value : Json) : Scope :=
  { whole := valueText value
    find? := fun name =>
      let found := match value with
        | .arr items => (Text.count? Text.limit64 name.toList).bind fun n => items[n]?
        | _ => value.get? name
      found.map valueText }

/-- The text for a hole. Operations come before variables of the same name. -/
def value? (scope : Scope) (name : String) : Option String :=
  if needsOperands name then none
  else operation? name <|> if name = "this" then some scope.whole else scope.find? name

end Scope

/-- Fills the holes of a template; the error is a name that stands for nothing. -/
def fill (scope : Scope) : Template → Except String String
  | [] => .ok ""
  | .text s :: pieces => do
    let rest ← fill scope pieces
    return s ++ rest
  | .hole name :: pieces =>
    match scope.value? name with
    | none => .error name
    | some value => do
      let rest ← fill scope pieces
      return value ++ rest

end Template

end FactoryMigration
