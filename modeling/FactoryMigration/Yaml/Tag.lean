import FactoryMigration.Text.Count
import FactoryMigration.Text.Quoted
import FactoryMigration.Yaml.Character

set_option autoImplicit false

/-! # Tags

A tag says of what kind a node is. It is made of octets, as a rule those of a text; percent escapes
may write any others. In a document a tag stands in full, or behind a handle that a directive
explains. -/

namespace FactoryMigration.Yaml

/-- A tag in full. -/
structure Tag where
  octets : List UInt8
deriving DecidableEq

namespace Tag

/-- The tag of a text. -/
def ofString (s : String) : Tag :=
  ⟨s.toUTF8.toList⟩

/-- The tag of a standard kind. -/
def standard (name : String) : Tag :=
  .ofString ("tag:yaml.org,2002:" ++ name)

/-- Whether the tag begins with an exclamation mark. -/
def isMarked (tag : Tag) : Bool :=
  tag.octets.head? == some 0x21

/-- Whether the tag belongs to an application. A marked tag does if its octets are a text. -/
def isLocal (tag : Tag) : Bool :=
  tag.isMarked && ByteArray.validateUTF8 ⟨tag.octets.toArray⟩

end Tag

/-! ## Octets -/

/-- What a tag may hold apart from escapes. Where it is not followed by other nodes, `listed` allows
commas and square brackets in it. -/
def isTagCharacter (listed : Bool) (c : Char) : Bool :=
  isWordCharacter c || ";/?:@&=+$.!~*'()".toList.contains c || (listed && ",[]".toList.contains c)

/-- The octet of a percent escape. -/
def escapedOctet? : List Char → Option (Nat × List Char)
  | '%' :: a :: b :: rest => do
    return ((← Text.hexValue? a) * 16 + (← Text.hexValue? b), rest)
  | _ => none

/-- How many octets follow the first one of a character. -/
def furtherOctets? (first : Nat) : Option Nat :=
  if first < 0x80 then some 0
  else if first / 32 = 6 then some 1
  else if first / 16 = 14 then some 2
  else if first / 8 = 30 then some 3
  else none

/-- Escapes of the octets that are not the first one of a character. -/
def escapedOctets? : Nat → List Char → Option (List UInt8 × List Char)
  | 0, cs => some ([], cs)
  | n + 1, cs => do
    let (octet, rest) ← escapedOctet? cs
    guard (octet / 64 = 2)
    let (octets, rest) ← escapedOctets? n rest
    return (UInt8.ofNat octet :: octets, rest)

/-- The octets at the beginning of a text, and what follows them. The first argument bounds the
number of characters and escapes. -/
def tagOctets? (listed : Bool) : Nat → List Char → Option (List UInt8 × List Char)
  | steps + 1, c :: rest =>
    if c = '%' then do
      let (first, rest) ← escapedOctet? (c :: rest)
      let (further, rest) ← escapedOctets? (← furtherOctets? first) rest
      let (octets, rest) ← tagOctets? listed steps rest
      return (UInt8.ofNat first :: further ++ octets, rest)
    else if isTagCharacter listed c then
      (tagOctets? listed steps rest).map fun (octets, rest) =>
        (String.utf8EncodeChar c ++ octets, rest)
    else some ([], c :: rest)
  | _, cs => some ([], cs)

/-- A tag, or a part of one, and what follows it; a zero octet ends it. -/
def Tag.scan? (listed : Bool) (cs : List Char) : Option (Tag × List Char) :=
  (tagOctets? listed cs.length cs).map fun (octets, rest) => (⟨octets.takeWhile (· ≠ 0)⟩, rest)

/-- A tag, or a part of one, that is written with one character at least. -/
def Tag.scanSome? (listed : Bool) (cs : List Char) : Option (Tag × List Char) :=
  (Tag.scan? listed cs).filter fun (_, rest) => rest.length != cs.length

/-! ## Tags in a document -/

/-- A tag as it stands in a document. -/
inductive TagName where
  | full (tag : Tag)
  | short (handle : String) (ending : Tag)
deriving DecidableEq

namespace TagName

/-- The handle without a word of its own. -/
def primaryHandle : String := "!"

/-- Reads a tag after its exclamation mark. -/
def scan? (cs : List Char) : Option (TagName × List Char) := do
  let word := cs.takeWhile isWordCharacter
  match cs.drop word.length with
  | '!' :: rest =>
    let (ending, rest) ← Tag.scanSome? false rest
    return (.short (String.ofList ('!' :: word ++ ['!'])) ending, rest)
  | _ =>
    match cs with
    | '<' :: rest =>
      let (tag, rest) ← Tag.scanSome? true rest
      if rest.head? = some '>' then return (.full tag, rest.tail) else none
    | _ =>
      let (ending, rest) ← Tag.scan? false cs
      -- The exclamation mark alone is a tag.
      if ending.octets = [] then return (.full (.ofString "!"), rest)
      else return (.short primaryHandle ending, rest)

/-- The tag in full, if its handle is known. -/
def resolve? (handles : List (String × Tag)) : TagName → Option Tag
  | full tag => some tag
  | short handle ending =>
    (handles.lookup handle).map fun beginning => ⟨beginning.octets ++ ending.octets⟩

end TagName

/-! ## Directives -/

/-- A line in front of a document. -/
inductive Directive where
  | version (major minor : Nat)
  /-- What a handle stands for. -/
  | handle (name : String) (beginning : Tag)
deriving DecidableEq

namespace Directive

/-- A number of a version, of nine digits at most. -/
def number? (cs : List Char) : Option (Nat × List Char) :=
  let digits := cs.takeWhile Char.isDigit
  if digits.length ≤ 9 then
    (Text.digits? digits).map fun n => (n, cs.drop digits.length)
  else none

/-- The version of the format. -/
def version? (cs : List Char) : Option (Directive × List Char) := do
  let (major, rest) ← number? cs
  guard (rest.head? = some '.')
  let (minor, rest) ← number? rest.tail
  return (.version major minor, rest)

/-- A handle and the beginning of the tags that it stands for. -/
def handle? (cs : List Char) : Option (Directive × List Char) := do
  guard (cs.head? = some '!')
  let word := cs.tail.takeWhile isWordCharacter
  let after := cs.tail.drop word.length
  let closed := after.head? = some '!'
  guard (closed ∨ word = [])
  let rest := if closed then after.tail else after
  guard ((rest.head?.map isGap).getD false)
  let (beginning, rest) ← Tag.scanSome? true (rest.dropWhile isGap)
  guard (endsWord rest)
  let name := '!' :: word ++ (if closed then ['!'] else [])
  return (.handle (String.ofList name) beginning, rest)

/-- Reads a directive after its percent sign, with the end of its line. -/
def scan? (cs : List Char) : Option (Directive × List Char) := do
  let name := cs.takeWhile isWordCharacter
  let rest := cs.drop name.length
  guard (endsWord rest)
  let value := rest.dropWhile isGap
  let (directive, rest) ← match String.ofList name with
    | "YAML" => version? value
    | "TAG" => handle? value
    | _ => none
  return (directive, ← nextLine? rest)

end Directive

end FactoryMigration.Yaml
