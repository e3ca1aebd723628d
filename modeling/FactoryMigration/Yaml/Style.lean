import FactoryMigration.Yaml.Scalar

set_option autoImplicit false

/-! # Choosing a style

The style in which a text is written. Several lines go into a block. A text that would stand for
something else as plain text, or that an indicator makes ambiguous, is quoted. What cannot be
printed needs the escapes of double quotes. -/

namespace FactoryMigration.Yaml

/-- Line ends as the writer knows them. -/
def isBreak (c : Char) : Bool :=
  c == '\n' || c == '\r' || c == '\x85' || c == '\u2028' || c == '\u2029'

/-- What is written as it is: everything but controls, the byte order mark and two code points that
are no characters. A tab counts as a control. -/
def isPrintable (c : Char) : Bool :=
  let n := c.toNat
  c == '\n' || (0x20 ≤ n && n ≤ 0x7E) || (0xA0 ≤ n && n ≤ 0xFFFD && n != 0xFEFF) || 0x10000 ≤ n

/-- Whether the text begins with a blank or a line end, or not at all. -/
def startsBlank : List Char → Bool
  | [] => true
  | c :: _ => c == ' ' || c == '\t' || isBreak c

/-- Characters that plain text cannot begin with. -/
def isLeadIndicator (c : Char) : Bool :=
  "#,[]\x7b\x7d&*!|>'\"%@\u0060".toList.contains c

/-- Whether the text begins like an indicator. -/
def startsIndicator : List Char → Bool
  | '-' :: '-' :: '-' :: _ => true
  | '.' :: '.' :: '.' :: _ => true
  | c :: rest =>
    isLeadIndicator c || ((c == '-' || c == '?' || c == ':') && startsBlank rest)
  | [] => false

/-- Whether an indicator stands inside the text: a colon before a blank, or a hash after one. The
flag says whether a blank stands before the text. -/
def hasInnerIndicator : (afterBlank : Bool) → List Char → Bool
  | _, [] => false
  | afterBlank, c :: rest =>
    (c == ':' && startsBlank rest) || (c == '#' && afterBlank)
      || hasInnerIndicator (startsBlank [c]) rest

/-- Whether two characters, of the given kinds, stand side by side. -/
def hasPair (first second : Char → Bool) : List Char → Bool
  | a :: b :: rest => (first a && second b) || hasPair first second (b :: rest)
  | _ => false

/-- Whether a blank stands before a line end. -/
def hasBlankBeforeBreak (cs : List Char) : Bool :=
  hasPair (· == ' ') isBreak cs

/-- Whether a blank stands after a line end. -/
def hasBlankAfterBreak (cs : List Char) : Bool :=
  hasPair isBreak (· == ' ') cs

/-- Whether the text begins or ends with a blank or a line end. -/
def hasOuterBlank (cs : List Char) : Bool :=
  let outer := fun (c : Option Char) => (c.map fun c => c == ' ' || isBreak c).getD false
  outer cs.head? || outer cs.getLast?

/-- Whether a text can be written in lines. -/
def fitsBlock (cs : List Char) : Bool :=
  cs.all isPrintable && !hasBlankBeforeBreak cs && cs.getLast? != some ' '

/-- Whether a text can be written in single quotes. -/
def fitsSingleQuotes (cs : List Char) : Bool :=
  cs.all isPrintable && !hasBlankBeforeBreak cs && !hasBlankAfterBreak cs

/-- Whether a text can be written without quotes. -/
def fitsPlain (cs : List Char) : Bool :=
  cs.all isPrintable && !cs.any isBreak && !hasOuterBlank cs && !startsIndicator cs
    && !hasInnerIndicator true cs

/-- Whether plain text would stand for the text itself. -/
def isUnambiguous (s : String) : Bool :=
  plainMeaning s == .text && !hasExtraZero s.toList

/-- The style of a text. -/
def Style.ofText (s : String) : Style :=
  let cs := s.toList
  if cs.contains '\n' then if fitsBlock cs then .literal else .doubleQuoted
  else if isUnambiguous s ∧ fitsPlain cs then .plain
  else if fitsSingleQuotes cs then .singleQuoted
  else .doubleQuoted

/-- The scalar that writes a text. -/
def Scalar.ofText (s : String) : Scalar :=
  ⟨.ofText s, s⟩

end FactoryMigration.Yaml
