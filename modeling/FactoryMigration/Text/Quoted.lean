set_option autoImplicit false

/-! # Quoted texts

A text between double quotes, with a backslash escape for the quote, the backslash and the control
characters. This is the string form of JSON, which ordinary double-quoted literals of the generated
scripts share. `scanQuoted` reads what `quote` writes, and the other escapes JSON allows. -/

namespace FactoryMigration.Text

/-- Lower-case hexadecimal digit of a number below 16. -/
def hexDigit (n : Nat) : Char :=
  if n < 10 then Char.ofNat ('0'.toNat + n) else Char.ofNat ('a'.toNat + (n - 10))

/-- Four hexadecimal digits of a number below 2^16. -/
def hex4 (n : Nat) : List Char :=
  [hexDigit (n / 4096 % 16), hexDigit (n / 256 % 16), hexDigit (n / 16 % 16), hexDigit (n % 16)]

/-- One character inside quotes: quote, backslash and controls are escaped, all else stands as
is. -/
def escapeChar (c : Char) : List Char :=
  if c = '"' then ['\\', '"']
  else if c = '\\' then ['\\', '\\']
  else if c = '\x08' then ['\\', 'b']
  else if c = '\x0c' then ['\\', 'f']
  else if c = '\n' then ['\\', 'n']
  else if c = '\r' then ['\\', 'r']
  else if c = '\t' then ['\\', 't']
  else if c.toNat < 0x20 then '\\' :: 'u' :: hex4 c.toNat
  else [c]

/-- The text between the quotes. -/
def escape (cs : List Char) : List Char :=
  cs.flatMap escapeChar

/-- The text with its quotes. -/
def quote (cs : List Char) : List Char :=
  '"' :: escape cs ++ ['"']

/-- `escape` on strings. -/
def escaped (s : String) : String :=
  String.ofList (escape s.toList)

/-- `quote` on strings. -/
def quoted (s : String) : String :=
  String.ofList (quote s.toList)

/-! ## Reading -/

/-- The value of a hexadecimal digit of either case. -/
def hexValue? (c : Char) : Option Nat :=
  if c.isDigit then some (c.toNat - '0'.toNat)
  else if 'a' ≤ c ∧ c ≤ 'f' then some (c.toNat - 'a'.toNat + 10)
  else if 'A' ≤ c ∧ c ≤ 'F' then some (c.toNat - 'A'.toNat + 10)
  else none

/-- The number that four hexadecimal digits write. -/
def hexValue4? (a b c d : Char) : Option Nat := do
  let a ← hexValue? a
  let b ← hexValue? b
  let c ← hexValue? c
  let d ← hexValue? d
  return ((a * 16 + b) * 16 + c) * 16 + d

/-- The character of a short escape. -/
def shortEscape? : Char → Option Char
  | '"' => some '"'
  | '\\' => some '\\'
  | '/' => some '/'
  | 'b' => some '\x08'
  | 'f' => some '\x0c'
  | 'n' => some '\n'
  | 'r' => some '\r'
  | 't' => some '\t'
  | _ => none

/-- First half of a surrogate pair. -/
def isLeadSurrogate (n : Nat) : Bool := 0xD800 ≤ n && n < 0xDC00

/-- Second half of a surrogate pair. -/
def isTrailSurrogate (n : Nat) : Bool := 0xDC00 ≤ n && n < 0xE000

/-- Reads up to the closing quote, after the opening one: the text and what follows it. Raw
controls, unknown escapes, single surrogates and a missing end are refused. -/
def scanQuoted : List Char → Option (List Char × List Char)
  | [] => none
  | '"' :: rest => some ([], rest)
  | '\\' :: 'u' :: a :: b :: c :: d :: rest =>
    match hexValue4? a b c d with
    | none => none
    | some lead =>
      if isTrailSurrogate lead then none
      else if isLeadSurrogate lead then
        match rest with
        | '\\' :: 'u' :: a' :: b' :: c' :: d' :: rest' =>
          match hexValue4? a' b' c' d' with
          | none => none
          | some trail =>
            if isTrailSurrogate trail then
              let code := 0x10000 + (lead - 0xD800) * 0x400 + (trail - 0xDC00)
              (scanQuoted rest').map fun (text, after) => (Char.ofNat code :: text, after)
            else none
        | _ => none
      else (scanQuoted rest).map fun (text, after) => (Char.ofNat lead :: text, after)
  | '\\' :: e :: rest =>
    match shortEscape? e with
    | none => none
    | some c => (scanQuoted rest).map fun (text, after) => (c :: text, after)
  | c :: rest =>
    if c.toNat < 0x20 ∨ c = '\\' then none
    else (scanQuoted rest).map fun (text, after) => (c :: text, after)

end FactoryMigration.Text
