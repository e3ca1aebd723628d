import FactoryMigration.Text.Segment

set_option autoImplicit false

/-! # Connection strings

A storage connection string holds values, each after its tag and up to a semicolon or the end of the
text. The first place where a tag is followed by a whole value of the right characters counts. -/

namespace FactoryMigration.ConnectionString

/-- The value at the start of the text, after its tag: at least one character, all of its class, up
to a semicolon or the end. -/
def valueHere? (tag : List Char) (isValue : Char → Bool) (cs : List Char) : Option (List Char) :=
  match Text.afterStart tag cs with
  | none => none
  | some rest =>
    let value := rest.takeWhile isValue
    match value, rest.dropWhile isValue with
    | [], _ => none
    | _, [] => some value
    | _, c :: _ => if c = ';' then some value else none

/-- The value after the first tag that has one. -/
def value? (tag : List Char) (isValue : Char → Bool) : List Char → Option (List Char)
  | [] => valueHere? tag isValue []
  | c :: rest =>
    match valueHere? tag isValue (c :: rest) with
    | some value => some value
    | none => value? tag isValue rest

/-- ASCII letters, digits and the point. -/
def isHostCharacter (c : Char) : Bool :=
  c.isAlphanum || c == '.'

/-- Every character but the semicolon. -/
def isKeyCharacter (c : Char) : Bool :=
  c != ';'

def accountName? (cs : List Char) : Option (List Char) :=
  value? "AccountName=".toList Char.isAlphanum cs

def protocol? (cs : List Char) : Option (List Char) :=
  value? "DefaultEndpointsProtocol=".toList Char.isAlphanum cs

def endpointSuffix? (cs : List Char) : Option (List Char) :=
  value? "EndpointSuffix=".toList isHostCharacter cs

def accountKey? (cs : List Char) : Option (List Char) :=
  value? "AccountKey=".toList isKeyCharacter cs

end FactoryMigration.ConnectionString
