/-
# Why a document is refused

A document is read in the order of its text, and the first fault is the one
reported. A fault is a cause; its wording is given by `Fault.message`, and
`Fault.category` sorts the causes into texts that end too early, texts that are
not well-formed, and well-formed texts that do not say what is asked for.

Decoding finds out what the first fault is. Where it is, by line and column, a
`Locator` says, which whoever decodes brings along.

Key definitions: `Fault`, `Fault.category`, `Fault.message`, `Locator`.
-/
import TemplatePasses.Json.Number
import TemplatePasses.Text.Shown

namespace TemplatePasses.Json

open TemplatePasses.Text

/-- What stands where something else is asked for. -/
inductive Found where
  | null
  | bool (b : Bool)
  | number (n : Number)
  | text (s : String)
  | list
  | object
deriving DecidableEq

/-- The words for what was found. -/
def Found.description : Found → String
  | .null => "null"
  | .bool b => "boolean `" ++ shownBool b ++ "`"
  | .number (.integer n) => "integer `" ++ (Number.integer n).text ++ "`"
  | .number (.double x) => "floating point `" ++ (Number.double x).text ++ "`"
  | .text s => "string " ++ quoted s
  | .list => "sequence"
  | .object => "map"

/-- What is asked for. -/
inductive Wanted where
  | bool
  | text
  | int64
  | list
  | map
  | record (name : String)
  /-- The `null` that may follow the name of a variant. -/
  | unit
deriving DecidableEq

/-- The words for what is asked for. -/
def Wanted.description : Wanted → String
  | .bool => "a boolean"
  | .text => "a string"
  | .int64 => "i64"
  | .list => "a sequence"
  | .map => "a map"
  | .record name => "struct " ++ name
  | .unit => "unit"

/-- The causes for which a document is refused. -/
inductive Fault where
  | endInValue
  | endInList
  | endInObject
  | endInText
  | valueWanted
  | misspelledWord
  | colonWanted
  | commaOrBracketWanted
  | commaOrBraceWanted
  | keyWanted
  | trailingComma
  | trailingCharacters
  | badNumeral
  | numberOutOfRange
  | badEscape
  | loneSurrogate
  | unpairedSurrogate
  | controlCharacter
  | tooDeep
  | wrongType (found : Found) (wanted : Wanted)
  | integerTooLarge (n : WideInt) (wanted : Wanted)
  | tooShort (length : Nat) (record : String) (fields : Nat)
  | missingField (field : String)
  | duplicateField (field : String)
  | unknownVariant (name : String) (variants : List String)
deriving DecidableEq

/-- The kinds of causes. -/
inductive FaultCategory where
  | eof
  | syntactic
  | data
deriving DecidableEq

def FaultCategory.name : FaultCategory → String
  | .eof => "eof"
  | .syntactic => "syntax"
  | .data => "data"

namespace Fault

def category : Fault → FaultCategory
  | endInValue | endInList | endInObject | endInText => .eof
  | valueWanted | misspelledWord | colonWanted | commaOrBracketWanted | commaOrBraceWanted
  | keyWanted | trailingComma | trailingCharacters | badNumeral | numberOutOfRange | badEscape
  | loneSurrogate | unpairedSurrogate | controlCharacter | tooDeep => .syntactic
  | wrongType .. | integerTooLarge .. | tooShort .. | missingField _ | duplicateField _
  | unknownVariant .. => .data

def ticked (name : String) : String :=
  "`" ++ name ++ "`"

/-- The variants to choose from: two are joined by "or", others are listed. -/
def choice (variants : List String) : String :=
  match variants with
  | [a, b] => ticked a ++ " or " ++ ticked b
  | _ => "one of " ++ commaSeparated (variants.map ticked)

def message : Fault → String
  | endInValue => "EOF while parsing a value"
  | endInList => "EOF while parsing a list"
  | endInObject => "EOF while parsing an object"
  | endInText => "EOF while parsing a string"
  | valueWanted => "expected value"
  | misspelledWord => "expected ident"
  | colonWanted => "expected `:`"
  | commaOrBracketWanted => "expected `,` or `]`"
  | commaOrBraceWanted => "expected `,` or `\x7d`"
  | keyWanted => "key must be a string"
  | trailingComma => "trailing comma"
  | trailingCharacters => "trailing characters"
  | badNumeral => "invalid number"
  | numberOutOfRange => "number out of range"
  | badEscape => "invalid escape"
  | loneSurrogate => "lone leading surrogate in hex escape"
  | unpairedSurrogate => "unexpected end of hex escape"
  | controlCharacter => "control character (\\u0000-\\u001F) found while parsing a string"
  | tooDeep => "recursion limit exceeded"
  | wrongType found wanted =>
    "invalid type: " ++ found.description ++ ", expected " ++ wanted.description
  | integerTooLarge n wanted =>
    "invalid value: " ++ (Found.number (.integer n)).description ++ ", expected "
      ++ wanted.description
  | tooShort length record fields =>
    "invalid length " ++ String.ofList (decimalDigits length) ++ ", expected struct " ++ record
      ++ " with " ++ String.ofList (decimalDigits fields) ++ " element"
      ++ (if fields = 1 then "" else "s")
  | missingField field => "missing field " ++ ticked field
  | duplicateField field => "duplicate field " ++ ticked field
  | unknownVariant name variants =>
    "unknown variant " ++ ticked name ++ ", expected " ++ choice variants

end Fault

/-! ### Positions -/

/-- Where in its text a fault is. -/
structure FaultPosition where
  line : Nat
  column : Nat
deriving DecidableEq

/-- The position as it stands behind the wording of the fault. -/
def FaultPosition.suffix (p : FaultPosition) : String :=
  " at line " ++ String.ofList (decimalDigits p.line) ++ " column " ++
    String.ofList (decimalDigits p.column)

/-- Finds the first fault of a text, if it counts lines at all. -/
abbrev Locator := String → Option FaultPosition

/-- The locator that does not count. -/
def Locator.silent : Locator := fun _ => none

/-- The wording of a fault with its position, if that is known. -/
def Fault.located (fault : Fault) : Option FaultPosition → String
  | some position => fault.message ++ position.suffix
  | none => fault.message

end TemplatePasses.Json
