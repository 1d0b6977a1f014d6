/-
# Reading values from a tree

A `Decoder α` reads an `α` from a tree, or gives the first fault in the order
of the text. It is told how many levels of lists and objects it may still
enter; documents are read with 127 (`levelLimit`). What a decoder has no use for
is skipped (`Tree.skip`): then only the form counts, and there is no limit.

Key definitions: `Decoder`, `Tree.skip`, `Decoder.list`, `Decoder.map`,
`Decoder.variant`, `Decoder.decodeText`.
-/
import TemplatePasses.Json.Tree
import TemplatePasses.Json.Literal
import TemplatePasses.NameMap

namespace TemplatePasses.Json

/-- Reads a value, entering at most so many levels of lists and objects. -/
abbrev Decoder (α : Type) := Nat → Tree → Except Fault α

/-- The number of levels of a document that may be entered. -/
def levelLimit : Nat := 127

/-! ### Faults of single tokens -/

/-- What is wrong with a word of this extent. -/
def Extent.wordFault? : Extent → Option Fault
  | .whole => none
  | .cut => some .endInValue
  | .wrong => some .misspelledWord

/-- What a word stands for. -/
def Word.found : Word → Found
  | .null => .null
  | .yes => .bool true
  | .no => .bool false

/-- Checks that a word is complete. -/
def Extent.checkWord (extent : Extent) : Except Fault Unit :=
  match extent.wordFault? with
  | none => .ok ()
  | some fault => .error fault

/-- The fault of a token that stands where something else is asked for: its own
fault if it has one. -/
def Token.mismatch (wanted : Wanted) : Token → Fault
  | .word w extent => (extent.wordFault?).getD (.wrongType w.found wanted)
  | .numeral n =>
    match n.value with
    | .ok number => .wrongType (.number number) wanted
    | .error fault => fault
  | .text t =>
    match t.value with
    | .ok s => .wrongType (.text s) wanted
    | .error fault => fault
  | .leftBracket => .wrongType .list wanted
  | .leftBrace => .wrongType .object wanted
  | .rightBracket | .rightBrace | .comma | .colon | .stray => .valueWanted

/-- The fault of a tree that stands where something else is asked for. -/
def Tree.mismatch (wanted : Wanted) : Tree → Fault
  | .missing => .endInValue
  | .leaf token => token.mismatch wanted
  | .list .. => .wrongType .list wanted
  | .object .. => .wrongType .object wanted

/-! ### Endings -/

/-- Checks the end of a list whose items are all read. -/
def ListEnd.check : ListEnd → Except Fault Unit
  | .closed => .ok ()
  | .cut => .error .endInList
  | .misplaced => .error .commaOrBracketWanted
  | .commaClosed => .error .trailingComma

/-- The fault of a key without a colon, at the end of the text or before it. -/
def colonFault (atEnd : Bool) : Fault :=
  if atEnd then .endInObject else .colonWanted

/-- Checks the end of an object whose members are all read. A key without a
colon is shown to `key` first. -/
def ObjectEnd.check (key : QuotedText → Except Fault Unit) : ObjectEnd → Except Fault Unit
  | .closed => .ok ()
  | .cut => .error .endInObject
  | .misplaced => .error .commaOrBraceWanted
  | .commaClosed => .error .trailingComma
  | .commaCut => .error .endInValue
  | .strangeKey => .error .keyWanted
  | .noColon k atEnd => do key k; .error (colonFault atEnd)

/-! ### Skipping -/

/-- Checks the form of a text: its escapes, not what they stand for. -/
def QuotedText.skip (t : QuotedText) : Except Fault Unit :=
  match t.ending.fault? with
  | none => .ok ()
  | some fault => .error fault

/-- Checks the form of a single token that stands for a value. -/
def Token.skip : Token → Except Fault Unit
  | .word _ extent => extent.checkWord
  | .numeral n => if n.extent = .whole then .ok () else .error .badNumeral
  | .text t => t.skip
  | .leftBracket | .leftBrace | .rightBracket | .rightBrace | .comma | .colon | .stray =>
    .error .valueWanted

/-- Checks the end of a list that is skipped: behind a comma a value must come. -/
def ListEnd.skip : ListEnd → Except Fault Unit
  | .commaClosed => .error .valueWanted
  | ending => ending.check

/-- Checks the end of an object that is skipped: behind a comma a key must come. -/
def ObjectEnd.skip : ObjectEnd → Except Fault Unit
  | .commaClosed => .error .keyWanted
  | .commaCut => .error .endInObject
  | ending => ending.check QuotedText.skip

mutual

/-- Checks the form of a value that nobody asks for. -/
def Tree.skip : Tree → Except Fault Unit
  | .missing => .error .endInValue
  | .leaf token => token.skip
  | .list items ending => do skipItems items; ending.skip
  | .object members ending => do skipMembers members; ending.skip

/-- Checks the form of the items in turn. -/
def skipItems : List Tree → Except Fault Unit
  | [] => .ok ()
  | t :: rest => do t.skip; skipItems rest

/-- Checks the form of the members in turn. -/
def skipMembers : List (QuotedText × Tree) → Except Fault Unit
  | [] => .ok ()
  | (key, t) :: rest => do key.skip; t.skip; skipMembers rest

end

namespace Decoder

variable {α : Type}

/-- Goes one level deeper, if that is allowed. -/
def enter (levels : Nat) (inside : Nat → Except Fault α) : Except Fault α :=
  match levels with
  | 0 => .error .tooDeep
  | inner + 1 => inside inner

/-- Reads the whole text of a document. -/
def decodeText (d : Decoder α) (text : String) : Except Fault α := do
  let document := Document.read text.toList
  let value ← d levelLimit document.tree
  if document.trailing then .error .trailingCharacters else .ok value

/-! ### Single values -/

def bool : Decoder Bool := fun _ tree =>
  match tree with
  | .leaf (.word .yes extent) => do extent.checkWord; .ok true
  | .leaf (.word .no extent) => do extent.checkWord; .ok false
  | _ => .error (tree.mismatch .bool)

def text : Decoder String := fun _ tree =>
  match tree with
  | .leaf (.text t) => t.value
  | _ => .error (tree.mismatch .text)

/-- Reads an integer of 64 bits with a sign. -/
def int64 : Decoder Int64 := fun _ tree =>
  match tree with
  | .leaf (.numeral n) => do
    match ← n.value with
    | .integer i =>
      if i.val < 0x8000_0000_0000_0000 then .ok (Int64.ofInt i.val) else .error (.integerTooLarge i .int64)
    | .double x => .error (.wrongType (.number (.double x)) .int64)
  | _ => .error (tree.mismatch .int64)

/-- Reads nothing, spelled as `null`. -/
def unit : Decoder Unit := fun _ tree =>
  match tree with
  | .leaf (.word .null extent) => extent.checkWord
  | _ => .error (tree.mismatch .unit)

/-- Reads a value or `null` for none. -/
def option (d : Decoder α) : Decoder (Option α) := fun levels tree =>
  match tree with
  | .leaf (.word .null extent) => do extent.checkWord; .ok none
  | _ => some <$> d levels tree

/-! ### Lists and maps -/

def items (d : Decoder α) (levels : Nat) : List Tree → Except Fault (List α)
  | [] => .ok []
  | t :: rest => do
    let a ← d levels t
    let as ← items d levels rest
    .ok (a :: as)

def list (d : Decoder α) : Decoder (List α) := fun levels tree =>
  match tree with
  | .list trees ending => enter levels fun inner => do
    let as ← items d inner trees
    ending.check
    .ok as
  | _ => .error (tree.mismatch .list)

def entries (d : Decoder α) (levels : Nat) :
    List (QuotedText × Tree) → Except Fault (List (String × α))
  | [] => .ok []
  | (key, t) :: rest => do
    let name ← key.value
    let a ← d levels t
    let as ← entries d levels rest
    .ok ((name, a) :: as)

/-- Reads a map: of a repeated key the last member counts. -/
def map (d : Decoder α) : Decoder (NameMap α) := fun levels tree =>
  match tree with
  | .object members ending => enter levels fun inner => do
    let as ← entries d inner members
    ending.check fun key => do let _ ← key.value; .ok ()
    .ok (NameMap.ofList as)
  | _ => .error (tree.mismatch .map)

/-! ### Variants -/

/-- Reads the name of a variant. -/
def variantName (variants : List (String × α)) (name : QuotedText) : Except Fault α := do
  let s ← name.value
  match variants.lookup s with
  | some a => .ok a
  | none => .error (.unknownVariant s (variants.map (·.1)))

/-- Checks that an object ends behind its only member. -/
def onlyMember (rest : List (QuotedText × Tree)) (ending : ObjectEnd) : Except Fault Unit :=
  match rest, ending with
  | [], .closed => .ok ()
  | [], .cut => .error .endInObject
  | _, _ => .error .valueWanted

/-- Reads one of several variants: its name, or an object with its name as the
only key and `null` as the value. A key that is no text is refused as it is in any
object, by the fault of the key and not by that of the variant. -/
def variant (variants : List (String × α)) : Decoder α := fun levels tree =>
  match tree with
  | .missing => .error .endInValue
  | .leaf (.text name) => variantName variants name
  | .leaf _ | .list .. => .error .valueWanted
  | .object members ending => enter levels fun inner =>
    match members with
    | (key, value) :: rest => do
      let a ← variantName variants key
      unit inner value
      onlyMember rest ending
      .ok a
    | [] => do
      ending.check fun key => do let _ ← variantName variants key; .ok ()
      .error .valueWanted

end Decoder
end TemplatePasses.Json
