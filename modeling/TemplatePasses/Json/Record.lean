/-
# Reading records

A record has named fields in a fixed order. It is read from an object, whose
members may come in any order and may hold keys that name no field (they are
skipped), or from a list of the fields' values in their order. A field that is
not given keeps the value it has in the blank record, unless it is required.

The fields found are gathered first, each with its effect on the record; the
effects then apply in the order of the fields. So what a record says cannot
depend on the order of an object's members.

Key definitions: `Field`, `RecordForm`, `RecordForm.decode`.
-/
import TemplatePasses.Json.Decoder

namespace TemplatePasses.Json

/-- A field of a record `ρ`: its key and how its value changes the record. -/
structure Field (ρ : Type) where
  key : String
  required : Bool
  decode : Decoder (ρ → ρ)

/-- A field whose value is put into the record by `set`. -/
def Field.optional {ρ α : Type} (key : String) (d : Decoder α) (set : α → ρ → ρ) : Field ρ :=
  ⟨key, false, fun levels tree => set <$> d levels tree⟩

/-- The same for a field that has to be given. -/
def Field.mandatory {ρ α : Type} (key : String) (d : Decoder α) (set : α → ρ → ρ) : Field ρ :=
  ⟨key, true, fun levels tree => set <$> d levels tree⟩

/-- How a record `ρ` is read. -/
structure RecordForm (ρ : Type) where
  /-- The name of the record, for messages. -/
  name : String
  /-- The record with every field at its default. -/
  blank : ρ
  fields : List (Field ρ)

/-- The fields that have been read, by key, each with its effect. -/
abbrev FoundFields (ρ : Type) := List (String × (ρ → ρ))

namespace RecordForm

variable {ρ : Type}

/-- The record with these fields. -/
def assemble (form : RecordForm ρ) (found : FoundFields ρ) : ρ :=
  form.fields.foldl (fun r f =>
    match found.lookup f.key with
    | some effect => effect r
    | none => r) form.blank

/-- Checks that every required field among these has been found. -/
def checkRequired (found : FoundFields ρ) : List (Field ρ) → Except Fault Unit
  | [] => .ok ()
  | f :: rest =>
    if f.required ∧ found.lookup f.key = none then .error (.missingField f.key)
    else checkRequired found rest

/-- The field that a key names; a field that has been found is not given again. -/
def fieldOf? (form : RecordForm ρ) (found : FoundFields ρ) (key : QuotedText) :
    Except Fault (Option (Field ρ)) := do
  let name ← key.value
  match form.fields.find? (·.key = name) with
  | none => .ok none
  | some f => if (found.lookup name).isSome then .error (.duplicateField name) else .ok (some f)

/-- Reads the members of an object in turn, after those already found. -/
def decodeMembers (form : RecordForm ρ) (levels : Nat) (ending : ObjectEnd) :
    FoundFields ρ → List (QuotedText × Tree) → Except Fault (FoundFields ρ)
  | found, [] => do
    ending.check fun key => do let _ ← form.fieldOf? found key; .ok ()
    .ok found
  | found, (key, t) :: rest => do
    match ← form.fieldOf? found key with
    | none => do
      t.skip
      form.decodeMembers levels ending found rest
    | some f => do
      let effect ← f.decode levels t
      form.decodeMembers levels ending ((f.key, effect) :: found) rest

/-- Checks the end of a list that has given every field: nothing may follow. -/
def endOfFields : List Tree → ListEnd → Except Fault Unit
  | _ :: _, _ => .error .trailingCharacters
  | [], .closed => .ok ()
  | [], .commaClosed => .error .trailingComma
  | [], .misplaced => .error .trailingCharacters
  | [], .cut => .error .endInList

/-- Checks that none of the fields that a list leaves out is required. The
first of them has this place among the fields. -/
def checkLeftOut (form : RecordForm ρ) : Nat → List (Field ρ) → Except Fault Unit
  | _, [] => .ok ()
  | place, f :: rest =>
    if f.required then .error (.tooShort place form.name form.fields.length)
    else form.checkLeftOut (place + 1) rest

/-- Reads the values of a list, which stand for these fields in turn. The first
of them has this place among the fields. -/
def decodeItems (form : RecordForm ρ) (levels : Nat) (ending : ListEnd) :
    Nat → List (Field ρ) → List Tree → Except Fault (FoundFields ρ)
  | _, [], trees => do
    endOfFields trees ending
    .ok []
  | place, f :: fields, [] => do
    ending.check
    form.checkLeftOut place (f :: fields)
    .ok []
  | place, f :: fields, t :: trees => do
    let effect ← f.decode levels t
    let found ← form.decodeItems levels ending (place + 1) fields trees
    .ok ((f.key, effect) :: found)

def decode (form : RecordForm ρ) : Decoder ρ := fun levels tree =>
  match tree with
  | .object members ending => Decoder.enter levels fun inner => do
    let found ← form.decodeMembers inner ending [] members
    checkRequired found form.fields
    .ok (form.assemble found)
  | .list trees ending => Decoder.enter levels fun inner => do
    let found ← form.decodeItems inner ending 0 form.fields trees
    .ok (form.assemble found)
  | _ => .error (tree.mismatch (.record form.name))

end RecordForm
end TemplatePasses.Json
