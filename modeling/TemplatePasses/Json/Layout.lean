/-
# Writing a document

A tree is written compactly, without any blanks, or laid out on lines of their
own, two blanks deeper inside each list and object. Empty lists and objects
stay on one line. Only complete trees are meant to be written: the writers put
a closing mark whatever the tree records.

Key definitions: `Tree.compact`, `Tree.indented`, `Tree.text`.
-/
import TemplatePasses.Json.Tree
import TemplatePasses.Json.Literal

namespace TemplatePasses.Json

namespace Tree

/-! ### Trees to be written -/

def ofString (s : String) : Tree :=
  .leaf (.text (.ofString s))

def ofBool (b : Bool) : Tree :=
  .leaf (.word (if b then .yes else .no) .whole)

def null : Tree :=
  .leaf (.word .null .whole)

def ofNumber (n : Number) : Tree :=
  .leaf (.numeral n.numeral)

/-- A number of things. -/
def ofNat (n : Nat) : Tree :=
  .leaf (.numeral (.ofInt n))

def ofList (items : List Tree) : Tree :=
  .list items .closed

/-- A complete object, its members in this order. -/
def ofMembers (members : List (String × Tree)) : Tree :=
  .object (members.map fun m => (.ofString m.1, m.2)) .closed

/-! ### Without blanks -/

mutual

/-- The tree without any blanks. -/
def compact : Tree → List Char
  | .missing => []
  | .leaf token => token.chars
  | .list items _ => '[' :: compactItems items ++ [']']
  | .object members _ => '\x7b' :: compactMembers members ++ ['\x7d']

/-- The items with a comma between them. -/
def compactItems : List Tree → List Char
  | [] => []
  | [t] => t.compact
  | t :: rest => t.compact ++ ',' :: compactItems rest

/-- The members with a comma between them. -/
def compactMembers : List (QuotedText × Tree) → List Char
  | [] => []
  | [(key, t)] => key.chars ++ ':' :: t.compact
  | (key, t) :: rest => key.chars ++ ':' :: t.compact ++ ',' :: compactMembers rest

end

/-- The tree's text without any blanks. -/
def text (t : Tree) : String :=
  String.ofList t.compact

/-! ### On lines of their own -/

/-- A new line at this depth. -/
def newLine (depth : Nat) : List Char :=
  '\n' :: List.replicate (2 * depth) ' '

mutual

/-- The tree with what it holds on lines of their own, itself at this depth. -/
def indented (depth : Nat) : Tree → List Char
  | .missing => []
  | .leaf token => token.chars
  | .list [] _ => ['[', ']']
  | .list items _ => '[' :: indentedItems (depth + 1) items ++ newLine depth ++ [']']
  | .object [] _ => ['\x7b', '\x7d']
  | .object members _ =>
    '\x7b' :: indentedMembers (depth + 1) members ++ newLine depth ++ ['\x7d']

/-- The items, each on its line. -/
def indentedItems (depth : Nat) : List Tree → List Char
  | [] => []
  | [t] => newLine depth ++ t.indented depth
  | t :: rest => newLine depth ++ t.indented depth ++ ',' :: indentedItems depth rest

/-- The members, each on its line. -/
def indentedMembers (depth : Nat) : List (QuotedText × Tree) → List Char
  | [] => []
  | [(key, t)] => newLine depth ++ key.chars ++ ':' :: ' ' :: t.indented depth
  | (key, t) :: rest =>
    newLine depth ++ key.chars ++ ':' :: ' ' :: t.indented depth ++
      ',' :: indentedMembers depth rest

end

/-- The tree's text on lines of their own. -/
def lines (t : Tree) : String :=
  String.ofList (t.indented 0)

end Tree
end TemplatePasses.Json
