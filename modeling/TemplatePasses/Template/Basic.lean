/-
# Templates

The trees that passes work on: files hold templates, and the body of a template
is a list of nodes. Every node and template has an id, and an `IdSource` gives
out fresh ids for those that passes add; past the largest id it starts at zero.

Key definitions: `Node`, `Template`, `SourceFile`, `IdSource`.
-/

namespace TemplatePasses

/-- The id of a node or a template. -/
abbrev NodeId := UInt32

/-- Whether other files may call a template. -/
inductive Visibility where
  | everywhere
  | sameFile
deriving DecidableEq, Repr

def Visibility.name : Visibility → String
  | .everywhere => "public"
  | .sameFile => "private"

/-- A node in the body of a template. -/
inductive Node where
  /-- Text that is put out as it is. -/
  | rawText (id : NodeId) (text : String)
  /-- An opening or closing tag. -/
  | htmlTag (id : NodeId) (name : String) (closing : Bool)
  /-- The value of an expression. -/
  | print (id : NodeId) (expr : String)
  /-- The output of another template. -/
  | call (id : NodeId) (callee : String)
deriving DecidableEq, Repr

def Node.id : Node → NodeId
  | .rawText id _ | .htmlTag id _ _ | .print id _ | .call id _ => id

/-- A template. -/
structure Template where
  id : NodeId
  /-- The name by which it is called, with its namespace. -/
  name : String
  visibility : Visibility := .everywhere
  body : List Node := []
deriving DecidableEq, Repr

/-- A file of templates. -/
structure SourceFile where
  path : String
  templates : List Template := []
deriving DecidableEq, Repr

/-- Gives out ids that are not in use yet. -/
structure IdSource where
  next : NodeId := 0
deriving DecidableEq, Repr

namespace IdSource

/-- The next id, and the source behind it. -/
def draw (ids : IdSource) : NodeId × IdSource :=
  (ids.next, ⟨ids.next + 1⟩)

/-- The next `count` ids. -/
def take (ids : IdSource) : Nat → List NodeId
  | 0 => []
  | count + 1 =>
    let (id, behind) := ids.draw
    id :: behind.take count

end IdSource
end TemplatePasses
