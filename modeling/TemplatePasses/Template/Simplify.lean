/-
# Simplifying bodies

Two changes that end a run. Desugaring turns tags back into raw text;
combining makes one raw text of each run of neighbouring ones, under the id of
the first.

Key definitions: `Node.desugar`, `Node.combine`, `desugarFiles`, `combineFiles`.
-/
import TemplatePasses.Template.Basic

namespace TemplatePasses

namespace Node

def tagText (name : String) (closing : Bool) : String :=
  (if closing then "</" else "<") ++ name ++ ">"

/-- A tag as raw text; other nodes stay. -/
def desugar : Node → Node
  | .htmlTag id name closing => .rawText id (tagText name closing)
  | node => node

/-- The nodes merged so far, the last one first, with a node put behind them:
raw text goes into a raw text that is last, under that one's id. -/
def takeIn : List Node → Node → List Node
  | .rawText id previous :: before, .rawText _ text => .rawText id (previous ++ text) :: before
  | merged, node => node :: merged

/-- The body with neighbouring raw texts made one. -/
def combine (body : List Node) : List Node :=
  (body.foldl takeIn []).reverse

end Node

def Template.mapBody (f : List Node → List Node) (t : Template) : Template :=
  { t with body := f t.body }

def SourceFile.mapBodies (f : List Node → List Node) (file : SourceFile) : SourceFile :=
  { file with templates := file.templates.map (·.mapBody f) }

/-- All files with their tags as raw text. -/
def desugarFiles (files : List SourceFile) : List SourceFile :=
  files.map (·.mapBodies (·.map Node.desugar))

/-- All files with neighbouring raw texts made one. -/
def combineFiles (files : List SourceFile) : List SourceFile :=
  files.map (·.mapBodies Node.combine)

end TemplatePasses
