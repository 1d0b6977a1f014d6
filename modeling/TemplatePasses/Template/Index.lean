/-
# The index of templates

Tells for each template name where the template stands and who may call it. Of
several templates with one name the last one entered counts.

Key definitions: `TemplateEntry`, `TemplateIndex`, `TemplateIndex.ofFiles`.
-/
import TemplatePasses.Template.Basic
import TemplatePasses.NameMap

namespace TemplatePasses

/-- What the index knows of a template. -/
structure TemplateEntry where
  name : String
  path : String
  id : NodeId
  visibility : Visibility
deriving DecidableEq, Repr

/-- The templates by name. -/
structure TemplateIndex where
  entries : NameMap TemplateEntry := .empty
deriving DecidableEq

/-- The entry of a template in the file at a path. -/
def Template.entry (t : Template) (path : String) : TemplateEntry :=
  { name := t.name, path, id := t.id, visibility := t.visibility }

/-- The entries of the templates of a file. -/
def SourceFile.entries (f : SourceFile) : List TemplateEntry :=
  f.templates.map (·.entry f.path)

namespace TemplateIndex

/-- The index with an entry, which replaces one of the same name. -/
def register (index : TemplateIndex) (entry : TemplateEntry) : TemplateIndex :=
  ⟨index.entries.insert entry.name entry⟩

/-- The index with all the entries, one after the other. -/
def registerAll (index : TemplateIndex) (entries : List TemplateEntry) : TemplateIndex :=
  entries.foldl register index

/-- The index of the templates of all files, in their order. -/
def ofFiles (files : List SourceFile) : TemplateIndex :=
  registerAll {} (files.flatMap SourceFile.entries)

def find? (index : TemplateIndex) (name : String) : Option TemplateEntry :=
  index.entries.find? name

def contains (index : TemplateIndex) (name : String) : Bool :=
  index.entries.contains name

def size (index : TemplateIndex) : Nat :=
  index.entries.size

def isEmpty (index : TemplateIndex) : Bool :=
  index.entries.isEmpty

end TemplateIndex
end TemplatePasses
