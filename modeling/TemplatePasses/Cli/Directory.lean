/-
# Files for a run

What the program finds under a path: the bytes of a file, a directory, or
nothing. A `Directory` holds such files in memory, so that a run can be told
entirely from its arguments and files.

Key definitions: `Content`, `Content.text`, `Place`, `Directory.put`,
`Directory.find`.
-/

namespace TemplatePasses.Cli

/-- Why a file cannot be read as text. -/
inductive ReadError where
  | notFound
  | notADirectory
  | isDirectory
  | nameTooLong
  | notText
  /-- Another cause, in the words of the system. -/
  | other (description : String)
deriving DecidableEq, Repr

def ReadError.message : ReadError → String
  | .notFound => "No such file or directory (os error 2)"
  | .notADirectory => "Not a directory (os error 20)"
  | .isDirectory => "Is a directory (os error 21)"
  | .nameTooLong => "File name too long (os error 36)"
  | .notText => "stream did not contain valid UTF-8"
  | .other description => description

/-- What stands under a path. -/
inductive Content where
  | file (bytes : ByteArray)
  | directory
  | unreadable (cause : ReadError)

def Content.text : Content → Except ReadError String
  | .file bytes =>
    match String.fromUTF8? bytes with
    | some text => .ok text
    | none => .error .notText
  | .directory => .error .isDirectory
  | .unreadable cause => .error cause

/-- The largest number of bytes in the name of a file. -/
def nameLimit : Nat := 255

/-- The largest number of bytes in a path. -/
def pathLimit : Nat := 4095

/-- Where the way to a place begins. -/
inductive Origin where
  /-- At the root of all files. -/
  | root
  /-- So many levels above the directory. -/
  | above (levels : Nat)
deriving DecidableEq, Repr

/-- A place among the files: its origin and the names that lead from there to
it, the last one first. -/
structure Place where
  origin : Origin
  names : List String
deriving DecidableEq, Repr

namespace Place

/-- The place one level up. The root is its own. -/
def up : Place → Place
  | ⟨origin, _ :: names⟩ => ⟨origin, names⟩
  | ⟨.root, []⟩ => ⟨.root, []⟩
  | ⟨.above levels, []⟩ => ⟨.above (levels + 1), []⟩

/-- The place that one part of a path leads to. An empty part and a single dot
stay, and two dots go up. -/
def step (p : Place) (part : String) : Place :=
  if part = "" ∨ part = "." then p
  else if part = ".." then p.up
  else { p with names := part :: p.names }

/-- The place where a path starts: with a slash at the root. -/
def start (path : String) : Place :=
  if path.startsWith "/" then ⟨.root, []⟩ else ⟨.above 0, []⟩

end Place

/-- The parts of a path between its slashes. -/
def pathParts (path : String) : List String :=
  path.splitToList (· = '/')

/-- Files and directories by their places. Of several under one place the first
one counts. -/
structure Directory where
  entries : List (Place × Content)

namespace Directory

/-- Only the directory itself. -/
def empty : Directory := ⟨[]⟩

/-- Puts a content at the end of a path that has led to a place, with a directory
at every place on the way. -/
def putFrom (d : Directory) (place : Place) (content : Content) : List String → Directory
  | [] => ⟨(place, content) :: d.entries⟩
  | part :: rest =>
    (Directory.mk ((place, .directory) :: d.entries)).putFrom (place.step part) content rest

/-- Puts a content under a path. It takes the place of what was there. -/
def put (d : Directory) (path : String) (content : Content) : Directory :=
  d.putFrom (.start path) content (pathParts path)

/-- The directory in which these contents were put under their paths in turn. -/
def ofPaths (files : List (String × Content)) : Directory :=
  files.foldl (fun d f => d.put f.1 f.2) empty

/-- What stands at a place. The directory, those above it and the root are there
in any case. -/
def contentAt (d : Directory) (place : Place) : Content :=
  if place.names = [] then .directory
  else (d.entries.lookup place).getD (.unreadable .notFound)

/-- What stands under the rest of a path that has led to a place. Only a directory
has parts below it, and dots count as such. -/
def walk (d : Directory) : Place → Content → List String → Content
  | _, here, [] => here
  | _, .unreadable cause, _ => .unreadable cause
  | _, .file _, _ :: _ => .unreadable .notADirectory
  | place, .directory, part :: rest =>
    if nameLimit < part.utf8ByteSize then .unreadable .nameTooLong
    else d.walk (place.step part) (d.contentAt (place.step part)) rest

/-- What stands under a path. -/
def find (d : Directory) (path : String) : Content :=
  if pathLimit < path.utf8ByteSize then .unreadable .nameTooLong
  else d.walk (.start path) .directory (pathParts path)

end Directory
end TemplatePasses.Cli
