/-
# The text of a plan is read back

The text of a plan is read without knowing how wide its columns are: line by line, and
each line by its words (`Line.read?`). A header has a title and a number, any other line
the number of a pass, its name and perhaps its phase. A header and the lines behind it,
up to the next one, make a section (`Section.ofText?`).

A column may be filled up to its end or beyond. It can still be told from the next one,
for a blank stands between them in any case, and there is none inside a number or a name
(`words_setLeft`, `FileSetRole.isWord_name`). So the text of a plan is read as its two
sections, with the numbers and names of all passes in order (`Section.ofText?_text`).

Key definitions: `Text.words`, `Text.lines`, `Line.read?`, `Tells`, `Section.ofText?`.
Key theorems: `words_append_blank`, `lines_line`, `Tells.mapM_read?`, `tells_numbered`,
`Section.ofText?_of_tells`, `Section.ofText?_text`.
-/
import TemplatePasses.Plan.Report
import TemplatePasses.Proofs.Spelling

namespace TemplatePasses

open Json (decimalDigits)

/-! ### Words and lines -/

namespace Text

/-- The words of a line: what stands between its blanks. -/
def words (line : List Char) : List (List Char) :=
  (line.splitOn ' ').filter (· ≠ [])

/-- The lines of a text, each with its end. What follows the last end is no line. -/
def lines (text : List Char) : List (List Char) :=
  (text.splitOn '\n').dropLast

/-- Characters that make one word of one line. -/
def IsWord (cs : List Char) : Prop :=
  cs ≠ [] ∧ ' ' ∉ cs ∧ '\n' ∉ cs

instance (cs : List Char) : Decidable (IsWord cs) :=
  inferInstanceAs (Decidable (cs ≠ [] ∧ ' ' ∉ cs ∧ '\n' ∉ cs))

theorem isWord_ofList {cs : List Char} (h : IsWord cs) : IsWord (String.ofList cs).toList := by
  rwa [String.toList_ofList]

/-- **A blank ends a word**, and what is behind it begins afresh. -/
theorem words_append_blank (cs ds : List Char) :
    words (cs ++ ' ' :: ds) = words cs ++ words ds := by
  rw [words, List.splitOn_append_cons_self, List.filter_append]
  rfl

theorem words_cons_blank (cs : List Char) : words (' ' :: cs) = words cs :=
  words_append_blank [] cs

theorem words_blanks_append (n : Nat) (cs : List Char) :
    words (List.replicate n ' ' ++ cs) = words cs := by
  induction n with
  | zero => rfl
  | succ n ih => rw [List.replicate_succ, List.cons_append, words_cons_blank, ih]

theorem words_append_blanks (cs : List Char) (n : Nat) :
    words (cs ++ List.replicate n ' ') = words cs := by
  cases n with
  | zero => rw [List.replicate_zero, List.append_nil]
  | succ n =>
    have hblanks : words (List.replicate n ' ') = [] := by
      rw [← List.append_nil (List.replicate n ' '), words_blanks_append]
      rfl
    rw [List.replicate_succ, words_append_blank, hblanks, List.append_nil]

theorem words_of_isWord {cs : List Char} (h : IsWord cs) : words cs = [cs] := by
  rw [words, List.splitOn_eq_singleton h.2.1]
  exact List.filter_cons_of_pos (decide_eq_true h.1)

/-- **A line is taken up to its end**, and what is behind it begins afresh. -/
theorem lines_line {line : List Char} (h : '\n' ∉ line) (rest : List Char) :
    lines (line ++ '\n' :: rest) = line :: lines rest := by
  rw [lines, List.splitOn_append_cons_self_of_not_mem h,
    List.dropLast_cons_of_ne_nil (List.splitOn_ne_nil _ _)]
  rfl

/-! ### Columns -/

theorem words_setRight (width : Nat) (s : String) :
    words (Log.setRight width s).toList = words s.toList := by
  rw [Log.setRight, String.toList_ofList, List.leftpad, words_blanks_append]

/-- Setting a text in columns adds no word and changes none, also if it is too long. -/
theorem words_setLeft (width : Nat) (s : String) :
    words (Plan.setLeft width s).toList = words s.toList := by
  rw [Plan.setLeft, String.toList_ofList, List.rightpad, words_append_blanks]

theorem lineEnd_notMem_setRight {width : Nat} {s : String} (h : '\n' ∉ s.toList) :
    '\n' ∉ (Log.setRight width s).toList := by
  simp [Log.setRight, h]

theorem lineEnd_notMem_setLeft {width : Nat} {s : String} (h : '\n' ∉ s.toList) :
    '\n' ∉ (Plan.setLeft width s).toList := by
  simp [Plan.setLeft, h]

/-! ### Numbers -/

/-- The number that these digits write. -/
def number? (cs : List Char) : Option Nat :=
  if cs ≠ [] ∧ cs.all Char.isDigit then some (Nat.ofDigitChars 10 cs 0) else none

/-- The number that a word holds in parentheses before a colon. -/
def heldNumber? : List Char → Option Nat
  | '(' :: cs => if cs.dropWhile Char.isDigit = [')', ':'] then number? (cs.takeWhile Char.isDigit)
    else none
  | _ => none

theorem isDigit_of_mem_decimalDigits {n : Nat} {c : Char} (h : c ∈ decimalDigits n) :
    c.isDigit = true :=
  Nat.isDigit_of_mem_toDigits (by decide) (by decide) h

theorem number?_decimalDigits (n : Nat) : number? (decimalDigits n) = some n := by
  have hdigits : (decimalDigits n).all Char.isDigit = true :=
    List.all_eq_true.2 fun _ => isDigit_of_mem_decimalDigits
  rw [number?, if_pos ⟨Nat.toDigits_ne_nil, hdigits⟩]
  exact congrArg some Nat.ofDigitChars_ten_toDigits

theorem heldNumber?_decimalDigits (n : Nat) :
    heldNumber? ('(' :: (decimalDigits n ++ [')', ':'])) = some n := by
  have hdigits : ∀ c ∈ decimalDigits n, c.isDigit = true := fun _ => isDigit_of_mem_decimalDigits
  have hdrop : (decimalDigits n ++ [')', ':']).dropWhile Char.isDigit = [')', ':'] :=
    List.dropWhile_append_of_pos hdigits
  have htake : (decimalDigits n ++ [')', ':']).takeWhile Char.isDigit = decimalDigits n :=
    (List.takeWhile_append_of_pos hdigits).trans (List.append_nil _)
  rw [heldNumber?, if_pos hdrop, htake, number?_decimalDigits]

theorem isWord_countText (n : Nat) : IsWord (Log.countText n).toList := by
  have hnot : ∀ c : Char, c.isDigit = false → c ∉ decimalDigits n := fun c hc hmem =>
    Json.Scanner.ne_of_isDigit (isDigit_of_mem_decimalDigits hmem) hc rfl
  rw [Log.countText, String.toList_ofList]
  exact ⟨Nat.toDigits_ne_nil, hnot ' ' rfl, hnot '\n' rfl⟩

end Text

/-! ### Names

Each name is taken as the text of its letters, for a text cannot be decided upon as
quickly as a list. -/

/-- **The name of a pass over one file is one word.** -/
theorem FileRole.isWord_name (r : FileRole) : Text.IsWord r.name.toList := by
  cases r <;> exact Text.isWord_ofList (by decide)

/-- **The name of a pass over the whole set is one word.** -/
theorem FileSetRole.isWord_name (r : FileSetRole) : Text.IsWord r.name.toList := by
  cases r <;> exact Text.isWord_ofList (by decide)

theorem PassPhase.isWord_name (phase : PassPhase) : Text.IsWord phase.name.toList := by
  cases phase <;> exact Text.isWord_ofList (by decide)

/-! ### Lines of a printed plan -/

namespace Printed

open Text

/-- What a line of a printed plan says of a pass. -/
structure Entry where
  number : Nat
  name : String
  /-- The phase, if the line tells it. -/
  phase : Option String
deriving DecidableEq, Repr

/-- A line of a printed plan. -/
inductive Line where
  /-- The title of a section, and how many passes it has. -/
  | header (title : String) (count : Nat)
  | pass (entry : Entry)
deriving DecidableEq, Repr

/-- What these words say. A line that begins with a number is about a pass. -/
def Line.ofWords? : List (List Char) → Option Line
  | [number, name] => do some (.pass ⟨← number? number, String.ofList name, none⟩)
  | [first, second, third] =>
    match number? first with
    | some number => some (.pass ⟨number, String.ofList second, some (String.ofList third)⟩)
    | none => do
      some (.header (String.ofList first ++ " " ++ String.ofList second) (← heldNumber? third))
  | _ => none

/-- What a line says. -/
def Line.read? (line : List Char) : Option Line :=
  Line.ofWords? (words line)

/-- A text consists of lines that say this, one after the other. -/
inductive Tells : List Line → List Char → Prop
  | nil : Tells [] []
  | cons {l : Line} {ls : List Line} {line rest : List Char} : Line.read? line = some l →
    '\n' ∉ line → Tells ls rest → Tells (l :: ls) (line ++ '\n' :: rest)

namespace Tells

theorem single {l : Line} {line : List Char} (h : Line.read? line = some l) (hline : '\n' ∉ line) :
    Tells [l] (line ++ ['\n']) :=
  .cons h hline .nil

theorem append {ls ls' : List Line} {cs cs' : List Char} (h : Tells ls cs) (h' : Tells ls' cs') :
    Tells (ls ++ ls') (cs ++ cs') := by
  induction h with
  | nil => exact h'
  | cons hread hline _ ih =>
    rw [List.append_assoc, List.cons_append, List.cons_append]
    exact .cons hread hline ih

theorem mapM_read? {ls : List Line} {cs : List Char} (h : Tells ls cs) :
    (lines cs).mapM Line.read? = some ls := by
  induction h with
  | nil => rfl
  | cons hread hline _ ih => rw [lines_line hline, List.mapM_cons, hread, ih]; rfl

end Tells

/-! ### What the lines of a plan say -/

/-- A header says how many passes there are. -/
theorem tells_header (kind : String) {title opening : String} (htitle : title = kind ++ " passes")
    (hopening : opening = title ++ " (") (hword : IsWord kind.toList)
    (hkind : number? kind.toList = none) (count : Nat) :
    Tells [.header title count] (opening ++ Log.countText count ++ "):\n").toList := by
  have hpasses : IsWord "passes".toList := isWord_ofList (by decide)
  have hcount := isWord_countText count
  have hheld : IsWord ('(' :: ((Log.countText count).toList ++ [')', ':'])) :=
    ⟨List.cons_ne_nil _ _, by simp [hcount.2.1], by simp [hcount.2.2]⟩
  have htext : (opening ++ Log.countText count ++ "):\n").toList =
      (kind.toList ++ ' ' :: ("passes".toList ++ ' ' ::
        ('(' :: ((Log.countText count).toList ++ [')', ':'])))) ++ ['\n'] := by
    simp [hopening, htitle]
  rw [htext]
  refine .single ?_ ?_
  · rw [Line.read?, words_append_blank, words_append_blank, words_of_isWord hword,
      words_of_isWord hpasses, words_of_isWord hheld]
    simp [Line.ofWords?, hkind, Log.countText, heldNumber?_decimalDigits, String.append_assoc,
      htitle]
  · simp [hword.2.2, hcount.2.2]

theorem read?_numbered (width number : Nat) (behind : List Char) :
    Line.read? ((Log.setRight width (Log.countText number)).toList ++ ' ' :: ' ' :: behind) =
      Line.ofWords? (decimalDigits number :: words behind) := by
  rw [Line.read?, words_append_blank, words_cons_blank, words_setRight,
    words_of_isWord (isWord_countText number), Log.countText, String.toList_ofList,
    List.singleton_append]

theorem lineEnd_notMem_numbered (width number : Nat) {behind : List Char} (h : '\n' ∉ behind) :
    '\n' ∉ (Log.setRight width (Log.countText number)).toList ++ ' ' :: ' ' :: behind := by
  simp [lineEnd_notMem_setRight (isWord_countText number).2.2, h]

/-- What the line of a pass over one file says. -/
def fileEntry (number : Nat) (r : FileRole) : Entry :=
  ⟨number, r.name, none⟩

/-- What the line of a pass over the whole set says. -/
def fileSetEntry (number : Nat) (r : FileSetRole) : Entry :=
  ⟨number, r.name, some r.phase.name⟩

theorem tells_fileLine (number : Nat) (r : FileRole) :
    Tells [.pass (fileEntry number r)] (Plan.fileLine number r).toList := by
  have hname : IsWord r.name.toList := r.isWord_name
  have htext : (Plan.fileLine number r).toList =
      ((Log.setRight 3 (Log.countText number)).toList ++ ' ' :: ' ' :: r.name.toList) ++
        ['\n'] := by
    simp [Plan.fileLine]
  rw [htext]
  refine .single ?_ (lineEnd_notMem_numbered 3 number hname.2.2)
  rw [read?_numbered, words_of_isWord hname]
  simp [Line.ofWords?, number?_decimalDigits, fileEntry]

/-- The name may fill its column: the phase stands behind a blank. -/
theorem tells_fileSetLine (number : Nat) (r : FileSetRole) :
    Tells [.pass (fileSetEntry number r)] (Plan.fileSetLine number r).toList := by
  have hname : IsWord r.name.toList := r.isWord_name
  have hphase := r.phase.isWord_name
  have htext : (Plan.fileSetLine number r).toList =
      ((Log.setRight 3 (Log.countText number)).toList ++ ' ' :: ' ' ::
        ((Plan.setLeft 32 r.name).toList ++ ' ' :: r.phase.name.toList)) ++ ['\n'] := by
    simp [Plan.fileSetLine]
  have hend : '\n' ∉ (Plan.setLeft 32 r.name).toList ++ ' ' :: r.phase.name.toList := by
    simp [lineEnd_notMem_setLeft hname.2.2, hphase.2.2]
  rw [htext]
  refine .single ?_ (lineEnd_notMem_numbered 3 number hend)
  rw [read?_numbered, words_append_blank, words_setLeft, words_of_isWord hname,
    words_of_isWord hphase]
  simp [Line.ofWords?, number?_decimalDigits, fileSetEntry]

/-- What the lines of some roles say, the first of which has this number. -/
def entriesFrom {α : Type} (entry : Nat → α → Entry) (number : Nat) (roles : List α) : List Entry :=
  roles.mapIdx fun i role => entry (i + number) role

theorem entriesFrom_cons {α : Type} (entry : Nat → α → Entry) (number : Nat) (role : α)
    (rest : List α) : entriesFrom entry number (role :: rest) =
      entry number role :: entriesFrom entry (number + 1) rest := by
  simp only [entriesFrom, List.mapIdx_cons, Nat.zero_add, Nat.add_assoc, Nat.add_comm 1]

theorem getElem?_entriesFrom {α : Type} (entry : Nat → α → Entry) (number : Nat) (roles : List α)
    (i : Nat) : (entriesFrom entry number roles)[i]? = roles[i]?.map (entry (i + number)) :=
  List.getElem?_mapIdx

/-- **Numbered lines are told one after the other**, each with its number. -/
theorem tells_numbered {α : Type} {line : Nat → α → String} {entry : Nat → α → Entry}
    (h : ∀ number role, Tells [.pass (entry number role)] (line number role).toList) :
    ∀ (roles : List α) (number : Nat), Tells ((entriesFrom entry number roles).map .pass)
      (Plan.numbered line number roles).toList
  | [], _ => .nil
  | role :: rest, number => by
    rw [entriesFrom_cons, List.map_cons, Plan.numbered, String.toList_append]
    exact (h number role).append (tells_numbered h rest (number + 1))

/-! ### Sections -/

/-- A section of a printed plan: its header, and the lines up to the next one. -/
structure Section where
  title : String
  count : Nat
  entries : List Entry
deriving DecidableEq, Repr

namespace Section

def names (s : Section) : List String :=
  s.entries.map (·.name)

def toLines (s : Section) : List Line :=
  .header s.title s.count :: s.entries.map .pass

/-- The entries before the first header among these lines, and the sections from there
on. -/
def gather : List Line → List Entry × List Section
  | [] => ([], [])
  | .header title count :: rest => ([], ⟨title, count, (gather rest).1⟩ :: (gather rest).2)
  | .pass entry :: rest => (entry :: (gather rest).1, (gather rest).2)

/-- The sections of some lines, the first of which is a header. -/
def ofLines? (ls : List Line) : Option (List Section) :=
  match gather ls with
  | ([], sections) => some sections
  | (_ :: _, _) => none

/-- The sections of a text. -/
def ofText? (text : String) : Option (List Section) := do
  ofLines? (← (lines text.toList).mapM Line.read?)

theorem gather_passes (entries : List Entry) (rest : List Line) :
    gather (entries.map .pass ++ rest) = (entries ++ (gather rest).1, (gather rest).2) := by
  induction entries with
  | nil => rfl
  | cons entry entries ih => rw [List.map_cons, List.cons_append, gather, ih]; rfl

/-- Sections are told apart by their headers. -/
theorem gather_toLines : ∀ sections : List Section,
    gather (sections.flatMap toLines) = ([], sections)
  | [] => rfl
  | s :: rest => by
    rw [List.flatMap_cons, toLines, List.cons_append, gather, gather_passes, gather_toLines rest,
      List.append_nil]

/-- **A text that tells the lines of sections is read as these sections.** -/
theorem ofText?_of_tells {sections : List Section} {text : String}
    (h : Tells (sections.flatMap toLines) text.toList) : ofText? text = some sections := by
  rw [ofText?, h.mapM_read?, Option.bind_eq_bind, Option.bind_some, ofLines?, gather_toLines]

/-- The section of the passes over one file. -/
def ofFiles (p : Plan) : Section :=
  ⟨"single-file passes", p.singleFile.length, entriesFrom fileEntry 1 p.singleFile⟩

/-- The section of the passes over the whole set. -/
def ofFileSet (p : Plan) : Section :=
  ⟨"fileset passes", p.fileSet.length, entriesFrom fileSetEntry 1 p.fileSet⟩

/-- The text of a plan tells the lines of its two sections. -/
theorem tells_text (p : Plan) :
    Tells ([ofFiles p, ofFileSet p].flatMap toLines) p.text.toList := by
  have hfiles : Tells (ofFiles p).toLines
      (("single-file passes (" ++ Log.countText p.singleFile.length ++ "):\n").toList ++
        (Plan.numbered Plan.fileLine 1 p.singleFile).toList) :=
    (tells_header "single-file" (by simp [ofFiles]) (by simp [ofFiles])
      (isWord_ofList (by decide)) (by decide) _).append
      (tells_numbered tells_fileLine p.singleFile 1)
  have hsets : Tells (ofFileSet p).toLines
      (("fileset passes (" ++ Log.countText p.fileSet.length ++ "):\n").toList ++
        (Plan.numbered Plan.fileSetLine 1 p.fileSet).toList) :=
    (tells_header "fileset" (by simp [ofFileSet]) (by simp [ofFileSet])
      (isWord_ofList (by decide)) (by decide) _).append
      (tells_numbered tells_fileSetLine p.fileSet 1)
  unfold Plan.text
  simpa only [String.toList_append, List.append_assoc, List.flatMap_cons, List.flatMap_nil,
    List.append_nil] using hfiles.append hsets

/-- **The text of a plan is read as its two sections.** -/
theorem ofText?_text (p : Plan) : ofText? p.text = some [ofFiles p, ofFileSet p] :=
  ofText?_of_tells (tells_text p)

/-- The columns may be of any width. -/
example : ofText?
    "single-file passes (1):\n1 Xid\nfileset passes (1):\n 1  StrictDeps cross_template\n" =
    some [⟨"single-file passes", 1, [⟨1, "Xid", none⟩]⟩,
      ⟨"fileset passes", 1, [⟨1, "StrictDeps", some "cross_template"⟩]⟩] := by
  cbv

theorem names_entriesFrom {α : Type} (entry : Nat → α → Entry) {name : α → String}
    (h : ∀ number role, (entry number role).name = name role) (number : Nat) (roles : List α) :
    (entriesFrom entry number roles).map (·.name) = roles.map name := by
  induction roles generalizing number with
  | nil => rfl
  | cons role rest ih => rw [entriesFrom_cons, List.map_cons, List.map_cons, h, ih]

theorem names_ofFiles (p : Plan) : (ofFiles p).names = p.singleFileNames :=
  names_entriesFrom fileEntry (fun _ _ => rfl) 1 p.singleFile

theorem names_ofFileSet (p : Plan) : (ofFileSet p).names = p.fileSetNames :=
  names_entriesFrom fileSetEntry (fun _ _ => rfl) 1 p.fileSet

end Section
end Printed
end TemplatePasses
