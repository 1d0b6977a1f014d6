/-
# What simplifying keeps

The two simplifications, said without the loop that makes them: a body is cut
into runs as long as they can be, each run of raw texts becomes one raw text under
the id of its first node (`CombinesTo`), and each tag becomes a raw text under its
own id (`DesugarsTo`). From this alone follows what any number of simplifications
keeps: what a template puts out, the order of the ids in it, and everything of a
file but the bodies.

Key definitions: `Piece`, `rendering`, `CombinesTo`, `DesugarsTo`, `SameButBodies`,
`KeepsMeaning`.
Key theorems: `combine_combinesTo`, `CombinesTo.rendering_eq`,
`CombinesTo.nodeIds_sublist`, `simplifications_keep_meaning`.
-/
import TemplatePasses.Proofs.Simplification
import Mathlib.Data.List.Forall2

namespace TemplatePasses

/-! ### What a body puts out -/

/-- A piece of what a template puts out. -/
inductive Piece where
  | char (c : Char)
  /-- The value of the expression of this node. -/
  | print (id : NodeId) (expr : String)
  /-- The output of the template that this node calls. -/
  | call (id : NodeId) (callee : String)
deriving DecidableEq

/-- The characters of a text as pieces. -/
def Piece.ofText (text : String) : List Piece :=
  text.toList.map .char

/-- What a node puts out. -/
def Node.pieces : Node → List Piece
  | .rawText _ text => Piece.ofText text
  | .htmlTag _ name true => Piece.ofText ("</" ++ name ++ ">")
  | .htmlTag _ name false => Piece.ofText ("<" ++ name ++ ">")
  | .print id expr => [.print id expr]
  | .call id callee => [.call id callee]

/-- What a body puts out. -/
def rendering (body : List Node) : List Piece :=
  body.flatMap Node.pieces

/-- The ids of the nodes of a body, in order. -/
def nodeIds (body : List Node) : List NodeId :=
  body.map Node.id

theorem Piece.ofText_append (text text' : String) :
    ofText (text ++ text') = ofText text ++ ofText text' := by
  unfold ofText
  rw [String.toList_append, List.map_append]

/-! ### Related lists -/

section
variable {α β γ : Type} {R : α → β → Prop}

/-- Lists of items with equal images, item by item, have equal images. -/
theorem map_eq_of_forall₂ {f : α → γ} {g : β → γ} (h : ∀ a b, R a b → f a = g b) {as : List α}
    {bs : List β} (hs : List.Forall₂ R as bs) : as.map f = bs.map g := by
  rw [← List.forall₂_eq_eq_eq, List.forall₂_map_left_iff, List.forall₂_map_right_iff]
  exact hs.imp h

theorem flatMap_sublist {f : α → List γ} {g : β → List γ}
    (h : ∀ a b, R a b → (g b).Sublist (f a)) : ∀ {as : List α} {bs : List β},
      List.Forall₂ R as bs → (bs.flatMap g).Sublist (as.flatMap f)
  | _, _, .nil => .slnil
  | _, _, .cons hab hs => by
    rw [List.flatMap_cons, List.flatMap_cons]
    exact (h _ _ hab).append (flatMap_sublist h hs)

theorem forall₂_trans {P Q S : α → α → Prop} (h : ∀ a b c, P a b → Q b c → S a c) :
    ∀ {as bs cs : List α},
      List.Forall₂ P as bs → List.Forall₂ Q bs cs → List.Forall₂ S as cs
  | _, _, _, .nil, .nil => .nil
  | _, _, _, .cons hab has, .cons hbc hbs => .cons (h _ _ _ hab hbc) (forall₂_trans h has hbs)

end

/-! ### Desugaring, node by node -/

/-- A node and the node that takes its place. -/
inductive Node.Untags : Node → Node → Prop
  | opening (id : NodeId) (name : String) :
      Untags (.htmlTag id name false) (.rawText id ("<" ++ name ++ ">"))
  | closing (id : NodeId) (name : String) :
      Untags (.htmlTag id name true) (.rawText id ("</" ++ name ++ ">"))
  /-- What is not a tag stays. -/
  | other {node : Node} (h : node.isTag = false) : Untags node node

/-- A body and the body with raw text in the place of each tag. -/
def DesugarsTo (body body' : List Node) : Prop :=
  List.Forall₂ Node.Untags body body'

theorem map_desugar_desugarsTo (body : List Node) : DesugarsTo body (body.map Node.desugar) := by
  unfold DesugarsTo
  rw [List.forall₂_map_right_iff, List.forall₂_same]
  intro node _
  cases node with
  | htmlTag id name closing =>
    cases closing with
    | true => exact .closing id name
    | false => exact .opening id name
  | _ => exact .other rfl

theorem Node.Untags.pieces_eq {node node' : Node} (h : Untags node node') :
    node.pieces = node'.pieces := by
  cases h <;> rfl

theorem Node.Untags.id_eq {node node' : Node} (h : Untags node node') : node.id = node'.id := by
  cases h <;> rfl

theorem DesugarsTo.rendering_eq {body body' : List Node} (h : DesugarsTo body body') :
    rendering body' = rendering body := by
  have hpieces : body.map Node.pieces = body'.map Node.pieces :=
    map_eq_of_forall₂ (fun _ _ hnode => hnode.pieces_eq) h
  unfold rendering
  rw [List.flatMap_def, List.flatMap_def, hpieces]

theorem DesugarsTo.nodeIds_eq {body body' : List Node} (h : DesugarsTo body body') :
    nodeIds body' = nodeIds body :=
  (map_eq_of_forall₂ (fun _ _ hnode => hnode.id_eq) h).symm

/-! ### Combining, run by run -/

def Node.text : Node → String
  | .rawText _ text => text
  | _ => ""

/-- Whether all nodes of a run are raw text. -/
def AllRawText (run : List Node) : Prop :=
  ∀ node ∈ run, node.isRawText = true

/-- A run of nodes and the node that takes its place. -/
inductive Node.Merges : List Node → Node → Prop
  /-- Raw texts become one, under the id of the first. -/
  | texts {first : Node} {rest : List Node} (h : AllRawText (first :: rest)) :
      Merges (first :: rest) (.rawText first.id (String.join ((first :: rest).map Node.text)))
  /-- Any other node stays. -/
  | other {node : Node} (h : node.isRawText = false) : Merges [node] node

/-- A body and the body with one raw text in the place of each run of raw texts, the
runs being as long as they can be. -/
def CombinesTo (body body' : List Node) : Prop :=
  ∃ runs : List (List Node), runs.flatten = body ∧ List.Forall₂ Node.Merges runs body' ∧
    runs.IsChain fun run next => ¬(AllRawText run ∧ AllRawText next)

namespace Node.Merges

theorem single (node : Node) : Merges [node] node := by
  cases node with
  | rawText id text =>
    have hrun : AllRawText [.rawText id text] := by simp [AllRawText, isRawText]
    simpa [Node.text, Node.id, String.join_cons] using texts hrun
  | _ => exact other rfl

/-- A run of raw texts goes on with a raw text. -/
theorem append_rawText {run : List Node} {id id' : NodeId} {previous text : String}
    (h : Merges run (.rawText id previous)) :
    Merges (run ++ [.rawText id' text]) (.rawText id (previous ++ text)) := by
  generalize hnode : Node.rawText id previous = node at h
  cases h with
  | @texts first rest hrun =>
    obtain ⟨rfl, rfl⟩ : id = first.id ∧ previous = String.join ((first :: rest).map Node.text) := by
      simpa using hnode
    have hrun' : AllRawText (first :: (rest ++ [.rawText id' text])) := by
      intro node hnode
      rw [← List.cons_append, List.mem_append, List.mem_singleton] at hnode
      rcases hnode with hnode | rfl
      · exact hrun node hnode
      · rfl
    have hjoin : String.join ((first :: (rest ++ [.rawText id' text])).map Node.text) =
        String.join ((first :: rest).map Node.text) ++ text := by
      rw [← List.cons_append, List.map_append, String.join_append]
      simp [Node.text, String.join_cons]
    rw [← hjoin]
    exact texts hrun'
  | other h =>
    rw [← hnode] at h
    cases h

theorem allRawText_iff {run : List Node} {node : Node} (h : Merges run node) :
    AllRawText run ↔ node.isRawText = true := by
  cases h with
  | texts hrun => exact ⟨fun _ => rfl, fun _ => hrun⟩
  | other h => simp [AllRawText, h]

end Node.Merges

/-- The nodes merged so far, the last one first, and the body they come from. -/
def MergedFrom (body merged : List Node) : Prop :=
  ∃ runs : List (List Node), runs.reverse.flatten = body ∧ List.Forall₂ Node.Merges runs merged

theorem takeIn_mergedFrom {body merged : List Node} (node : Node) (h : MergedFrom body merged) :
    MergedFrom (body ++ [node]) (Node.takeIn merged node) := by
  obtain ⟨runs, rfl, hruns⟩ := h
  obtain ⟨id, previous, before, id', text, rfl, rfl, htake⟩ | ⟨-, htake⟩ :=
    takeIn_cases merged node
  · -- the last run goes on
    rw [htake]
    cases hruns with
    | @cons run _ rest _ hrun hrest =>
      refine ⟨(run ++ [.rawText id' text]) :: rest, ?_, .cons hrun.append_rawText hrest⟩
      simp
  · -- a new run begins
    rw [htake]
    refine ⟨[node] :: runs, ?_, .cons (.single node) hruns⟩
    simp

theorem foldl_takeIn_mergedFrom : ∀ (body : List Node) {done merged : List Node},
    MergedFrom done merged → MergedFrom (done ++ body) (body.foldl Node.takeIn merged)
  | [], _, _, h => by rwa [List.append_nil]
  | node :: body, done, _, h => by
    have hrest := foldl_takeIn_mergedFrom body (takeIn_mergedFrom node h)
    rwa [List.append_assoc, List.singleton_append] at hrest

/-- Runs that become separated nodes are as long as they can be. -/
theorem isChain_runs : ∀ {runs : List (List Node)} {body : List Node},
    List.Forall₂ Node.Merges runs body → Separated body →
      runs.IsChain fun run next => ¬(AllRawText run ∧ AllRawText next)
  | _, _, .nil, _ => .nil
  | _, _, .cons _ .nil, _ => .singleton _
  | _, _, .cons hrun (.cons hnext hrest), hbody => by
    obtain ⟨hne, htail⟩ := List.isChain_cons_cons.1 hbody
    refine List.isChain_cons_cons.2 ⟨?_, isChain_runs (.cons hnext hrest) htail⟩
    rwa [hrun.allRawText_iff, hnext.allRawText_iff]

/-- **Combining makes one node of each run**, and cuts the runs as long as they can be. -/
theorem combine_combinesTo (body : List Node) : CombinesTo body (Node.combine body) := by
  have hnone : MergedFrom [] [] := ⟨[], rfl, .nil⟩
  obtain ⟨runs, hflatten, hruns⟩ := foldl_takeIn_mergedFrom body hnone
  have hmerges : List.Forall₂ Node.Merges runs.reverse (Node.combine body) :=
    List.forall₂_reverse_iff.2 hruns
  exact ⟨runs.reverse, hflatten, hmerges, isChain_runs hmerges (combine_separated body)⟩

/-- An empty text is taken in with its neighbours, but is not dropped on its own. -/
example : Node.combine [.rawText 1 "", .rawText 2 "a", .print 3 "$x", .rawText 4 ""] =
    [.rawText 1 "a", .print 3 "$x", .rawText 4 ""] := rfl

/-! ### What combining keeps -/

/-- A run of raw texts puts out its texts. -/
theorem rendering_of_allRawText : ∀ {run : List Node}, AllRawText run →
    rendering run = Piece.ofText (String.join (run.map Node.text))
  | [], _ => rfl
  | node :: run, h => by
    obtain ⟨hnode, hrun⟩ := List.forall_mem_cons.1 h
    have hrest := rendering_of_allRawText hrun
    cases node with
    | rawText id text =>
      rw [List.map_cons, String.join_cons, Piece.ofText_append, ← hrest]
      rfl
    | _ => cases hnode

theorem Node.Merges.pieces_eq {run : List Node} {node : Node} (h : Merges run node) :
    rendering run = node.pieces := by
  cases h with
  | texts hrun => exact rendering_of_allRawText hrun
  | other => exact List.flatMap_singleton ..

theorem Node.Merges.id_mem {run : List Node} {node : Node} (h : Merges run node) :
    node.id ∈ nodeIds run := by
  cases h with
  | texts => exact List.mem_cons_self ..
  | other => exact List.mem_cons_self ..

theorem CombinesTo.rendering_eq {body body' : List Node} (h : CombinesTo body body') :
    rendering body' = rendering body := by
  obtain ⟨runs, rfl, hruns, -⟩ := h
  calc rendering body'
      = (body'.map Node.pieces).flatten := List.flatMap_def
    _ = (runs.map rendering).flatten := by
      rw [map_eq_of_forall₂ (fun _ _ hrun => hrun.pieces_eq) hruns]
    _ = rendering runs.flatten := by
      unfold rendering
      rw [List.flatten_eq_flatMap (L := runs), List.flatMap_assoc]
      rfl

theorem CombinesTo.nodeIds_sublist {body body' : List Node} (h : CombinesTo body body') :
    (nodeIds body').Sublist (nodeIds body) := by
  obtain ⟨runs, rfl, hruns, -⟩ := h
  have hsublist : (body'.flatMap fun node => [node.id]).Sublist (runs.flatMap nodeIds) :=
    flatMap_sublist (fun _ _ hrun => List.singleton_sublist.2 hrun.id_mem) hruns
  unfold nodeIds at hsublist ⊢
  rwa [← List.map_eq_flatMap, List.flatMap_def, ← List.map_flatten] at hsublist

/-! ### Files that differ in their bodies -/

/-- A template and one that differs at most in its body, the bodies being related. -/
structure Template.SameButBody (R : List Node → List Node → Prop) (t t' : Template) : Prop where
  id : t'.id = t.id
  name : t'.name = t.name
  visibility : t'.visibility = t.visibility
  body : R t.body t'.body

/-- A file and one with the same templates, in the same order, but for their bodies. -/
structure SourceFile.SameButBodies (R : List Node → List Node → Prop) (f f' : SourceFile) :
    Prop where
  path : f'.path = f.path
  templates : List.Forall₂ (Template.SameButBody R) f.templates f'.templates

/-- The same files, in the same order, but for the bodies of their templates. -/
def SameButBodies (R : List Node → List Node → Prop) (files files' : List SourceFile) : Prop :=
  List.Forall₂ (SourceFile.SameButBodies R) files files'

namespace SameButBodies

variable {R S : List Node → List Node → Prop}

theorem mapBodies {g : List Node → List Node} (hg : ∀ body, R body (g body))
    (files : List SourceFile) : SameButBodies R files (files.map (·.mapBodies g)) := by
  unfold SameButBodies
  rw [List.forall₂_map_right_iff, List.forall₂_same]
  refine fun file _ => ⟨rfl, ?_⟩
  show List.Forall₂ _ file.templates (file.templates.map (·.mapBody g))
  rw [List.forall₂_map_right_iff, List.forall₂_same]
  exact fun t _ => ⟨rfl, rfl, rfl, hg t.body⟩

theorem imp (h : ∀ body body', R body body' → S body body') {files files' : List SourceFile}
    (hfiles : SameButBodies R files files') : SameButBodies S files files' :=
  List.Forall₂.imp (fun _ _ hfile => ⟨hfile.path, List.Forall₂.imp
    (fun _ _ ht => ⟨ht.id, ht.name, ht.visibility, h _ _ ht.body⟩) hfile.templates⟩) hfiles

theorem refl (h : ∀ body, R body body) (files : List SourceFile) : SameButBodies R files files :=
  List.forall₂_same.2 fun _ _ => ⟨rfl, List.forall₂_same.2 fun _ _ => ⟨rfl, rfl, rfl, h _⟩⟩

theorem trans {files files' files'' : List SourceFile} (hfiles : SameButBodies R files files')
    (hfiles' : SameButBodies R files' files'') (h : ∀ a b c, R a b → R b c → R a c) :
    SameButBodies R files files'' := by
  refine forall₂_trans
    (fun _ _ _ hfile hfile' => ⟨hfile'.path.trans hfile.path, ?_⟩) hfiles hfiles'
  exact forall₂_trans (fun _ _ _ ht ht' => ⟨ht'.id.trans ht.id, ht'.name.trans ht.name,
    ht'.visibility.trans ht.visibility, h _ _ _ ht.body ht'.body⟩) hfile.templates hfile'.templates

end SameButBodies

/-! ### What any number of simplifications keeps -/

/-- A body and one that puts out the same, with some of its ids in their order. -/
structure KeepsMeaning (body body' : List Node) : Prop where
  rendering : rendering body' = rendering body
  nodeIds : (nodeIds body').Sublist (nodeIds body)

theorem KeepsMeaning.refl (body : List Node) : KeepsMeaning body body :=
  ⟨rfl, List.Sublist.refl _⟩

theorem KeepsMeaning.trans {a b c : List Node} (hab : KeepsMeaning a b) (hbc : KeepsMeaning b c) :
    KeepsMeaning a c :=
  ⟨hbc.rendering.trans hab.rendering, hbc.nodeIds.trans hab.nodeIds⟩

/-- The ids in a file: those of its templates and of their nodes. -/
def SourceFile.ids (f : SourceFile) : List NodeId :=
  f.templates.flatMap fun t => t.id :: nodeIds t.body

theorem ids_sublist {files files' : List SourceFile} (h : SameButBodies KeepsMeaning files files') :
    (files'.flatMap SourceFile.ids).Sublist (files.flatMap SourceFile.ids) := by
  refine flatMap_sublist (fun _ _ hfile => flatMap_sublist (fun _ _ ht => ?_) hfile.templates) h
  rw [ht.id]
  exact ht.body.nodeIds.cons_cons _

theorem combineFiles_combinesTo (files : List SourceFile) :
    SameButBodies CombinesTo files (combineFiles files) :=
  .mapBodies combine_combinesTo files

theorem desugarFiles_desugarsTo (files : List SourceFile) :
    SameButBodies DesugarsTo files (desugarFiles files) :=
  .mapBodies map_desugar_desugarsTo files

theorem apply_keepsMeaning (p : Simplification) (files : List SourceFile) :
    SameButBodies KeepsMeaning files (p.apply files) := by
  cases p with
  | desugar =>
    refine (desugarFiles_desugarsTo files).imp fun body body' h => ⟨h.rendering_eq, ?_⟩
    rw [h.nodeIds_eq]
  | combine =>
    exact (combineFiles_combinesTo files).imp fun body body' h =>
      ⟨h.rendering_eq, h.nodeIds_sublist⟩

theorem applyEach_keepsMeaning : ∀ (w : List Simplification) (files : List SourceFile),
    SameButBodies KeepsMeaning files (Simplification.applyEach w files)
  | [], files => .refl KeepsMeaning.refl files
  | p :: w, files => by
    have hfirst := apply_keepsMeaning p files
    have hrest := applyEach_keepsMeaning w (p.apply files)
    exact hfirst.trans hrest fun _ _ _ => KeepsMeaning.trans

/-- **Simplifying keeps the meaning.** In every body combining makes one raw text of
each run of raw texts and desugaring makes a raw text of each tag, and nothing else
changes. So after any number of simplifications every template puts out what it
did, with some of its nodes' ids in their order; ids that were unique in all files
still are; the files and their templates are the same but for the bodies; and no
id has been drawn. -/
theorem simplifications_keep_meaning (index : TemplateIndex) (files : List SourceFile)
    (s : Session) :
    SameButBodies CombinesTo files (FileSetPass.combine.runOn index files s).files ∧
      SameButBodies DesugarsTo files (FileSetPass.desugar.runOn index files s).files ∧
      ∀ w : List Simplification,
        let run := runFileSetPasses index (w.map Simplification.pass) files s
        SameButBodies KeepsMeaning files run.files ∧
          ((files.flatMap SourceFile.ids).Nodup → (run.files.flatMap SourceFile.ids).Nodup) ∧
          run.session.ids = s.ids := by
  refine ⟨combineFiles_combinesTo files, desugarFiles_desugarsTo files, fun w => ?_⟩
  intro run
  obtain ⟨hfiles, -, hids⟩ := Simplification.run_word index w files s
  have hkeeps : SameButBodies KeepsMeaning files run.files := by
    rw [hfiles]
    exact applyEach_keepsMeaning w files
  exact ⟨hkeeps, fun hnodup => hnodup.sublist (ids_sublist hkeeps), hids⟩

end TemplatePasses
