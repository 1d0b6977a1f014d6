/-
# Words of simplifications

Tags can be turned into raw text and raw texts combined in any order and as often
as one likes, and yet only five things can become of the files: nothing, either
change alone, and the two one after the other in either order. The changes are
idempotent, combining before tags are turned into raw text is lost once raw texts
are combined again behind it, and no change brings a tag back.

Key definitions: `Simplification`, `Simplification.applyEach`, `Simplification.normal`.
Key theorems: `combine_map_combine`, `Simplification.applyEach_eq_normal`,
`Simplification.run_eq_run_normal`.
-/
import TemplatePasses.Proofs.FinalTree
import Mathlib.Data.List.TakeWhile

namespace TemplatePasses

/-! ### Bodies -/

/-- Two raw texts taken in one after the other are taken in as one. -/
theorem takeIn_rawText_rawText (merged : List Node) (id id' : NodeId) (text text' : String) :
    Node.takeIn (Node.takeIn merged (.rawText id text)) (.rawText id' text') =
      Node.takeIn merged (.rawText id (text ++ text')) := by
  cases merged with
  | nil => rfl
  | cons last before =>
    cases last with
    | rawText id₀ previous => simp only [Node.takeIn, String.append_assoc]
    | _ => rfl

section
variable {f : Node → Node} (hf : ∀ id text, f (.rawText id text) = .rawText id text)
include hf

/-- Taking a node in and combining once more, with the nodes changed, is taking the
changed node in. -/
theorem combine_takeIn (merged : List Node) (node : Node) :
    ((Node.takeIn merged node).reverse.map f).foldl Node.takeIn [] =
      Node.takeIn ((merged.reverse.map f).foldl Node.takeIn []) (f node) := by
  obtain ⟨id, previous, before, id', text, rfl, rfl, htake⟩ | ⟨-, htake⟩ :=
    takeIn_cases merged node
  · rw [htake, hf]
    simp only [List.reverse_cons, List.map_append, List.map_cons, List.map_nil, hf,
      List.foldl_append, List.foldl_cons, List.foldl_nil, takeIn_rawText_rawText]
  · rw [htake]
    simp only [List.reverse_cons, List.map_append, List.map_cons, List.map_nil,
      List.foldl_append, List.foldl_cons, List.foldl_nil]

theorem combine_foldl_takeIn : ∀ (body merged : List Node),
    ((body.foldl Node.takeIn merged).reverse.map f).foldl Node.takeIn [] =
      (body.map f).foldl Node.takeIn ((merged.reverse.map f).foldl Node.takeIn [])
  | [], _ => rfl
  | node :: body, merged => by
    rw [List.foldl_cons, combine_foldl_takeIn body, combine_takeIn hf, List.map_cons,
      List.foldl_cons]

/-- **Combining is lost on a later combining**, whatever is done in between to
nodes other than raw texts. -/
theorem combine_map_combine (body : List Node) :
    Node.combine ((Node.combine body).map f) = Node.combine (body.map f) := by
  unfold Node.combine
  rw [combine_foldl_takeIn hf]
  rfl

end

theorem map_desugar_of_tagFree {body : List Node} (h : TagFree body) :
    body.map Node.desugar = body := by
  have hself : ∀ node ∈ body, node.desugar = id node := by
    intro node hnode
    cases node with
    | htmlTag id name closing => cases h _ hnode
    | _ => rfl
  rw [List.map_congr_left hself, List.map_id]

/-! ### Files -/

theorem mapBodies_mapBodies (f g : List Node → List Node) (files : List SourceFile) :
    (files.map (·.mapBodies f)).map (·.mapBodies g) =
      files.map (·.mapBodies fun body => g (f body)) := by
  simp only [List.map_map, Function.comp_def, SourceFile.mapBodies, Template.mapBody]

theorem mapBodies_congr {f g : List Node → List Node} {files : List SourceFile}
    (h : EveryBody (fun body => f body = g body) files) :
    files.map (·.mapBodies f) = files.map (·.mapBodies g) := by
  refine List.map_congr_left fun file hfile => ?_
  unfold SourceFile.mapBodies
  rw [List.map_congr_left fun t ht => ?_]
  unfold Template.mapBody
  rw [h file hfile t ht]

theorem mapBodies_self (files : List SourceFile) :
    files.map (·.mapBodies fun body => body) = files := by
  simp [SourceFile.mapBodies, Template.mapBody]

theorem combineFiles_combineFiles (files : List SourceFile) :
    combineFiles (combineFiles files) = combineFiles files := by
  have hbody (body : List Node) : Node.combine (Node.combine body) = Node.combine body := by
    simpa using combine_map_combine (f := id) (fun _ _ => rfl) body
  unfold combineFiles
  rw [mapBodies_mapBodies]
  simp only [hbody]

theorem combineFiles_desugarFiles_combineFiles (files : List SourceFile) :
    combineFiles (desugarFiles (combineFiles files)) = combineFiles (desugarFiles files) := by
  unfold combineFiles desugarFiles
  simp only [mapBodies_mapBodies, combine_map_combine (f := Node.desugar) fun _ _ => rfl]

theorem desugarFiles_of_tagFree {files : List SourceFile} (h : EveryBody TagFree files) :
    desugarFiles files = files := by
  have hbodies : EveryBody (fun body => body.map Node.desugar = body) files :=
    fun file hfile t ht => map_desugar_of_tagFree (h file hfile t ht)
  unfold desugarFiles
  rw [mapBodies_congr (g := fun body => body) hbodies, mapBodies_self]

/-! ### Words -/

/-- A change that makes bodies simpler. -/
inductive Simplification where
  | desugar
  | combine
deriving DecidableEq

namespace Simplification

def pass : Simplification → FileSetPass
  | .desugar => .desugar
  | .combine => .combine

def apply : Simplification → List SourceFile → List SourceFile
  | .desugar => desugarFiles
  | .combine => combineFiles

/-- The files with the changes of a word made, the first one first. -/
def applyEach (w : List Simplification) (files : List SourceFile) : List SourceFile :=
  w.foldl (fun files p => p.apply files) files

/-- The word of at most two letters with the same effect. It depends on which
letters there are, and on which side of the first `desugar` there is a `combine`. -/
def normal (w : List Simplification) : List Simplification :=
  if .desugar ∈ w then
    if .combine ∈ w.dropWhile (· ≠ .desugar) then [.desugar, .combine]
    else if .combine ∈ w.takeWhile (· ≠ .desugar) then [.combine, .desugar]
    else [.desugar]
  else if .combine ∈ w then [.combine]
  else []

/-- As long as there are no tags to turn into raw text, only `combine` counts. -/
theorem applyEach_of_tagFree : ∀ {w : List Simplification} {files : List SourceFile},
    (.desugar ∈ w → EveryBody TagFree files) →
      applyEach w files = if .combine ∈ w then combineFiles files else files
  | [], _, _ => rfl
  | .desugar :: w, files, h => by
    have htagFree : EveryBody TagFree files := h (List.mem_cons_self ..)
    have ih : applyEach w files = _ := applyEach_of_tagFree fun _ => htagFree
    show applyEach w (desugarFiles files) = _
    rw [desugarFiles_of_tagFree htagFree, ih]
    simp
  | .combine :: w, files, h => by
    have ih : applyEach w (combineFiles files) = _ :=
      applyEach_of_tagFree fun hw => combineFiles_tagFree (h (List.mem_cons_of_mem _ hw))
    rw [if_pos (List.mem_cons_self ..)]
    show applyEach w (combineFiles files) = combineFiles files
    rw [ih, combineFiles_combineFiles, ite_self]

theorem applyEach_append (v w : List Simplification) (files : List SourceFile) :
    applyEach (v ++ w) files = applyEach w (applyEach v files) :=
  List.foldl_append

/-- Of a word with its first `desugar` in the middle it counts on which sides there
is a `combine`. -/
theorem applyEach_around {before : List Simplification} (hbefore : .desugar ∉ before)
    (behind : List Simplification) (files : List SourceFile) :
    applyEach (before ++ .desugar :: behind) files =
      if .combine ∈ behind then combineFiles (desugarFiles files)
      else if .combine ∈ before then desugarFiles (combineFiles files)
      else desugarFiles files := by
  rw [applyEach_append, applyEach_of_tagFree fun hmem => absurd hmem hbefore]
  show applyEach behind (desugarFiles _) = _
  rw [applyEach_of_tagFree fun _ => desugarFiles_tagFree _]
  by_cases hcombine : .combine ∈ before
  · simp only [hcombine, if_true, combineFiles_desugarFiles_combineFiles]
  · simp only [hcombine, if_false]

/-- A word is split at its first `desugar`, if it has one. -/
theorem split_at_desugar (w : List Simplification) :
    .desugar ∉ w.takeWhile (· ≠ .desugar) ∧
      (w.dropWhile (· ≠ .desugar) = [] ∨
        ∃ behind, w.dropWhile (· ≠ .desugar) = .desugar :: behind) := by
  refine ⟨fun hmem => by simpa using List.mem_takeWhile_imp hmem, ?_⟩
  have hhead := List.head?_dropWhile_not (fun p : Simplification => decide (p ≠ .desugar)) w
  cases hdrop : w.dropWhile (· ≠ .desugar) with
  | nil => exact Or.inl rfl
  | cons p behind =>
    rw [hdrop] at hhead
    have hp : p = .desugar := by simpa using hhead
    exact Or.inr ⟨behind, hp ▸ rfl⟩

/-- **Every word has the effect of its normal form.** -/
theorem applyEach_eq_normal (w : List Simplification) (files : List SourceFile) :
    applyEach w files = applyEach (normal w) files := by
  have hsplit : w.takeWhile (· ≠ .desugar) ++ w.dropWhile (· ≠ .desugar) = w :=
    List.takeWhile_append_dropWhile
  obtain ⟨hbefore, hnone | ⟨behind, hsome⟩⟩ := split_at_desugar w
  · rw [hnone, List.append_nil] at hsplit
    have hdesugar : .desugar ∉ w := hsplit ▸ hbefore
    rw [applyEach_of_tagFree fun hmem => absurd hmem hdesugar, normal, if_neg hdesugar]
    split <;> rfl
  · have hdesugar : .desugar ∈ w := by
      rw [← hsplit, hsome]
      simp
    have hcombine : .combine ∈ w.dropWhile (· ≠ .desugar) ↔ .combine ∈ behind := by
      rw [hsome]
      simp
    have hword : applyEach w files =
        applyEach (w.takeWhile (· ≠ .desugar) ++ .desugar :: behind) files := by
      rw [← hsome, hsplit]
    rw [hword, applyEach_around hbefore, normal, if_pos hdesugar]
    simp only [hcombine]
    split
    · rfl
    · split <;> rfl

/-- One `desugar` and one `combine` behind it are enough. -/
example : normal [.combine, .desugar, .desugar, .combine, .combine] = [.desugar, .combine] := by
  decide

theorem applyEach_tagFree {w : List Simplification} (h : .desugar ∈ w)
    (files : List SourceFile) : EveryBody TagFree (applyEach w files) := by
  rw [applyEach_eq_normal, normal, if_pos h]
  split
  · exact combineFiles_tagFree (desugarFiles_tagFree files)
  · split
    · exact desugarFiles_tagFree (combineFiles files)
    · exact desugarFiles_tagFree files

/-! ### Runs -/

theorem runOn_pass (p : Simplification) (index : TemplateIndex) (files : List SourceFile)
    (s : Session) :
    p.pass.runOn index files s =
      ⟨p.apply files, .goOn, s.emit (startOnSetEvent p.pass.name files.length)⟩ := by
  cases p <;> rfl

/-- A run of the passes of a word makes its changes and comes to its end, without
drawing an id. -/
theorem run_word (index : TemplateIndex) :
    ∀ (w : List Simplification) (files : List SourceFile) (s : Session),
      let run := runFileSetPasses index (w.map pass) files s
      run.files = applyEach w files ∧ run.signal = .goOn ∧ run.session.ids = s.ids
  | [], _, _ => ⟨rfl, rfl, rfl⟩
  | p :: w, files, s => by
    rw [List.map_cons, runFileSetPasses_cons, runOn_pass]
    exact run_word index w (p.apply files) _

/-- **Only five words of simplifications differ.** A run of the two passes, in any
order and any number, leaves the files that the run of its normal form leaves. So
either pass run twice is run once, combining is lost before a `desugar` with a
combining behind it, and once tags have been turned into raw text, doing it again
changes nothing. -/
theorem run_eq_run_normal (index : TemplateIndex) (files : List SourceFile) (s : Session) :
    let run (w : List Simplification) := (runFileSetPasses index (w.map pass) files s).files
    (∀ w, run w = run (normal w)) ∧
      (∀ p, run [p, p] = run [p]) ∧
      run [.combine, .desugar, .combine] = run [.desugar, .combine] ∧
      ∀ w, .desugar ∈ w → run (w ++ [.desugar]) = run w := by
  intro run
  have hrun (w : List Simplification) : run w = applyEach w files := (run_word index w files s).1
  have hnormal (w : List Simplification) : run w = run (normal w) := by
    rw [hrun, hrun, applyEach_eq_normal]
  refine ⟨hnormal, fun p => ?_, hnormal [.combine, .desugar, .combine], fun w hw => ?_⟩
  · rw [hnormal [p, p], hnormal [p]]
    cases p <;> rfl
  · rw [hrun, hrun, applyEach_append]
    exact desugarFiles_of_tagFree (applyEach_tagFree hw files)

end Simplification
end TemplatePasses
