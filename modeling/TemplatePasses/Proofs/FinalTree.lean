/-
# The trees at the end of a run

Whatever the other passes do to the trees, a run over all files that goes on to
its end leaves no two neighbouring raw texts, if raw texts are combined at all;
and it leaves no tag if tags are turned into raw text, as long as the optimizer
puts none back. The first holds because combining is the last candidate: a plan
that has it has all candidates, and a run that goes on has come to it. The second
holds because only the optimizer stands between the two.

Key definitions: `Separated`, `TagFree`, `EveryBody`.
Key theorems: `combine_separated`, `combine_tagFree`, `run_simplifies`.
-/
import TemplatePasses.Pass.Script
import TemplatePasses.Proofs.Building
import TemplatePasses.Proofs.Running
import Mathlib.Data.List.Chain

namespace TemplatePasses

namespace Node

def isRawText : Node → Bool
  | rawText _ _ => true
  | _ => false

def isTag : Node → Bool
  | htmlTag _ _ _ => true
  | _ => false

end Node

/-- No two neighbours are both raw text. -/
def Separated (body : List Node) : Prop :=
  body.IsChain fun a b => ¬(a.isRawText ∧ b.isRawText)

def TagFree (body : List Node) : Prop :=
  ∀ node ∈ body, node.isTag = false

/-- Every body of the files has the property. -/
def EveryBody (P : List Node → Prop) (files : List SourceFile) : Prop :=
  ∀ file ∈ files, ∀ t ∈ file.templates, P t.body

/-! ### Combining and desugaring a body -/

/-- What taking in a node does: raw text behind raw text goes into that one, and any
other node is put behind. -/
theorem takeIn_cases (merged : List Node) (node : Node) :
    (∃ id previous before id' text, merged = .rawText id previous :: before ∧
      node = .rawText id' text ∧
      Node.takeIn merged node = .rawText id (previous ++ text) :: before) ∨
    (∀ last ∈ merged.head?, ¬(node.isRawText ∧ last.isRawText)) ∧
      Node.takeIn merged node = node :: merged := by
  cases merged with
  | nil => exact Or.inr ⟨by simp, rfl⟩
  | cons last before =>
    cases last with
    | rawText id previous =>
      cases node with
      | rawText id' text => exact Or.inl ⟨id, previous, before, id', text, rfl, rfl, rfl⟩
      | _ => exact Or.inr ⟨by simp [Node.isRawText], rfl⟩
    | _ => exact Or.inr ⟨by simp [Node.isRawText], rfl⟩

theorem takeIn_separated {merged : List Node} (node : Node) (h : Separated merged) :
    Separated (Node.takeIn merged node) := by
  obtain ⟨id, previous, before, id', text, rfl, rfl, htake⟩ | ⟨hne, htake⟩ :=
    takeIn_cases merged node
  · -- the last node stays raw text, so its neighbour is as good as before
    rw [htake]
    exact List.isChain_cons.2 ⟨(List.isChain_cons.1 h).1, h.tail⟩
  · rw [htake]
    exact List.isChain_cons.2 ⟨hne, h⟩

theorem foldl_takeIn_separated : ∀ (body : List Node) {merged : List Node}, Separated merged →
    Separated (body.foldl Node.takeIn merged)
  | [], _, h => h
  | node :: body, _, h => foldl_takeIn_separated body (takeIn_separated node h)

/-- **Combining leaves no neighbouring raw texts**, whatever the body was. -/
theorem combine_separated (body : List Node) : Separated (Node.combine body) := by
  have h : Separated (body.foldl Node.takeIn []) := foldl_takeIn_separated body List.isChain_nil
  unfold Node.combine Separated
  rw [List.isChain_reverse]
  exact h.imp fun a b hab => fun hba => hab hba.symm

theorem takeIn_tagFree {merged : List Node} {node : Node} (h : TagFree merged)
    (hnode : node.isTag = false) : TagFree (Node.takeIn merged node) := by
  obtain ⟨id, previous, before, id', text, rfl, rfl, htake⟩ | ⟨-, htake⟩ :=
    takeIn_cases merged node
  · rw [htake]
    exact List.forall_mem_cons.2 ⟨rfl, (List.forall_mem_cons.1 h).2⟩
  · rw [htake]
    exact List.forall_mem_cons.2 ⟨hnode, h⟩

theorem foldl_takeIn_tagFree : ∀ {body merged : List Node}, TagFree body → TagFree merged →
    TagFree (body.foldl Node.takeIn merged)
  | [], _, _, h => h
  | _ :: _, _, hbody, h => by
    obtain ⟨hnode, hrest⟩ := List.forall_mem_cons.1 hbody
    rw [List.foldl_cons]
    exact foldl_takeIn_tagFree hrest (takeIn_tagFree h hnode)

theorem combine_tagFree {body : List Node} (h : TagFree body) : TagFree (Node.combine body) := by
  intro node hnode
  rw [Node.combine, List.mem_reverse] at hnode
  exact foldl_takeIn_tagFree h (fun _ hm => absurd hm List.not_mem_nil) node hnode

theorem desugar_tagFree (body : List Node) : TagFree (body.map Node.desugar) := by
  intro node hnode
  obtain ⟨n, -, rfl⟩ := List.mem_map.1 hnode
  cases n <;> rfl

theorem everyBody_mapBodies {P Q : List Node → Prop} {g : List Node → List Node}
    (hg : ∀ body, Q body → P (g body)) {files : List SourceFile} (h : EveryBody Q files) :
    EveryBody P (files.map (·.mapBodies g)) := by
  intro file hfile t ht
  obtain ⟨file', hfile', rfl⟩ := List.mem_map.1 hfile
  obtain ⟨t', ht', rfl⟩ := List.mem_map.1 ht
  exact hg t'.body (h file' hfile' t' ht')

theorem combineFiles_separated (files : List SourceFile) : EveryBody Separated (combineFiles files) :=
  everyBody_mapBodies (Q := fun _ => True) (fun body _ => combine_separated body)
    fun _ _ _ _ => trivial

theorem combineFiles_tagFree {files : List SourceFile} (h : EveryBody TagFree files) :
    EveryBody TagFree (combineFiles files) :=
  everyBody_mapBodies (fun _ => combine_tagFree) h

theorem desugarFiles_tagFree (files : List SourceFile) : EveryBody TagFree (desugarFiles files) :=
  everyBody_mapBodies (Q := fun _ => True) (fun body _ => desugar_tagFree body)
    fun _ _ _ _ => trivial

/-! ### The end of a run -/

/-- A pass that makes no tags where there are none. -/
def FileSetPass.KeepsTagFree (pass : FileSetPass) : Prop :=
  ∀ index files s, EveryBody TagFree files → EveryBody TagFree (pass.runOn index files s).files

/-- The factory makes the pass of a role that comes with the pipeline. -/
def Factory.MakesBuiltin (f : Factory) (role : FileSetRole) : Prop :=
  ∀ setup, builtinPass? role = some (f.fileSetPass role setup)

theorem combine_keepsTagFree : FileSetPass.combine.KeepsTagFree :=
  fun _ _ _ h => combineFiles_tagFree h

/-- A run that goes on to a last pass that combines has no neighbouring raw texts. -/
theorem separated_of_goOn {index : TemplateIndex} {ps : List FileSetPass} {files : List SourceFile}
    {s : Session} (h : (runFileSetPasses index (ps ++ [.combine]) files s).signal = .goOn) :
    EveryBody Separated (runFileSetPasses index (ps ++ [.combine]) files s).files := by
  rw [(goOn_append index h).2]
  exact combineFiles_separated _

/-- A run that goes on behind a pass that desugars has no tags, if what follows
makes none. -/
theorem tagFree_of_goOn {index : TemplateIndex} {ps qs : List FileSetPass}
    {files : List SourceFile} {s : Session} (hqs : ∀ pass ∈ qs, pass.KeepsTagFree)
    (h : (runFileSetPasses index (ps ++ [.desugar] ++ qs) files s).signal = .goOn) :
    EveryBody TagFree (runFileSetPasses index (ps ++ [.desugar] ++ qs) files s).files := by
  obtain ⟨hfirst, hrun⟩ := goOn_append index h
  rw [hrun]
  refine runFileSetPasses_keeps index (fun pass hpass => hqs pass hpass index) ?_
  rw [(goOn_append index hfirst).2]
  exact desugarFiles_tagFree _

/-! ### Where the two passes stand -/

section
variable {s : Settings} {f : Factory} {p : Plan}

/-- Combining is the last pass. -/
theorem combine_is_last (hplan : s.plan = .ok p)
    (hcombine : .combineConsecutiveRawTextNodes ∈ p.fileSet)
    (hbuiltin : f.MakesBuiltin .combineConsecutiveRawTextNodes) (setup : PassSetup) :
    ∃ ps, (f.pipeline setup p).fileSetPasses = ps ++ [.combine] := by
  obtain ⟨o, -, hsets⟩ := Settings.candidates_of_combine hplan hcombine
  have hlast : f.fileSetPass .combineConsecutiveRawTextNodes setup = .combine :=
    (Option.some.inj (hbuiltin setup)).symm
  unfold Factory.pipeline
  simp only [hsets, Settings.fileSetCandidates, List.map_append, List.map_cons, List.map_nil, hlast]
  exact ⟨_, rfl⟩

/-- Only the optimizer stands between desugaring and combining. -/
theorem desugar_before_combine (hplan : s.plan = .ok p)
    (hcombine : .combineConsecutiveRawTextNodes ∈ p.fileSet)
    (hbuiltin : f.MakesBuiltin .combineConsecutiveRawTextNodes)
    (hdesugar : s.desugarHtml = true) (hbuiltin' : f.MakesBuiltin .desugarHtmlNodes)
    (hoptimizer : .optimization ∈ p.fileSet →
      ∀ setup, (f.fileSetPass .optimization setup).KeepsTagFree) (setup : PassSetup) :
    ∃ ps qs, (f.pipeline setup p).fileSetPasses = ps ++ [.desugar] ++ qs ∧
      ∀ pass ∈ qs, pass.KeepsTagFree := by
  obtain ⟨o, -, hsets⟩ := Settings.candidates_of_combine hplan hcombine
  have hlast : f.fileSetPass .combineConsecutiveRawTextNodes setup = .combine :=
    (Option.some.inj (hbuiltin setup)).symm
  have hfirst : f.fileSetPass .desugarHtmlNodes setup = .desugar :=
    (Option.some.inj (hbuiltin' setup)).symm
  have hbetween : ∀ r ∈ Settings.onlyIf (s.optimize && o.optimizer) [.optimization],
      (f.fileSetPass r setup).KeepsTagFree := by
    intro r hr
    obtain rfl := List.mem_singleton.1 (Settings.mem_onlyIf_iff.1 hr).2
    refine hoptimizer ?_ setup
    rw [hsets, Settings.fileSetCandidates]
    exact List.mem_append_left _ (List.mem_append_right _ hr)
  unfold Factory.pipeline
  simp only [hsets, Settings.fileSetCandidates, hdesugar, Settings.onlyIf_true, List.map_append,
    List.map_cons, List.map_nil, hfirst, hlast]
  rw [List.append_assoc]
  refine ⟨_, _, rfl, fun pass hpass => ?_⟩
  rcases List.mem_append.1 hpass with hpass | hpass
  · obtain ⟨r, hr, rfl⟩ := List.mem_map.1 hpass
    exact hbetween r hr
  · obtain rfl := List.mem_singleton.1 hpass
    exact combine_keepsTagFree

/-- **The final trees are simple.** Take any pipeline with the pass that combines
raw texts, made by a factory that has this pass built in and makes anything else
of the other roles. If its run over all files goes on to the end, no body has two
neighbouring raw texts. And no body has a tag, if tags are to be desugared by the
pass built in for it and the optimizer, where it is planned, makes no tags. -/
theorem run_simplifies {pipe : Pipeline} (hplan : s.plan = .ok p)
    (hbuild : (s.build f).result = .ok pipe)
    (hcombine : .combineConsecutiveRawTextNodes ∈ p.fileSet)
    (hbuiltin : f.MakesBuiltin .combineConsecutiveRawTextNodes)
    (index : TemplateIndex) (files : List SourceFile) (session : Session)
    (hgoOn : (pipe.runFileSet index files session).signal = .goOn) :
    EveryBody Separated (pipe.runFileSet index files session).files ∧
      (s.desugarHtml = true → f.MakesBuiltin .desugarHtmlNodes →
        (.optimization ∈ p.fileSet → ∀ setup, (f.fileSetPass .optimization setup).KeepsTagFree) →
        EveryBody TagFree (pipe.runFileSet index files session).files) := by
  obtain ⟨setup, rfl, -⟩ := Settings.pipeline_of_build hplan hbuild
  unfold Pipeline.runFileSet at hgoOn ⊢
  constructor
  · obtain ⟨ps, hps⟩ := combine_is_last hplan hcombine hbuiltin setup
    rw [hps] at hgoOn ⊢
    exact separated_of_goOn hgoOn
  · intro hdesugar hbuiltin' hoptimizer
    obtain ⟨ps, qs, hps, hqs⟩ :=
      desugar_before_combine hplan hcombine hbuiltin hdesugar hbuiltin' hoptimizer setup
    rw [hps] at hgoOn ⊢
    exact tagFree_of_goOn hqs hgoOn

end

/-- The factory with the passes that come with the pipeline in place of its own. -/
def Factory.withBuiltins (f : Factory) : Factory :=
  { f with fileSetPass := fun role setup => (builtinPass? role).getD (f.fileSetPass role setup) }

/-- A script whose autoescaper adds a tag between raw texts. -/
def tagging : Script where
  actions := NameMap.empty.insert FileSetRole.autoescaper.name
    [.append 0 (.rawText "a"), .append 0 (.htmlTag "b" false), .append 0 (.rawText "c")]

/-- What the autoescaper adds to an empty body ends as one raw text. -/
theorem run_simplifies_tagging :
    ∃ pipe : Pipeline,
      (Settings.ready.build tagging.factory.withBuiltins).result = .ok pipe ∧
      let run := pipe.runFileSet {} [⟨"a.soy", [{ id := 0, name := "a" }]⟩] {}
      run.signal = .goOn ∧ EveryBody Separated run.files ∧ EveryBody TagFree run.files ∧
      run.files = [⟨"a.soy", [{ id := 0, name := "a", body := [.rawText 0 "a<b>c"] }]⟩] := by
  refine ⟨_, rfl, ?_⟩
  intro run
  have hgoOn : run.signal = .goOn := rfl
  obtain ⟨hseparated, htagFree⟩ := run_simplifies (f := tagging.factory.withBuiltins)
    Settings.plan_ready rfl (by decide) (fun _ => rfl) _ _ _ hgoOn
  exact ⟨hgoOn, hseparated, htagFree rfl (fun _ => rfl) fun _ _ _ _ _ h => h, rfl⟩

end TemplatePasses
