/-
# A printed plan tells the plan

A plan is printed as text or as a document, and neither loses anything. The text is read
as two sections and the document as a record of two lists of names (`PlanNames.ofText`).
Both give the same names, and as a name stands for one role, these are the plan again
(`plan_told_in_both_formats`).

Key definitions: `PlanNames.plan?`, `PlanNames.ofText`.
Key theorems: `PlanNames.plan?_names`, `PlanNames.ofText_of_laidOut`, `render_injective`,
`plan_told_in_both_formats`.
-/
import TemplatePasses.Cli.Command
import TemplatePasses.Proofs.Catalog
import TemplatePasses.Proofs.PrintedText
import TemplatePasses.Proofs.RoundTrip

namespace TemplatePasses

/-! ### Names -/

/-- The names of the passes of a plan. -/
structure PlanNames where
  singleFile : List String
  fileSet : List String
deriving DecidableEq, Repr

def Plan.names (p : Plan) : PlanNames :=
  ⟨p.singleFileNames, p.fileSetNames⟩

namespace PlanNames

open Json Json.RecordForm

/-- The plan of these names, if all of them are known. -/
def plan? (names : PlanNames) : Option Plan := do
  let singleFile ← names.singleFile.mapM FileRole.ofName?
  let fileSet ← names.fileSet.mapM FileSetRole.ofName?
  some ⟨singleFile, fileSet⟩

theorem mapM_ofName? {α : Type} {name : α → String} {ofName? : String → Option α}
    (h : ∀ r, ofName? (name r) = some r) (roles : List α) :
    (roles.map name).mapM ofName? = some roles := by
  have hsome : ofName? ∘ name = fun r => pure r := funext h
  rw [List.mapM_map, hsome, List.mapM_pure, List.map_id']
  rfl

/-- **A plan is known by its names.** -/
theorem plan?_names (p : Plan) : p.names.plan? = some p := by
  have hfiles := mapM_ofName? FileRole.ofName?_name p.singleFile
  have hsets := mapM_ofName? FileSetRole.ofName?_name p.fileSet
  rw [plan?, Plan.names, Plan.singleFileNames, Plan.fileSetNames, hfiles, hsets]
  rfl

theorem names_injective : Function.Injective Plan.names := by
  intro p q h
  have hplans := congrArg plan? h
  rw [plan?_names, plan?_names] at hplans
  exact Option.some.inj hplans

/-- The two lists of a plan's document. -/
def form : RecordForm PlanNames where
  name := "PassPlan"
  blank := ⟨[], []⟩
  fields := [
    .mandatory "single_file_passes" (.list .text) fun v r => { r with singleFile := v },
    .mandatory "cross_template_checking_passes" (.list .text) fun v r => { r with fileSet := v }]

/-- Reads the names from the text of a document. -/
def ofText (text : String) : Except Fault PlanNames :=
  form.decode.decodeText text

theorem decode_tree (levels : Nat) (p : Plan) : form.decode (levels + 2) p.tree = .ok p.names := by
  have hturn : GiveInTurn (levels + 1) form.fields _ _ :=
    .field (decode_textsTree levels p.singleFileNames) <|
    .field (decode_textsTree levels p.fileSetNames) .nil
  exact decode_ofMembers (by decide) hturn

theorem written_tree (p : Plan) : p.tree.Written := by
  refine .object ?_
  simp only [List.forall_mem_cons, List.not_mem_nil, false_imp_iff, implies_true, and_true]
  exact ⟨written_textsTree _, written_textsTree _⟩

theorem ofText_of_laidOut (p : Plan) {text : List Char} (h : LaidOut p.tree.tokens text) :
    ofText (String.ofList text) = .ok p.names := by
  rw [ofText, decodeText_laidOut _ (written_tree p).complete h]
  exact decode_tree 125 p

theorem ofText_compact (p : Plan) : ofText p.tree.text = .ok p.names :=
  ofText_of_laidOut p (written_tree p).laidOut

theorem ofText_lines (p : Plan) : ofText (p.tree.lines ++ "\n") = .ok p.names := by
  have hend : LaidOut [] ['\n'] := .nil (List.forall_mem_singleton.2 rfl)
  have hlaid := ((written_tree p).laidOut_indented 0).append hend
  have htext : p.tree.lines ++ "\n" = String.ofList (p.tree.indented 0 ++ ['\n']) := by
    rw [String.ofList_append]
    rfl
  rw [List.append_nil] at hlaid
  rw [htext]
  exact ofText_of_laidOut p hlaid

/-- Plans are written apart if their names can be read. -/
theorem write_injective {write : Plan → String} (h : ∀ p, ofText (write p) = .ok p.names) :
    Function.Injective write := by
  intro p q heq
  have hnames := congrArg ofText heq
  rw [h, h] at hnames
  exact names_injective (Except.ok.inj hnames)

end PlanNames

/-! ### Both formats -/

open Printed

theorem Plan.names_eq_sections (p : Plan) :
    p.names = ⟨(Section.ofFiles p).names, (Section.ofFileSet p).names⟩ := by
  rw [Section.names_ofFiles, Section.names_ofFileSet]
  rfl

theorem Plan.text_injective : Function.Injective Plan.text := by
  intro p q h
  have hsections := congrArg Section.ofText? h
  rw [Section.ofText?_text, Section.ofText?_text] at hsections
  obtain ⟨hfiles, hrest⟩ := List.cons.inj (Option.some.inj hsections)
  obtain ⟨hsets, -⟩ := List.cons.inj hrest
  refine PlanNames.names_injective ?_
  rw [p.names_eq_sections, q.names_eq_sections, hfiles, hsets]

namespace Cli

theorem render_injective (format : OutputFormat) : Function.Injective format.render := by
  cases format with
  | text => exact Plan.text_injective
  | json => exact PlanNames.write_injective PlanNames.ofText_lines

/-- **A printed plan tells the plan, in both formats.** Take any plan. Its text is read
as two sections: each header gives the number of passes, and the line at each place has
the number of this place, counted from one, and the name of the pass that is there. The
document, on lines or without blanks, gives the names of the same passes in the same
order. Looked up, these names are the plan again. So no two plans are printed alike. -/
theorem plan_told_in_both_formats (p : Plan) :
    (∃ files sets : Section,
      Section.ofText? (OutputFormat.text.render p) = some [files, sets] ∧
      (files.title = "single-file passes" ∧ files.count = p.singleFile.length ∧
        ∀ i : Nat, files.entries[i]? = p.singleFile[i]?.map fun r => ⟨i + 1, r.name, none⟩) ∧
      (sets.title = "fileset passes" ∧ sets.count = p.fileSet.length ∧
        ∀ i : Nat, sets.entries[i]? =
          p.fileSet[i]?.map fun r => ⟨i + 1, r.name, some r.phase.name⟩) ∧
      PlanNames.ofText (OutputFormat.json.render p) = .ok ⟨files.names, sets.names⟩ ∧
      PlanNames.ofText p.tree.text = .ok ⟨files.names, sets.names⟩ ∧
      PlanNames.plan? ⟨files.names, sets.names⟩ = some p) ∧
    (∀ (format : OutputFormat) (q : Plan), format.render p = format.render q ↔ p = q) ∧
    ∀ q : Plan, p.tree.text = q.tree.text ↔ p = q := by
  refine ⟨⟨_, _, Section.ofText?_text p, ⟨rfl, rfl, getElem?_entriesFrom fileEntry 1 _⟩,
    ⟨rfl, rfl, getElem?_entriesFrom fileSetEntry 1 _⟩, ?_⟩,
    fun format q => (render_injective format).eq_iff,
    fun q => (PlanNames.write_injective PlanNames.ofText_compact).eq_iff⟩
  rw [← p.names_eq_sections]
  exact ⟨PlanNames.ofText_lines p, PlanNames.ofText_compact p, PlanNames.plan?_names p⟩

end Cli
end TemplatePasses
