/-
# Configurations come back from their text

Each part of a configuration is read back from the tree it is written as, and the
tree from its text; so a configuration comes back from its text, as long as its
globals hold no double and the text does not nest deeper than documents may
(`PassConfig.ofText_text`).

Key theorems: `GeneralOptions.decode_tree`, `ConformanceConfig.decode_tree`,
`LoggingConfig.decode_tree`, `PassConfig.decode_tree`, `PassConfig.ofText_text`.
-/
import TemplatePasses.Proofs.Decoding
import TemplatePasses.Proofs.Rearranging

namespace TemplatePasses

open Json Json.RecordForm

variable {levels : Nat}

/-! ### Switches, rules and texts -/

theorem Toggle.decode_tree (levels : Nat) (t : Toggle) : Toggle.decode levels t.tree = .ok t :=
  variant_ofString (by cases t <;> rfl) levels

theorem StopRule.decode_tree (levels : Nat) (r : StopRule) :
    StopRule.decode levels r.tree = .ok r :=
  variant_ofString (by cases r <;> rfl) levels

theorem decode_textsTree (levels : Nat) (texts : List String) :
    Decoder.list .text (levels + 1) (textsTree texts) = .ok texts :=
  list_ofList fun s _ => text_ofString levels s

theorem written_textsTree (texts : List String) : (textsTree texts).Written := by
  refine .list fun t ht => ?_
  obtain ⟨s, -, rfl⟩ := List.mem_map.1 ht
  exact .text s

/-! ### General options -/

namespace GeneralOptions

/-- General options are read back, if their globals do not nest too deep. -/
theorem decode_tree {o : GeneralOptions}
    (hfree : ∀ e ∈ o.globals.entries, e.2.datum.DoubleFree)
    (hdepth : ∀ e ∈ o.globals.entries, e.2.tree.depth ≤ levels) :
    GeneralOptions.decode (levels + 2) o.tree = .ok o := by
  have hglobals : Decoder.map Value.decode (levels + 1)
      (.ofMembers (o.globals.map Value.tree).entries) = .ok o.globals :=
    map_ofMembers fun e he => Value.decode_tree (hfree e he) (hdepth e he)
  have hturn : GiveInTurn (levels + 1) form.fields _ _ :=
    .field (decode_textsTree levels o.experimentalFeatures) <|
    .field hglobals <|
    .field (Toggle.decode_tree _ o.strictAutoescaping) <|
    .field (Toggle.decode_tree _ o.externalCalls) <|
    .field (bool_ofBool _ o.optimizer) .nil
  exact decode_ofMembers (Kind.form_regular .generalOptions).keys hturn

theorem written_tree {o : GeneralOptions}
    (hfree : ∀ e ∈ o.globals.entries, e.2.datum.DoubleFree) : o.tree.Written := by
  refine .object ?_
  simp only [List.forall_mem_cons, List.not_mem_nil, false_imp_iff, implies_true, and_true]
  refine ⟨written_textsTree _, .object fun m hm => ?_, .text _, .text _, .word _⟩
  obtain ⟨e, he, rfl⟩ := List.mem_map.1 hm
  exact (hfree e he).written

end GeneralOptions

/-! ### Conformance -/

theorem ConformanceRequirement.decode_tree (levels : Nat) (r : ConformanceRequirement) :
    ConformanceRequirement.decode (levels + 2) r.tree = .ok r := by
  have hturn : GiveInTurn (levels + 1) form.fields _ _ :=
    .field (text_ofString _ r.name) <|
    .field (text_ofString _ r.message) <|
    .field (decode_textsTree levels r.exempt) .nil
  exact decode_ofMembers (Kind.form_regular .requirement).keys hturn

theorem ConformanceRequirement.written_tree (r : ConformanceRequirement) : r.tree.Written := by
  refine .object ?_
  simp only [List.forall_mem_cons, List.not_mem_nil, false_imp_iff, implies_true, and_true]
  exact ⟨.text _, .text _, written_textsTree _⟩

theorem ConformanceConfig.decode_tree (levels : Nat) (c : ConformanceConfig) :
    ConformanceConfig.decode (levels + 4) c.tree = .ok c := by
  have hrequirements : Decoder.list ConformanceRequirement.decode (levels + 3)
      (.ofList (c.requirements.map ConformanceRequirement.tree)) = .ok c.requirements :=
    list_ofList fun r _ => r.decode_tree levels
  have hturn : GiveInTurn (levels + 3) form.fields _ _ := .field hrequirements .nil
  exact decode_ofMembers (Kind.form_regular .conformance).keys hturn

theorem ConformanceConfig.written_tree (c : ConformanceConfig) : c.tree.Written := by
  refine .object (List.forall_mem_singleton.2 (.list fun t ht => ?_))
  obtain ⟨r, -, rfl⟩ := List.mem_map.1 ht
  exact r.written_tree

/-! ### Logging -/

theorem LoggableElement.decode_tree (levels : Nat) (e : LoggableElement) :
    LoggableElement.decode (levels + 1) e.tree = .ok e := by
  have hturn : GiveInTurn levels form.fields _ _ :=
    .field (text_ofString _ e.name) <|
    .field (int64_ofInt _ e.id) <|
    .field (option_text _ e.protoType) .nil
  exact decode_ofMembers (Kind.form_regular .element).keys hturn

theorem LoggableElement.written_tree (e : LoggableElement) : e.tree.Written := by
  refine .object ?_
  simp only [List.forall_mem_cons, List.not_mem_nil, false_imp_iff, implies_true, and_true]
  refine ⟨.text _, .integer _, ?_⟩
  cases e.protoType with
  | none => exact .word .null
  | some t => exact .text t

theorem LoggingConfig.decode_tree (levels : Nat) (c : LoggingConfig) :
    LoggingConfig.decode (levels + 3) c.tree = .ok c := by
  have helements : Decoder.list LoggableElement.decode (levels + 2)
      (.ofList (c.elements.map LoggableElement.tree)) = .ok c.elements :=
    list_ofList fun e _ => e.decode_tree levels
  have hturn : GiveInTurn (levels + 2) form.fields _ _ := .field helements .nil
  exact decode_ofMembers (Kind.form_regular .logging).keys hturn

theorem LoggingConfig.written_tree (c : LoggingConfig) : c.tree.Written := by
  refine .object (List.forall_mem_singleton.2 (.list fun t ht => ?_))
  obtain ⟨e, -, rfl⟩ := List.mem_map.1 ht
  exact e.written_tree

/-! ### The whole configuration -/

namespace PassConfig

/-- A configuration is read back from its tree. -/
theorem decode_tree {c : PassConfig}
    (hfree : ∀ e ∈ c.options.globals.entries, e.2.datum.DoubleFree)
    (hdepth : ∀ e ∈ c.options.globals.entries, e.2.tree.depth ≤ levels + 2) :
    PassConfig.decode (levels + 5) c.tree = .ok c := by
  have hrules : Decoder.map StopRule.decode (levels + 4)
      (.ofMembers (c.rules.map StopRule.tree).entries) = .ok c.rules :=
    map_ofMembers fun e _ => StopRule.decode_tree (levels + 3) e.2
  have hturn : GiveInTurn (levels + 4) form.fields _ _ :=
    .field (bool_ofBool _ c.disableTypeChecking) <|
    .field (bool_ofBool _ c.allowUnknownGlobals) <|
    .field (bool_ofBool _ c.allowV1Expression) <|
    .field (bool_ofBool _ c.desugarHtml) <|
    .field (bool_ofBool _ c.optimize) <|
    .field (bool_ofBool _ c.autoescaper) <|
    .field (bool_ofBool _ c.debugAttributes) <|
    .field (GeneralOptions.decode_tree hfree hdepth) <|
    .field (ConformanceConfig.decode_tree levels c.conformance) <|
    .field (LoggingConfig.decode_tree (levels + 1) c.logging) <|
    .field hrules .nil
  exact decode_ofMembers (Kind.form_regular .passConfig).keys hturn

theorem written_tree {c : PassConfig}
    (hfree : ∀ e ∈ c.options.globals.entries, e.2.datum.DoubleFree) : c.tree.Written := by
  refine .object ?_
  simp only [List.forall_mem_cons, List.not_mem_nil, false_imp_iff, implies_true, and_true]
  refine ⟨.word _, .word _, .word _, .word _, .word _, .word _, .word _,
    GeneralOptions.written_tree hfree, c.conformance.written_tree, c.logging.written_tree,
    .object fun m hm => ?_⟩
  obtain ⟨e, -, rfl⟩ := List.mem_map.1 hm
  exact .text _

/-- The globals lie three levels inside the configuration. -/
theorem depth_globals_le {c : PassConfig} (h : c.tree.depth ≤ levels + 3) :
    ∀ e ∈ c.options.globals.entries, e.2.tree.depth ≤ levels := by
  have hoptions : c.options.tree.depth ≤ levels + 2 :=
    depth_ofMembers_le_iff.1 h ("options", c.options.tree) (by simp)
  have hglobals : (Tree.ofMembers (c.options.globals.map Value.tree).entries).depth ≤ levels + 1 :=
    depth_ofMembers_le_iff.1 hoptions _ (List.mem_cons_of_mem _ (List.mem_cons_self ..))
  exact List.forall_mem_map.1 (depth_ofMembers_le_iff.1 hglobals)

/-- **A configuration comes back from its text**, if its globals hold no double and
the text nests no deeper than a document may. -/
theorem ofText_text (c : PassConfig)
    (hfree : ∀ e ∈ c.options.globals.entries, e.2.datum.DoubleFree)
    (hdepth : c.tree.depth ≤ levelLimit) : PassConfig.ofText c.tree.text = .ok c := by
  have hwritten := written_tree hfree
  have hglobals : ∀ e ∈ c.options.globals.entries, e.2.tree.depth ≤ 122 + 2 :=
    depth_globals_le hdepth
  rw [Tree.text, ofText_of_laidOut hwritten.complete hwritten.laidOut]
  exact decode_tree hfree hglobals

/-- A configuration with something in every part: the ends of the integers, characters
of every kind, and all forms of data without doubles. -/
def everyPart : PassConfig where
  optimize := false
  options := {
    experimentalFeatures := ["\x00\n\"\\/é😀"]
    globals := NameMap.empty.insert "LIMITS" <| .list [.null, .bool true,
      .number (.integer ⟨-0x8000_0000_0000_0000, by decide, by decide⟩),
      .number (.integer ⟨0xFFFF_FFFF_FFFF_FFFF, by decide, by decide⟩), .text "",
      .object (NameMap.empty.insert "none" (.list []))]
    externalCalls := .disabled }
  conformance := ⟨[{ name := "rule", exempt := ["a/", "b/"] }]⟩
  logging := ⟨[⟨"one", -9223372036854775808, none⟩, ⟨"two", 9223372036854775807, some "T"⟩]⟩
  rules := NameMap.empty.insert "ResolvePlugins" .after

theorem doubleFree_everyPart :
    ∀ e ∈ everyPart.options.globals.entries, e.2.datum.DoubleFree := by
  refine List.forall_mem_singleton.2 (.list ?_)
  simp only [List.map_cons, List.map_nil, List.forall_mem_cons]
  exact ⟨.null, .bool _, .integer _, .integer _, .text _,
    .object (List.forall_mem_singleton.2 (.list (List.forall_mem_nil _))), List.forall_mem_nil _⟩

theorem ofText_text_everyPart : PassConfig.ofText everyPart.tree.text = .ok everyPart :=
  ofText_text everyPart doubleFree_everyPart (by decide)

end PassConfig
end TemplatePasses
