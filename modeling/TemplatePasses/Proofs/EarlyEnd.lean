/-
# Configurations cut off are refused at their end

Each part of a configuration is streamed from the tree it is written as: if the text
ends inside of it, nothing else is wrong. And what is left of an object is never a
whole record, since its closing brace is missing. So a configuration's text is not
accepted before its last character, and each part of it from the beginning on is
refused because it ends too early (`PassConfig.ofText_cut`).

Key theorems: `GeneralOptions.streams_tree`, `ConformanceConfig.streams_tree`,
`LoggingConfig.streams_tree`, `PassConfig.streams_tree`, `PassConfig.ofText_cut`.
-/
import TemplatePasses.Proofs.RoundTrip
import TemplatePasses.Proofs.Streaming

namespace TemplatePasses

open Json Json.RecordForm

/-! ### Parts of a configuration -/

theorem streams_textsTree (texts : List String) :
    (Decoder.list .text).Streams (textsTree texts) :=
  streams_list (List.forall_mem_map.2 fun s _ => streams_text s)

theorem GeneralOptions.streams_tree {o : GeneralOptions}
    (hfree : ∀ e ∈ o.globals.entries, e.2.datum.DoubleFree) :
    GeneralOptions.decode.Streams o.tree := by
  have hglobals : (Decoder.map Value.decode).Streams
      (.ofMembers (o.globals.map Value.tree).entries) :=
    streams_map (List.forall_mem_map.2 (List.forall_mem_map.2 fun e he =>
      Value.streams_tree (hfree e he)))
  have hturn : StreamInTurn form.fields _ :=
    .field (streams_textsTree o.experimentalFeatures) <|
    .field hglobals <|
    .field (streams_variant _ o.strictAutoescaping.name) <|
    .field (streams_variant _ o.externalCalls.name) <|
    .field (streams_bool o.optimizer) .nil
  exact streams_ofMembers (Kind.form_regular .generalOptions).keys hturn

theorem ConformanceRequirement.streams_tree (r : ConformanceRequirement) :
    ConformanceRequirement.decode.Streams r.tree := by
  have hturn : StreamInTurn form.fields _ :=
    .field (streams_text r.name) <|
    .field (streams_text r.message) <|
    .field (streams_textsTree r.exempt) .nil
  exact streams_ofMembers (Kind.form_regular .requirement).keys hturn

theorem ConformanceConfig.streams_tree (c : ConformanceConfig) :
    ConformanceConfig.decode.Streams c.tree := by
  have hrequirements : (Decoder.list ConformanceRequirement.decode).Streams
      (.ofList (c.requirements.map ConformanceRequirement.tree)) :=
    streams_list (List.forall_mem_map.2 fun r _ => r.streams_tree)
  have hturn : StreamInTurn form.fields _ := .field hrequirements .nil
  exact streams_ofMembers (Kind.form_regular .conformance).keys hturn

theorem LoggableElement.streams_tree (e : LoggableElement) :
    LoggableElement.decode.Streams e.tree := by
  have hturn : StreamInTurn form.fields _ :=
    .field (streams_text e.name) <|
    .field (streams_int64 e.id) <|
    .field (streams_option_text e.protoType) .nil
  exact streams_ofMembers (Kind.form_regular .element).keys hturn

theorem LoggingConfig.streams_tree (c : LoggingConfig) : LoggingConfig.decode.Streams c.tree := by
  have helements : (Decoder.list LoggableElement.decode).Streams
      (.ofList (c.elements.map LoggableElement.tree)) :=
    streams_list (List.forall_mem_map.2 fun e _ => e.streams_tree)
  have hturn : StreamInTurn form.fields _ := .field helements .nil
  exact streams_ofMembers (Kind.form_regular .logging).keys hturn

/-! ### The whole configuration -/

namespace PassConfig

theorem streams_tree {c : PassConfig}
    (hfree : ∀ e ∈ c.options.globals.entries, e.2.datum.DoubleFree) :
    PassConfig.decode.Streams c.tree := by
  have hrules : (Decoder.map StopRule.decode).Streams
      (.ofMembers (c.rules.map StopRule.tree).entries) :=
    streams_map (List.forall_mem_map.2 (List.forall_mem_map.2 fun e _ =>
      streams_variant _ e.2.name))
  have hturn : StreamInTurn form.fields _ :=
    .field (streams_bool c.disableTypeChecking) <|
    .field (streams_bool c.allowUnknownGlobals) <|
    .field (streams_bool c.allowV1Expression) <|
    .field (streams_bool c.desugarHtml) <|
    .field (streams_bool c.optimize) <|
    .field (streams_bool c.autoescaper) <|
    .field (streams_bool c.debugAttributes) <|
    .field (GeneralOptions.streams_tree hfree) <|
    .field c.conformance.streams_tree <|
    .field c.logging.streams_tree <|
    .field hrules .nil
  exact streams_ofMembers (Kind.form_regular .passConfig).keys hturn

/-- **A configuration that is cut off is refused because it ends too early**, wherever
the cut is, if its globals hold no double and its text nests no deeper than a document
may. -/
theorem ofText_cut (c : PassConfig)
    (hfree : ∀ e ∈ c.options.globals.entries, e.2.datum.DoubleFree)
    (hdepth : c.tree.depth ≤ levelLimit) {before after : String}
    (hcut : c.tree.text = before ++ after) (hafter : after ≠ "") :
    ∃ fault, PassConfig.ofText before = .error fault ∧ fault.category = .eof := by
  have hglobals : ∀ e ∈ c.options.globals.entries, e.2.tree.depth ≤ 122 + 2 :=
    depth_globals_le hdepth
  have hwhole : PassConfig.decode levelLimit c.tree = .ok c := decode_tree hfree hglobals
  obtain ⟨d, more, hlast⟩ := List.exists_cons_of_ne_nil (mt String.toList_eq_nil_iff.1 hafter)
  have hcompact : c.tree.compact = before.toList ++ d :: more := by
    rw [← hlast, ← String.toList_append, ← hcut, Tree.text, String.toList_ofList]
  obtain ⟨t', htcut, hread⟩ := read_cut (written_tree hfree) hcompact
  have hends : FailsAtEnd (PassConfig.decode levelLimit t') :=
    streams_tree hfree levelLimit c t' hwhole htcut
  have hrefused : ∀ r, PassConfig.decode levelLimit t' ≠ .ok r := decode_cut_ne_ok htcut
  rw [PassConfig.ofText, Decoder.decodeText, hread]
  cases hdecode : PassConfig.decode levelLimit t' with
  | ok r => exact absurd hdecode (hrefused r)
  | error fault => exact ⟨fault, rfl, hends fault hdecode⟩

/-- The text of `everyPart` up to the first digits of its smallest integer. -/
def everyPartUpToInteger : List Char :=
  everyPart.tree.compact.take 306

theorem ofText_cut_everyPart :
    ∃ fault, PassConfig.ofText (String.ofList everyPartUpToInteger) = .error fault ∧
      fault.category = .eof := by
  have hcut : everyPart.tree.text = String.ofList everyPartUpToInteger ++
      String.ofList (everyPart.tree.compact.drop 306) := by
    rw [Tree.text, everyPartUpToInteger, ← String.ofList_append, List.take_append_drop]
  have hafter : String.ofList (everyPart.tree.compact.drop 306) ≠ "" := by
    rw [Ne, String.ofList_eq_empty_iff]
    decide +kernel
  exact ofText_cut everyPart doubleFree_everyPart (by decide) hcut hafter

example : everyPartUpToInteger.drop 303 = ['-', '9', '2'] := by decide +kernel

end PassConfig
end TemplatePasses
