/-
# Decoders take back what is written

For each decoder there is a way of writing what it reads, and it takes back what
has been written: single values, lists and maps if the decoders inside them do,
records if their fields do (`RecordForm.decode_ofMembers`), and values of any form
if no number among them is a double (`Value.decode_tree`). A decoder enters as many
levels of lists and objects as the tree has (`Tree.depth`).

Key definitions: `Tree.depth`, `Datum.DoubleFree`, `RecordForm.GiveInTurn`.
Key theorems: `list_ofList`, `map_ofMembers`, `RecordForm.decode_ofMembers`,
`Value.decode_tree`.
-/
import TemplatePasses.Json.Value
import TemplatePasses.Proofs.Records
import TemplatePasses.Proofs.Writing

namespace TemplatePasses

/-! ### Maps from their entries -/

namespace NameMap

variable {α : Type}

/-- A name behind all others is entered at the end. -/
theorem insertEntry_of_last {name : String} {value : α} {es : List (String × α)}
    (h : ∀ e ∈ es, e.1 < name) : insertEntry name value es = es ++ [(name, value)] := by
  induction es with
  | nil => rfl
  | cons e es ih =>
    obtain ⟨he, hes⟩ := List.forall_mem_cons.1 h
    have hnlt : ¬name < e.1 := String.lt_asymm he
    have hne : name ≠ e.1 := fun h => String.lt_irrefl _ (h ▸ he)
    rw [insertEntry, if_neg hnlt, if_neg hne, ih hes]
    rfl

theorem entries_foldl_insert {pairs : List (String × α)} {m : NameMap α}
    (h : (m.entries ++ pairs).Pairwise fun a b => a.1 < b.1) :
    (pairs.foldl (fun m p => m.insert p.1 p.2) m).entries = m.entries ++ pairs := by
  induction pairs generalizing m with
  | nil => rw [List.foldl_nil, List.append_nil]
  | cons p pairs ih =>
    have hlast : ∀ e ∈ m.entries, e.1 < p.1 := fun e he =>
      (List.pairwise_append.1 h).2.2 e he p (List.mem_cons_self ..)
    have hinsert : (m.insert p.1 p.2).entries = m.entries ++ [p] := insertEntry_of_last hlast
    have hsplit : m.entries ++ p :: pairs = (m.insert p.1 p.2).entries ++ pairs := by
      rw [hinsert, List.append_assoc, List.singleton_append]
    rw [List.foldl_cons, hsplit, ih (hsplit ▸ h)]

theorem ofList_entries (m : NameMap α) : ofList m.entries = m := by
  obtain ⟨entries, ascending⟩ := m
  have hentries : (ofList entries).entries = entries := entries_foldl_insert ascending
  show ofList entries = _
  generalize ofList entries = m at hentries
  subst hentries
  rfl

end NameMap

namespace Json

/-! ### How deep a tree nests -/

mutual

/-- The number of lists and objects inside each other. -/
def Tree.depth : Tree → Nat
  | .missing | .leaf _ => 0
  | .list items _ => depthItems items + 1
  | .object members _ => depthMembers members + 1

def depthItems : List Tree → Nat
  | [] => 0
  | t :: rest => max t.depth (depthItems rest)

def depthMembers : List (QuotedText × Tree) → Nat
  | [] => 0
  | (_, t) :: rest => max t.depth (depthMembers rest)

end

theorem depthItems_le_iff {levels : Nat} {items : List Tree} :
    depthItems items ≤ levels ↔ ∀ t ∈ items, t.depth ≤ levels := by
  induction items with
  | nil => simp [depthItems]
  | cons t rest ih => rw [depthItems, Nat.max_le, ih, List.forall_mem_cons]

theorem depthMembers_le_iff {levels : Nat} {members : List (QuotedText × Tree)} :
    depthMembers members ≤ levels ↔ ∀ m ∈ members, m.2.depth ≤ levels := by
  induction members with
  | nil => simp [depthMembers]
  | cons m rest ih => rw [depthMembers, Nat.max_le, ih, List.forall_mem_cons]

theorem depth_ofMembers_le_iff {levels : Nat} {members : List (String × Tree)} :
    (Tree.ofMembers members).depth ≤ levels + 1 ↔ ∀ m ∈ members, m.2.depth ≤ levels := by
  rw [Tree.ofMembers, Tree.depth, Nat.add_le_add_iff_right, depthMembers_le_iff,
    List.forall_mem_map]

/-! ### Single values -/

theorem text_ofString (levels : Nat) (s : String) :
    Decoder.text levels (.ofString s) = .ok s :=
  QuotedText.value_ofString s

theorem bool_ofBool (levels : Nat) (b : Bool) : Decoder.bool levels (.ofBool b) = .ok b := by
  cases b <;> rfl

theorem int64_ofInt (levels : Nat) (i : Int64) :
    Decoder.int64 levels (.leaf (.numeral (.ofInt i.toInt))) = .ok i := by
  have hlower : -0x8000_0000_0000_0000 ≤ i.toInt := Int64.le_toInt i
  have hupper : i.toInt < 0x8000_0000_0000_0000 := Int64.toInt_lt i
  have hvalue : (Numeral.ofInt i.toInt).value =
      .ok (.integer ⟨i.toInt, hlower, Int.lt_trans hupper (by decide)⟩) :=
    Numeral.value_ofInt ⟨i.toInt, _, _⟩
  rw [Decoder.int64, hvalue, ok_bind]
  show (if i.toInt < 0x8000_0000_0000_0000 then Except.ok (Int64.ofInt i.toInt) else _) = _
  rw [if_pos hupper, Int64.ofInt_toInt]

theorem option_text (levels : Nat) (s : Option String) :
    Decoder.option Decoder.text levels
      (match s with
        | some s => .ofString s
        | none => .null) = .ok s := by
  cases s with
  | none => rfl
  | some s =>
    show some <$> Decoder.text levels (.ofString s) = _
    rw [text_ofString]
    rfl

theorem variant_ofString {α : Type} {variants : List (String × α)} {name : String} {a : α}
    (h : variants.lookup name = some a) (levels : Nat) :
    Decoder.variant variants levels (.ofString name) = .ok a := by
  show Decoder.variantName variants (.ofString name) = .ok a
  rw [Decoder.variantName, QuotedText.value_ofString, ok_bind, h]

/-! ### Lists and maps -/

section

variable {α : Type} {d : Decoder α} {levels : Nat} {write : α → Tree}

theorem items_map {as : List α} (h : ∀ a ∈ as, d levels (write a) = .ok a) :
    Decoder.items d levels (as.map write) = .ok as := by
  induction as with
  | nil => rfl
  | cons a as ih =>
    obtain ⟨ha, has⟩ := List.forall_mem_cons.1 h
    rw [List.map_cons, Decoder.items, ha, ok_bind, ih has, ok_bind]

theorem list_ofList {as : List α} (h : ∀ a ∈ as, d levels (write a) = .ok a) :
    Decoder.list d (levels + 1) (.ofList (as.map write)) = .ok as := by
  show (do
    let as ← Decoder.items d levels (as.map write)
    ListEnd.closed.check
    Except.ok as) = _
  rw [items_map h]
  rfl

theorem entries_map {es : List (String × α)} (h : ∀ e ∈ es, d levels (write e.2) = .ok e.2) :
    Decoder.entries d levels (es.map fun e => (.ofString e.1, write e.2)) = .ok es := by
  induction es with
  | nil => rfl
  | cons e es ih =>
    obtain ⟨he, hes⟩ := List.forall_mem_cons.1 h
    rw [List.map_cons, Decoder.entries, QuotedText.value_ofString, ok_bind, he, ok_bind, ih hes,
      ok_bind]

theorem map_ofMembers {m : NameMap α} (h : ∀ e ∈ m.entries, d levels (write e.2) = .ok e.2) :
    Decoder.map d (levels + 1) (.ofMembers (m.map write).entries) = .ok m := by
  have htree : Tree.ofMembers (m.map write).entries =
      .object (m.entries.map fun e => (.ofString e.1, write e.2)) .closed := by
    rw [Tree.ofMembers, NameMap.map, List.map_map]
    rfl
  rw [htree]
  show (do
    let es ← Decoder.entries d levels (m.entries.map fun e => (.ofString e.1, write e.2))
    ObjectEnd.closed.check fun key => do let _ ← key.value; .ok ()
    Except.ok (NameMap.ofList es)) = Except.ok m
  rw [entries_map h, ok_bind]
  exact congrArg Except.ok m.ofList_entries

end

/-! ### Records -/

namespace RecordForm

variable {ρ : Type} {form : RecordForm ρ} {levels : Nat}

/-- Members that give these fields one after the other, and their effects. -/
inductive GiveInTurn (levels : Nat) :
    List (Field ρ) → List (String × Tree) → FoundFields ρ → Prop
  | nil : GiveInTurn levels [] [] []
  | cons {f : Field ρ} {fields : List (Field ρ)} {t : Tree} {members : List (String × Tree)}
      {effect : ρ → ρ} {found : FoundFields ρ} : f.decode levels t = .ok effect →
    GiveInTurn levels fields members found →
    GiveInTurn levels (f :: fields) ((f.key, t) :: members) ((f.key, effect) :: found)

namespace GiveInTurn

variable {fields : List (Field ρ)} {members : List (String × Tree)} {found : FoundFields ρ}

/-- A field gives what its value is read as. -/
theorem field {α : Type} {key : String} {required : Bool} {d : Decoder α} {set : α → ρ → ρ}
    {t : Tree} {a : α} (h : d levels t = .ok a) (hrest : GiveInTurn levels fields members found) :
    GiveInTurn levels (⟨key, required, fun levels tree => set <$> d levels tree⟩ :: fields)
      ((key, t) :: members) ((key, set a) :: found) := by
  refine .cons ?_ hrest
  show set <$> d levels t = _
  rw [h]
  rfl

theorem keys (h : GiveInTurn levels fields members found) :
    found.map (·.1) = fields.map (·.key) := by
  induction h with
  | nil => rfl
  | cons _ _ ih => rw [List.map_cons, List.map_cons, ih]

theorem given_eq (h : GiveInTurn levels fields members found)
    (hfields : ∀ f ∈ fields, form.field? f.key = some f) :
    (∀ m ∈ members, (form.give levels (.ofString m.1, m.2)).isSome = true) ∧
      form.given levels (members.map fun m => (.ofString m.1, m.2)) = found := by
  induction h with
  | nil => exact ⟨nofun, rfl⟩
  | @cons f fields t members effect found heffect _ ih =>
    obtain ⟨hf, hfields⟩ := List.forall_mem_cons.1 hfields
    obtain ⟨hreadable, hgiven⟩ := ih hfields
    have hgive : form.give levels (.ofString f.key, t) = some (some (f.key, effect)) :=
      give_eq_some_some_iff.2 ⟨f, QuotedText.value_ofString f.key, hf, heffect⟩
    refine ⟨List.forall_mem_cons.2 ⟨by rw [hgive]; rfl, hreadable⟩, ?_⟩
    rw [List.map_cons, given_cons_of_give_some hgive, hgiven]

theorem foldl_applyFound {all : FoundFields ρ} (h : GiveInTurn levels fields members found)
    (hall : ∀ e ∈ found, all.lookup e.1 = some e.2) (r : ρ) :
    fields.foldl (applyFound all) r = found.foldl (fun r e => e.2 r) r := by
  induction h generalizing r with
  | nil => rfl
  | cons _ _ ih =>
    obtain ⟨he, hall⟩ := List.forall_mem_cons.1 hall
    rw [List.foldl_cons, List.foldl_cons, applyFound_of_some he]
    exact ih hall _

end GiveInTurn

/-- **A record is taken back from an object that gives its fields in turn.** It is
the blank record with their effects, one after the other. -/
theorem decode_ofMembers {members : List (String × Tree)} {found : FoundFields ρ}
    (hkeys : (form.fields.map (·.key)).Nodup)
    (h : GiveInTurn levels form.fields members found) :
    form.decode (levels + 1) (.ofMembers members) =
      .ok (found.foldl (fun r e => e.2 r) form.blank) := by
  obtain ⟨hreadable, hgiven⟩ := h.given_eq fun f hf => field?_of_mem hkeys hf
  have honce : (found.map (·.1)).Nodup := h.keys ▸ hkeys
  have hlookup : ∀ e ∈ found, found.lookup e.1 = some e.2 := fun e he =>
    (lookup_eq_some_iff_mem honce).2 he
  refine decode_object_iff.2 ⟨⟨?_, hgiven.symm ▸ honce, ?_⟩, ?_⟩
  · intro m hm
    obtain ⟨e, he, rfl⟩ := List.mem_map.1 hm
    exact hreadable e he
  · intro f hf _
    rw [hgiven]
    have hkey : f.key ∈ found.map (·.1) := h.keys ▸ List.mem_map_of_mem hf
    obtain ⟨e, he, hfe⟩ := List.mem_map.1 hkey
    rw [← hfe, hlookup e he]
    exact Option.some_ne_none _
  · rw [hgiven]
    exact (h.foldl_applyFound hlookup form.blank).symm

end RecordForm

/-! ### Values of any form -/

/-- No number of the data is a double. -/
inductive Datum.DoubleFree : Datum → Prop
  | null : Datum.null.DoubleFree
  | bool (b : Bool) : (Datum.bool b).DoubleFree
  | integer (n : WideInt) : (Datum.number (.integer n)).DoubleFree
  | text (s : String) : (Datum.text s).DoubleFree
  | list {items : List Datum} : (∀ d ∈ items, d.DoubleFree) → (Datum.list items).DoubleFree
  | object {members : List (String × Datum)} : (∀ m ∈ members, m.2.DoubleFree) →
    (Datum.object members).DoubleFree

namespace Datum

theorem treeItems_eq_map (items : List Datum) : treeItems items = items.map tree := by
  induction items with
  | nil => rfl
  | cons d rest ih => rw [treeItems, ih, List.map_cons]

theorem treeMembers_eq_map (members : List (String × Datum)) :
    treeMembers members = members.map fun m => (.ofString m.1, m.2.tree) := by
  induction members with
  | nil => rfl
  | cons m rest ih => rw [treeMembers, ih, List.map_cons]

theorem DoubleFree.written {d : Datum} (h : d.DoubleFree) : d.tree.Written := by
  induction h with
  | null => exact .word .null
  | bool b => exact .word _
  | integer n => exact .integer n.val
  | text s => exact .text s
  | list _ ih =>
    rw [tree, treeItems_eq_map]
    refine .list fun t ht => ?_
    obtain ⟨d, hd, rfl⟩ := List.mem_map.1 ht
    exact ih d hd
  | @object members _ ih =>
    have htree : (Datum.object members).tree =
        .ofMembers (members.map fun m => (m.1, m.2.tree)) := by
      rw [tree, treeMembers_eq_map, Tree.ofMembers, List.map_map]
      rfl
    rw [htree]
    refine .object fun m hm => ?_
    obtain ⟨e, he, rfl⟩ := List.mem_map.1 hm
    exact ih e he

end Datum

namespace Value

theorem decode_list {vs : List Value} {levels : Nat}
    (h : ∀ v ∈ vs, decode levels v.tree = .ok v) :
    decode (levels + 1) (list vs).tree = .ok (list vs) := by
  have htree : (list vs).tree = .list (vs.map tree) .closed := by
    rw [tree, list, Datum.tree, Datum.treeItems_eq_map, List.map_map]
    rfl
  rw [htree, decode]
  show (do
    let vs ← decodeItems levels (vs.map tree)
    ListEnd.closed.check
    Except.ok (list vs)) = _
  rw [decodeItems_eq, items_map h]
  rfl

theorem decode_object {m : NameMap Value} {levels : Nat}
    (h : ∀ e ∈ m.entries, decode levels e.2.tree = .ok e.2) :
    decode (levels + 1) (object m).tree = .ok (object m) := by
  have htree : (object m).tree =
      .object (m.entries.map fun e => (.ofString e.1, e.2.tree)) .closed := by
    rw [tree, object, Datum.tree, Datum.treeMembers_eq_map, NameMap.map, List.map_map]
    rfl
  rw [htree, decode]
  show (do
    let vs ← decodeMembers levels (m.entries.map fun e => (.ofString e.1, e.2.tree))
    ObjectEnd.closed.check fun key => do let _ ← key.value; .ok ()
    Except.ok (object (NameMap.ofList vs))) = Except.ok (object m)
  rw [decodeMembers_eq, entries_map h, ok_bind]
  show Except.ok (object (NameMap.ofList m.entries)) = _
  rw [m.ofList_entries]

/-- Items in order are data of values. -/
theorem exists_list {items : List Datum} (h : Datum.OrderedItems items) :
    ∃ vs : List Value, vs.map datum = items := by
  have hitems := (Datum.orderedItems_iff items).1 h
  exact ⟨items.pmap mk hitems, by simp [List.map_pmap]⟩

/-- Members in order are data of a map. -/
theorem exists_nameMap {members : List (String × Datum)} (h : (Datum.object members).Ordered) :
    ∃ m : NameMap Value, (m.map datum).entries = members := by
  have hmembers := (Datum.orderedMembers_iff members).1 h.2
  refine ⟨⟨members.pmap (fun e he => (e.1, ⟨e.2, he⟩)) hmembers, ?_⟩, ?_⟩
  · exact h.1.pmap hmembers fun _ _ _ _ hlt => hlt
  · simp [NameMap.map, List.map_pmap]

/-- Data without doubles are read as themselves, if they do not nest too deep. -/
theorem decode_datum_tree {d : Datum} (h : d.DoubleFree) :
    ∀ (hordered : d.Ordered) {levels : Nat}, d.tree.depth ≤ levels →
      decode levels d.tree = .ok ⟨d, hordered⟩ := by
  induction h with
  | null => exact fun _ _ _ => by rw [Datum.tree]; rfl
  | bool b =>
    intro _ levels _
    rw [Datum.tree]
    cases b <;> rfl
  | integer n =>
    intro _ levels _
    show number <$> (Numeral.ofInt n.val).value = _
    rw [Numeral.value_ofInt]
    rfl
  | text s =>
    intro _ levels _
    show text <$> (QuotedText.ofString s).value = _
    rw [QuotedText.value_ofString]
    rfl
  | list _ ih =>
    intro hordered levels hdepth
    obtain ⟨vs, rfl⟩ := exists_list hordered
    rw [Datum.tree, Datum.treeItems_eq_map, Tree.depth] at hdepth
    cases levels with
    | zero => exact absurd hdepth (Nat.not_succ_le_zero _)
    | succ levels =>
      have hitems := depthItems_le_iff.1 (Nat.le_of_succ_le_succ hdepth)
      refine decode_list fun v hv => ?_
      have hmem : v.datum ∈ vs.map datum := List.mem_map_of_mem hv
      exact ih v.datum hmem v.ordered (hitems _ (List.mem_map_of_mem hmem))
  | object _ ih =>
    intro hordered levels hdepth
    obtain ⟨m, rfl⟩ := exists_nameMap hordered
    rw [Datum.tree, Datum.treeMembers_eq_map, Tree.depth] at hdepth
    cases levels with
    | zero => exact absurd hdepth (Nat.not_succ_le_zero _)
    | succ levels =>
      have hmembers := depthMembers_le_iff.1 (Nat.le_of_succ_le_succ hdepth)
      refine decode_object fun e he => ?_
      have hmem : (e.1, e.2.datum) ∈ (m.map datum).entries := List.mem_map.2 ⟨e, he, rfl⟩
      exact ih _ hmem e.2.ordered
        (hmembers (.ofString e.1, e.2.tree) (List.mem_map.2 ⟨_, hmem, rfl⟩))

/-- **A value without doubles is read as itself**, if it does not nest too deep. -/
theorem decode_tree {v : Value} (h : v.datum.DoubleFree) {levels : Nat}
    (hdepth : v.tree.depth ≤ levels) : decode levels v.tree = .ok v :=
  decode_datum_tree h v.ordered hdepth

end Value

end Json
end TemplatePasses
