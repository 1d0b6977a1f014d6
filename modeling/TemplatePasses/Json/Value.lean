/-
# Values of any form

A `Value` is what a document says where its form is left open. Its objects
have their members in ascending order of the keys, so equal values have equal
representations. The underlying data are a `Datum`, whose objects may list
anything in any order; a `Value` is a datum with all objects in order.

Key definitions: `Datum`, `Value`, `Value.decode`, `Datum.tree`, `Datum.shown`.
-/
import TemplatePasses.Json.Decoder
import TemplatePasses.Json.Layout

namespace TemplatePasses.Json

open TemplatePasses.Text

/-- Data of any form. -/
inductive Datum where
  | null
  | bool (b : Bool)
  | number (n : Number)
  | text (s : String)
  | list (items : List Datum)
  | object (members : List (String × Datum))

namespace Datum

mutual

def decEq : (a b : Datum) → Decidable (a = b)
  | .null, .null => isTrue rfl
  | .bool a, .bool b =>
    if h : a = b then isTrue (h ▸ rfl) else isFalse fun e => h (by injection e)
  | .number a, .number b =>
    if h : a = b then isTrue (h ▸ rfl) else isFalse fun e => h (by injection e)
  | .text a, .text b =>
    if h : a = b then isTrue (h ▸ rfl) else isFalse fun e => h (by injection e)
  | .list as, .list bs =>
    match decEqItems as bs with
    | isTrue h => isTrue (h ▸ rfl)
    | isFalse h => isFalse fun e => h (by injection e)
  | .object as, .object bs =>
    match decEqMembers as bs with
    | isTrue h => isTrue (h ▸ rfl)
    | isFalse h => isFalse fun e => h (by injection e)
  | .null, .bool _ | .null, .number _ | .null, .text _ | .null, .list _ | .null, .object _
  | .bool _, .null | .bool _, .number _ | .bool _, .text _ | .bool _, .list _ | .bool _, .object _
  | .number _, .null | .number _, .bool _ | .number _, .text _ | .number _, .list _
  | .number _, .object _
  | .text _, .null | .text _, .bool _ | .text _, .number _ | .text _, .list _ | .text _, .object _
  | .list _, .null | .list _, .bool _ | .list _, .number _ | .list _, .text _ | .list _, .object _
  | .object _, .null | .object _, .bool _ | .object _, .number _ | .object _, .text _
  | .object _, .list _ => isFalse nofun

def decEqItems : (as bs : List Datum) → Decidable (as = bs)
  | [], [] => isTrue rfl
  | a :: as, b :: bs =>
    match decEq a b, decEqItems as bs with
    | isTrue h, isTrue hs => isTrue (h ▸ hs ▸ rfl)
    | isFalse h, _ => isFalse fun e => h (List.cons.inj e).1
    | isTrue _, isFalse hs => isFalse fun e => hs (List.cons.inj e).2
  | [], _ :: _ | _ :: _, [] => isFalse nofun

def decEqMembers : (as bs : List (String × Datum)) → Decidable (as = bs)
  | [], [] => isTrue rfl
  | (k, a) :: as, (l, b) :: bs =>
    if hk : k = l then
      match decEq a b, decEqMembers as bs with
      | isTrue h, isTrue hs => isTrue (hk ▸ h ▸ hs ▸ rfl)
      | isFalse h, _ => isFalse fun e => h (Prod.mk.inj (List.cons.inj e).1).2
      | isTrue _, isFalse hs => isFalse fun e => hs (List.cons.inj e).2
    else isFalse fun e => hk (Prod.mk.inj (List.cons.inj e).1).1
  | [], _ :: _ | _ :: _, [] => isFalse nofun

end

instance : DecidableEq Datum := decEq

mutual

/-- All objects have their keys in strictly ascending order. -/
def Ordered : Datum → Prop
  | .null | .bool _ | .number _ | .text _ => True
  | .list items => OrderedItems items
  | .object members => members.Pairwise (fun a b => a.1 < b.1) ∧ OrderedMembers members

def OrderedItems : List Datum → Prop
  | [] => True
  | d :: rest => d.Ordered ∧ OrderedItems rest

def OrderedMembers : List (String × Datum) → Prop
  | [] => True
  | (_, d) :: rest => d.Ordered ∧ OrderedMembers rest

end

mutual

/-- The tree that says the same. -/
def tree : Datum → Tree
  | .null => .null
  | .bool b => .ofBool b
  | .number n => .ofNumber n
  | .text s => .ofString s
  | .list items => .list (treeItems items) .closed
  | .object members => .object (treeMembers members) .closed

def treeItems : List Datum → List Tree
  | [] => []
  | d :: rest => d.tree :: treeItems rest

def treeMembers : List (String × Datum) → List (QuotedText × Tree)
  | [] => []
  | (key, d) :: rest => (.ofString key, d.tree) :: treeMembers rest

end

mutual

/-- The data as they are shown for inspection. -/
def shown : Datum → String
  | .null => "Null"
  | .bool b => shownCase "Bool" (shownBool b)
  | .number n => shownCase "Number" n.text
  | .text s => shownCase "String" (quoted s)
  | .list items => "Array " ++ shownList (shownItems items)
  | .object members => "Object " ++ shownMap (shownMembers members)

def shownItems : List Datum → List String
  | [] => []
  | d :: rest => d.shown :: shownItems rest

def shownMembers : List (String × Datum) → List (String × String)
  | [] => []
  | (key, d) :: rest => (key, d.shown) :: shownMembers rest

end

theorem orderedItems_iff : ∀ items : List Datum, OrderedItems items ↔ ∀ d ∈ items, d.Ordered
  | [] => by simp [OrderedItems]
  | d :: rest => by simp [OrderedItems, orderedItems_iff rest]

theorem orderedMembers_iff :
    ∀ members : List (String × Datum), OrderedMembers members ↔ ∀ m ∈ members, m.2.Ordered
  | [] => by simp [OrderedMembers]
  | (k, d) :: rest => by simp [OrderedMembers, orderedMembers_iff rest]

end Datum

/-- A value of any form. -/
structure Value where
  datum : Datum
  ordered : datum.Ordered
deriving DecidableEq

namespace Value

/-- The value without content. -/
def null : Value := ⟨.null, trivial⟩

def bool (b : Bool) : Value := ⟨.bool b, trivial⟩

def number (n : Number) : Value := ⟨.number n, trivial⟩

def text (s : String) : Value := ⟨.text s, trivial⟩

def list (items : List Value) : Value :=
  ⟨.list (items.map datum), by
    simp only [Datum.Ordered, Datum.orderedItems_iff, List.mem_map]
    rintro _ ⟨v, _, rfl⟩
    exact v.ordered⟩

def object (members : NameMap Value) : Value :=
  ⟨.object (members.map datum).entries, by
    refine ⟨(members.map datum).ascending, ?_⟩
    simp only [Datum.orderedMembers_iff, NameMap.map, List.mem_map]
    rintro _ ⟨e, _, rfl⟩
    exact e.2.ordered⟩

/-- The tree that says the same. -/
def tree (v : Value) : Tree :=
  v.datum.tree

def shown (v : Value) : String :=
  v.datum.shown

/-! ### Reading -/

/-- What a single token stands for. -/
def ofToken : Token → Except Fault Value
  | .word .null extent => do extent.checkWord; .ok null
  | .word .yes extent => do extent.checkWord; .ok (bool true)
  | .word .no extent => do extent.checkWord; .ok (bool false)
  | .numeral n => number <$> n.value
  | .text t => text <$> t.value
  | .leftBracket | .leftBrace | .rightBracket | .rightBrace | .comma | .colon | .stray =>
    .error .valueWanted

mutual

def decode : Decoder Value
  | _, .missing => .error .endInValue
  | _, .leaf token => ofToken token
  | levels, .list trees ending => Decoder.enter levels fun inner => do
    let vs ← decodeItems inner trees
    ending.check
    .ok (list vs)
  | levels, .object members ending => Decoder.enter levels fun inner => do
    let vs ← decodeMembers inner members
    ending.check fun key => do let _ ← key.value; .ok ()
    .ok (object (NameMap.ofList vs))

def decodeItems : Nat → List Tree → Except Fault (List Value)
  | _, [] => .ok []
  | levels, t :: rest => do
    let v ← decode levels t
    let vs ← decodeItems levels rest
    .ok (v :: vs)

def decodeMembers : Nat → List (QuotedText × Tree) → Except Fault (List (String × Value))
  | _, [] => .ok []
  | levels, (key, t) :: rest => do
    let name ← key.value
    let v ← decode levels t
    let vs ← decodeMembers levels rest
    .ok ((name, v) :: vs)

end

theorem decodeItems_eq (levels : Nat) :
    ∀ trees : List Tree, decodeItems levels trees = Decoder.items decode levels trees
  | [] => by simp [decodeItems, Decoder.items]
  | t :: rest => by simp [decodeItems, Decoder.items, decodeItems_eq levels rest]

theorem decodeMembers_eq (levels : Nat) :
    ∀ members : List (QuotedText × Tree),
      decodeMembers levels members = Decoder.entries decode levels members
  | [] => by simp [decodeMembers, Decoder.entries]
  | (key, t) :: rest => by simp [decodeMembers, Decoder.entries, decodeMembers_eq levels rest]

end Value
end TemplatePasses.Json
