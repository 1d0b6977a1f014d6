/-
# How trees are laid out

A tree without a fault (`Tree.Complete`) has its tokens in the order of the text,
with a comma between the items of a list and the members of an object
(`Tree.tokens`). Any text that lays out these tokens is read as the tree. So what a
text says is its tree, and blanks and spellings are forgotten once it is read.

Key definitions: `Tree.Complete`, `Tree.tokens`.
Key theorems: `foldl_step_tokens`, `separated_tokens`, `read_laidOut`,
`decodeText_laidOut`, `Tree.Complete.skip`.
-/
import TemplatePasses.Json.Decoder
import TemplatePasses.Proofs.Spelling

namespace TemplatePasses.Json

/-! ### Trees without a fault -/

/-- A token that stands for a value and has no fault. -/
inductive Token.Complete : Token → Prop
  | word (w : Word) : (Token.word w .whole).Complete
  | numeral {n : Numeral} : n.extent = .whole → (Token.numeral n).Complete
  | text {t : QuotedText} : t.ending = .closed → (Token.text t).Complete

/-- A tree without a fault: the text says all of it. -/
inductive Tree.Complete : Tree → Prop
  | leaf {token : Token} : token.Complete → (Tree.leaf token).Complete
  | list {items : List Tree} : (∀ t ∈ items, t.Complete) → (Tree.list items .closed).Complete
  | object {members : List (QuotedText × Tree)} : (∀ m ∈ members, m.1.ending = .closed) →
    (∀ m ∈ members, m.2.Complete) → (Tree.object members .closed).Complete

theorem Tree.complete_list_iff {items : List Tree} :
    (Tree.list items .closed).Complete ↔ ∀ t ∈ items, t.Complete :=
  ⟨fun | .list h => h, .list⟩

theorem Tree.complete_object_iff {members : List (QuotedText × Tree)} :
    (Tree.object members .closed).Complete ↔
      ∀ m ∈ members, m.1.ending = .closed ∧ m.2.Complete :=
  ⟨fun | .object hkeys h => fun m hm => ⟨hkeys m hm, h m hm⟩,
    fun h => .object (fun m hm => (h m hm).1) fun m hm => (h m hm).2⟩

/-! ### The tokens of a tree -/

mutual

def Tree.tokens : Tree → List Token
  | .missing => []
  | .leaf token => [token]
  | .list items _ => .leftBracket :: (itemTokens items ++ [.rightBracket])
  | .object members _ => .leftBrace :: (memberTokens members ++ [.rightBrace])

/-- The tokens of the items, with a comma between them. -/
def itemTokens : List Tree → List Token
  | [] => []
  | [t] => t.tokens
  | t :: rest => t.tokens ++ .comma :: itemTokens rest

/-- The tokens of the members, with a comma between them. -/
def memberTokens : List (QuotedText × Tree) → List Token
  | [] => []
  | [(key, t)] => .text key :: .colon :: t.tokens
  | (key, t) :: rest => .text key :: .colon :: (t.tokens ++ .comma :: memberTokens rest)

end

/-- The tokens of a list begin with those of its first item. -/
theorem itemTokens_cons (t : Tree) (rest : List Tree) :
    ∃ tail, itemTokens (t :: rest) = t.tokens ++ tail := by
  cases rest <;> simp [itemTokens]

/-! ### Building the tree again -/

namespace Spot

variable {context : Context}

/-- Whether a value may begin with the token. -/
def startsValue : Token → Bool
  | .leftBracket | .leftBrace | .word .. | .numeral _ | .text _ => true
  | .rightBrace | .rightBracket | .comma | .colon | .stray => false

theorem tokens_start {t : Tree} (h : t.Complete) :
    ∃ (first : Token) (rest : List Token), t.tokens = first :: rest ∧ startsValue first = true := by
  cases h with
  | leaf htoken => cases htoken <;> exact ⟨_, _, by rw [Tree.tokens], rfl⟩
  | list => exact ⟨_, _, by rw [Tree.tokens], rfl⟩
  | object => exact ⟨_, _, by rw [Tree.tokens], rfl⟩

theorem step_listStart {first : Token} (h : startsValue first = true) :
    step (.listStart context) first = step (.value (.item [] context)) first := by
  cases first <;> first | rfl | cases h

theorem step_listNext {first : Token} (h : startsValue first = true) (before : List Tree) :
    step (.listNext before context) first = step (.value (.item before context)) first := by
  cases first <;> first | rfl | cases h

theorem foldl_listStart {t : Tree} (h : t.Complete) (context : Context) (rest : List Token) :
    (t.tokens ++ rest).foldl step (.listStart context) =
      (t.tokens ++ rest).foldl step (.value (.item [] context)) := by
  obtain ⟨first, more, htokens, hfirst⟩ := tokens_start h
  rw [htokens, List.cons_append, List.foldl_cons, List.foldl_cons, step_listStart hfirst]

theorem foldl_listNext {t : Tree} (h : t.Complete) (context : Context) (before : List Tree)
    (rest : List Token) :
    (t.tokens ++ rest).foldl step (.listNext before context) =
      (t.tokens ++ rest).foldl step (.value (.item before context)) := by
  obtain ⟨first, more, htokens, hfirst⟩ := tokens_start h
  rw [htokens, List.cons_append, List.foldl_cons, List.foldl_cons, step_listNext hfirst]

/-- A tree is built from its tokens, wherever it stands. -/
def Builds (t : Tree) : Prop :=
  ∀ context : Context, t.tokens.foldl step (.value context) = .after t context

/-- The items of a list from one of them on are built behind those before it. -/
theorem foldl_items {t : Tree} {rest : List Tree} (hcomplete : ∀ u ∈ t :: rest, u.Complete)
    (hbuilds : ∀ u ∈ t :: rest, Builds u) (before : List Tree) :
    (itemTokens (t :: rest) ++ [Token.rightBracket]).foldl step (.value (.item before context)) =
      .after (.list (before.reverse ++ t :: rest) .closed) context := by
  have ht := hbuilds t (List.mem_cons_self ..) (.item before context)
  induction rest generalizing t before with
  | nil =>
    rw [itemTokens, List.foldl_append, ht]
    simp [step, close]
  | cons u more ih =>
    have hu : u.Complete := hcomplete u (by simp)
    have hmore := ih (fun v hv => hcomplete v (List.mem_cons_of_mem t hv))
      (fun v hv => hbuilds v (List.mem_cons_of_mem t hv)) (t :: before)
      (hbuilds u (by simp) _)
    have hcomma : step (.after t (.item before context)) .comma = .listNext (t :: before) context :=
      rfl
    obtain ⟨tail, htail⟩ := itemTokens_cons u more
    have hnext := foldl_listNext hu context (t :: before) (tail ++ [.rightBracket])
    rw [← List.append_assoc, ← htail] at hnext
    rw [itemTokens, List.append_assoc, List.foldl_append, ht, List.cons_append, List.foldl_cons,
      hcomma, hnext, hmore, List.reverse_cons, List.append_assoc, List.singleton_append]
    simp

/-- The members of an object from one of them on are built behind those before it. -/
theorem foldl_members {m : QuotedText × Tree} {rest : List (QuotedText × Tree)}
    (hbuilds : ∀ u ∈ m :: rest, Builds u.2) (before : List (QuotedText × Tree)) {spot : Spot}
    (hspot : step spot (.text m.1) = .colon before m.1 context) :
    (memberTokens (m :: rest) ++ [Token.rightBrace]).foldl step spot =
      .after (.object (before.reverse ++ m :: rest) .closed) context := by
  have hm := hbuilds m (List.mem_cons_self ..) (.member before m.1 context)
  have hcolon : step (.colon before m.1 context) .colon = .value (.member before m.1 context) := rfl
  induction rest generalizing m before spot with
  | nil =>
    rw [memberTokens, List.cons_append, List.cons_append, List.foldl_cons, List.foldl_cons, hspot,
      hcolon, List.foldl_append, hm]
    simp [step, close]
  | cons u more ih =>
    have hcomma : step (.after m.2 (.member before m.1 context)) .comma =
        .objectNext (m :: before) context := rfl
    have hkey : step (.objectNext (m :: before) context) (.text u.1) =
        .colon (m :: before) u.1 context := rfl
    have hmore := ih (fun v hv => hbuilds v (List.mem_cons_of_mem m hv)) (m :: before) hkey
      (hbuilds u (by simp) _) rfl
    rw [memberTokens, List.cons_append, List.cons_append, List.foldl_cons, List.foldl_cons, hspot,
      hcolon, List.append_assoc, List.foldl_append, hm, List.cons_append, List.foldl_cons, hcomma,
      hmore]
    · simp
    · simp

/-- **A tree is built from its tokens.** -/
theorem foldl_step_tokens {t : Tree} (h : t.Complete) : Builds t := by
  induction h with
  | leaf htoken =>
    intro context
    rw [Tree.tokens]
    cases htoken <;> rfl
  | @list items hcomplete ih =>
    intro context
    rw [Tree.tokens, List.foldl_cons]
    cases items with
    | nil => rfl
    | cons t rest =>
      obtain ⟨tail, htail⟩ := itemTokens_cons t rest
      have hstart := foldl_listStart (hcomplete t (List.mem_cons_self ..)) context
        (tail ++ [.rightBracket])
      rw [← List.append_assoc, ← htail] at hstart
      exact hstart.trans (foldl_items hcomplete ih [])
  | @object members _ _ ih =>
    intro context
    rw [Tree.tokens, List.foldl_cons]
    cases members with
    | nil => rfl
    | cons m rest =>
      have hkey : step (.objectStart context) (.text m.1) = .colon [] m.1 context := rfl
      exact foldl_members ih [] hkey

end Spot

/-! ### Numerals before marks -/

theorem separated_cons {t : Token} {ts : List Token} (ht : t.isNumeral = false) :
    Separated (t :: ts) ↔ Separated ts := by
  unfold Separated
  rw [List.isChain_cons]
  simp [ht]

/-- What begins with a mark, or is nothing. -/
def StartsWithMark (ts : List Token) : Prop :=
  ∀ t ∈ ts.head?, t.isMark = true

theorem startsWithMark_cons {t : Token} {ts : List Token} (h : t.isMark = true) :
    StartsWithMark (t :: ts) := by
  intro u hu
  exact Option.some.inj hu ▸ h

/-- The numerals of a tree stand before marks, wherever the tree does. -/
def Separates (t : Tree) : Prop :=
  ∀ rest : List Token, Separated rest → StartsWithMark rest → Separated (t.tokens ++ rest)

theorem separated_items : ∀ {items : List Tree}, (∀ t ∈ items, Separates t) →
    ∀ rest : List Token, Separated rest → StartsWithMark rest →
      Separated (itemTokens items ++ rest)
  | [], _, rest, hrest, _ => hrest
  | [t], h, rest, hrest, hmark => h t (List.mem_singleton_self t) rest hrest hmark
  | t :: u :: more, h, rest, hrest, hmark => by
    have hmore := separated_items (fun v hv => h v (List.mem_cons_of_mem t hv)) rest hrest hmark
    rw [itemTokens, List.append_assoc]
    · exact h t (List.mem_cons_self ..) _ ((separated_cons rfl).2 hmore) (startsWithMark_cons rfl)
    · simp

theorem separated_members : ∀ {members : List (QuotedText × Tree)},
    (∀ m ∈ members, Separates m.2) → ∀ rest : List Token, Separated rest → StartsWithMark rest →
      Separated (memberTokens members ++ rest)
  | [], _, rest, hrest, _ => hrest
  | [(key, t)], h, rest, hrest, hmark => by
    rw [memberTokens, List.cons_append, List.cons_append, separated_cons rfl, separated_cons rfl]
    exact h (key, t) (List.mem_singleton_self _) rest hrest hmark
  | (key, t) :: m :: more, h, rest, hrest, hmark => by
    have hmore := separated_members (fun v hv => h v (List.mem_cons_of_mem _ hv)) rest hrest hmark
    rw [memberTokens, List.cons_append, List.cons_append, separated_cons rfl, separated_cons rfl,
      List.append_assoc]
    · exact h (key, t) (List.mem_cons_self ..) _ ((separated_cons rfl).2 hmore)
        (startsWithMark_cons rfl)
    · simp

/-- **The numerals of a tree stand before marks.** -/
theorem separated_tokens {t : Tree} (h : t.Complete) : Separates t := by
  induction h with
  | leaf =>
    intro rest hrest hmark
    rw [Tree.tokens, List.singleton_append]
    exact List.isChain_cons.2 ⟨fun next hnext _ => hmark next hnext, hrest⟩
  | list _ ih =>
    intro rest hrest _
    rw [Tree.tokens, List.cons_append, separated_cons rfl, List.append_assoc]
    exact separated_items ih _ ((separated_cons rfl).2 hrest) (startsWithMark_cons rfl)
  | object _ _ ih =>
    intro rest hrest _
    rw [Tree.tokens, List.cons_append, separated_cons rfl, List.append_assoc]
    exact separated_members ih _ ((separated_cons rfl).2 hrest) (startsWithMark_cons rfl)

/-! ### Reading a text -/

/-- **A text that lays out a tree is read as the tree**, whatever blanks and
spellings it has. -/
theorem read_laidOut {t : Tree} {text : List Char} (h : t.Complete)
    (htext : LaidOut t.tokens text) :
    Document.read text = ⟨t, false⟩ := by
  have hseparated := separated_tokens h [] List.IsChain.nil nofun
  rw [List.append_nil] at hseparated
  rw [Document.read, scan_laidOut htext hseparated, Document.ofTokens, Spot.run,
    Spot.foldl_step_tokens h]
  rfl

/-- A text that lays out a tree gives what is read from the tree. -/
theorem decodeText_laidOut {α : Type} (d : Decoder α) {t : Tree} {text : List Char}
    (h : t.Complete) (htext : LaidOut t.tokens text) :
    d.decodeText (String.ofList text) = d levelLimit t := by
  rw [Decoder.decodeText, String.toList_ofList, read_laidOut h htext]
  cases d levelLimit t <;> rfl

/-! ### Skipping -/

theorem skipItems_eq_ok {items : List Tree} (h : ∀ t ∈ items, t.skip = .ok ()) :
    skipItems items = .ok () := by
  induction items with
  | nil => rfl
  | cons t rest ih =>
    rw [skipItems, h t (List.mem_cons_self ..), ih fun u hu => h u (List.mem_cons_of_mem t hu)]
    rfl

theorem skipMembers_eq_ok {members : List (QuotedText × Tree)}
    (hkeys : ∀ m ∈ members, m.1.ending = .closed) (h : ∀ m ∈ members, m.2.skip = .ok ()) :
    skipMembers members = .ok () := by
  induction members with
  | nil => rfl
  | cons m rest ih =>
    have hkey : m.1.skip = .ok () := by
      rw [QuotedText.skip, hkeys m (List.mem_cons_self ..)]
      rfl
    rw [skipMembers, hkey, h m (List.mem_cons_self ..),
      ih (fun u hu => hkeys u (List.mem_cons_of_mem m hu))
        fun u hu => h u (List.mem_cons_of_mem m hu)]
    rfl

theorem Tree.Complete.skip {t : Tree} (h : t.Complete) : t.skip = .ok () := by
  induction h with
  | leaf htoken =>
    cases htoken with
    | word => rfl
    | numeral hextent => exact if_pos hextent
    | text hending =>
      rw [Tree.skip, Token.skip, QuotedText.skip, hending]
      rfl
  | list _ ih =>
    rw [Tree.skip, skipItems_eq_ok ih]
    rfl
  | object hkeys _ ih =>
    rw [Tree.skip, skipMembers_eq_ok hkeys ih]
    rfl

end TemplatePasses.Json
