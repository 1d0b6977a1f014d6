/-
# The shape of a document

A `Tree` is what a document says before anyone asks what it means: its lists
and objects with everything in the order of the text, repeated keys included.
Also a text that is not well-formed has a tree. It reaches as far as the text
can be followed: each list and object records how it ends, and what cannot
start a value stands in the tree as a leaf.

A tree is built from tokens by an automaton with the open lists and objects as
its stack (`Spot`), so there is no limit on how deep a document nests.

Key definitions: `Tree`, `Spot.step`, `Document.ofTokens`, `Document.read`.
-/
import TemplatePasses.Json.Scanner

namespace TemplatePasses.Json

/-- How a list ends. -/
inductive ListEnd where
  /-- By its bracket. -/
  | closed
  /-- The text ends after an item or after the opening bracket. -/
  | cut
  /-- After an item stands neither a comma nor a bracket. -/
  | misplaced
  /-- By a comma and a bracket. -/
  | commaClosed
deriving DecidableEq, Repr

/-- How an object ends. -/
inductive ObjectEnd where
  /-- By its brace. -/
  | closed
  /-- The text ends after a member or after the opening brace. -/
  | cut
  /-- After a member stands neither a comma nor a brace. -/
  | misplaced
  /-- By a comma and a brace. -/
  | commaClosed
  /-- The text ends after a comma. -/
  | commaCut
  /-- Where a key belongs stands another token. -/
  | strangeKey
  /-- The key is not followed by a colon; `atEnd` if the text ends there. -/
  | noColon (key : QuotedText) (atEnd : Bool)
deriving DecidableEq, Repr

/-- What a document says, as far as it can be followed. -/
inductive Tree where
  /-- The text ends where a value belongs. -/
  | missing
  /-- A word, a numeral or a text, or a token that starts no value. -/
  | leaf (token : Token)
  | list (items : List Tree) (ending : ListEnd)
  | object (members : List (QuotedText × Tree)) (ending : ObjectEnd)

/-- A whole text: its value and whether something follows it. -/
structure Document where
  tree : Tree
  trailing : Bool

/-- The open lists and objects around a place, the innermost first. The items
and members before the place are kept last one first. -/
inductive Context where
  | document
  | item (before : List Tree) (outer : Context)
  | member (before : List (QuotedText × Tree)) (key : QuotedText) (outer : Context)

/-- The document that ends with this tree, all that is open being cut off. -/
def Context.seal (tree : Tree) : Context → Document
  | .document => ⟨tree, false⟩
  | .item before outer => outer.seal (.list (tree :: before).reverse .cut)
  | .member before key outer => outer.seal (.object ((key, tree) :: before).reverse .cut)

/-- Where the tree's construction stands. -/
inductive Spot where
  /-- A value must come. -/
  | value (context : Context)
  /-- Behind an opening bracket. -/
  | listStart (context : Context)
  /-- Behind a comma in a list. -/
  | listNext (before : List Tree) (context : Context)
  /-- Behind an opening brace. -/
  | objectStart (context : Context)
  /-- Behind a comma in an object. -/
  | objectNext (before : List (QuotedText × Tree)) (context : Context)
  /-- Behind a key. -/
  | colon (before : List (QuotedText × Tree)) (key : QuotedText) (context : Context)
  /-- Behind a value. -/
  | after (tree : Tree) (context : Context)
  /-- Behind a fault: nothing more is built. -/
  | finished (document : Document)

namespace Spot

/-- A token where a value must come. -/
def start (context : Context) (token : Token) : Spot :=
  match token with
  | .leftBracket => .listStart context
  | .leftBrace => .objectStart context
  | .word .. | .numeral _ | .text _ => .after (.leaf token) context
  | .rightBrace | .rightBracket | .comma | .colon | .stray =>
    .finished (context.seal (.leaf token))

/-- A token behind a value. -/
def close (tree : Tree) (context : Context) (token : Token) : Spot :=
  match context with
  | .document => .finished ⟨tree, true⟩
  | .item before outer =>
    match token with
    | .comma => .listNext (tree :: before) outer
    | .rightBracket => .after (.list (tree :: before).reverse .closed) outer
    | _ => .finished (outer.seal (.list (tree :: before).reverse .misplaced))
  | .member before key outer =>
    match token with
    | .comma => .objectNext ((key, tree) :: before) outer
    | .rightBrace => .after (.object ((key, tree) :: before).reverse .closed) outer
    | _ => .finished (outer.seal (.object ((key, tree) :: before).reverse .misplaced))

/-- What one more token does. -/
def step : Spot → Token → Spot
  | .value context, t => start context t
  | .listStart context, .rightBracket => .after (.list [] .closed) context
  | .listStart context, t => start (.item [] context) t
  | .listNext before context, .rightBracket =>
    .finished (context.seal (.list before.reverse .commaClosed))
  | .listNext before context, t => start (.item before context) t
  | .objectStart context, .rightBrace => .after (.object [] .closed) context
  | .objectStart context, .text key => .colon [] key context
  | .objectStart context, _ => .finished (context.seal (.object [] .strangeKey))
  | .objectNext before context, .rightBrace =>
    .finished (context.seal (.object before.reverse .commaClosed))
  | .objectNext before context, .text key => .colon before key context
  | .objectNext before context, _ =>
    .finished (context.seal (.object before.reverse .strangeKey))
  | .colon before key context, .colon => .value (.member before key context)
  | .colon before key context, _ =>
    .finished (context.seal (.object before.reverse (.noColon key false)))
  | .after tree context, t => close tree context t
  | .finished document, _ => .finished document

/-- The document that the end of the tokens leaves. -/
def finish : Spot → Document
  | .value context => context.seal .missing
  | .listStart context => context.seal (.list [] .cut)
  | .listNext before context => context.seal (.list (.missing :: before).reverse .cut)
  | .objectStart context => context.seal (.object [] .cut)
  | .objectNext before context => context.seal (.object before.reverse .commaCut)
  | .colon before key context => context.seal (.object before.reverse (.noColon key true))
  | .after tree context =>
    match context with
    | .document => ⟨tree, false⟩
    | .item before outer => outer.seal (.list (tree :: before).reverse .cut)
    | .member before key outer => outer.seal (.object ((key, tree) :: before).reverse .cut)
  | .finished document => document

/-- The document that the tokens lead to. -/
def run (spot : Spot) (tokens : List Token) : Document :=
  (tokens.foldl step spot).finish

end Spot

def Document.ofTokens (tokens : List Token) : Document :=
  (Spot.value .document).run tokens

def Document.read (text : List Char) : Document :=
  .ofTokens (Token.scan text)

end TemplatePasses.Json
