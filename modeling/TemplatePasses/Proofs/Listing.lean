/-
# The entries of a map in any order

A map of names may hand out its entries in any order: what is known of a listing
is only that it has the entries of the map (`NameMap.Listing`). Whoever wants an
answer that does not depend on the order sorts the names and looks each of them
up again. This gives the names in ascending order, and what is written from the
entries is what the map itself would write, whatever the listing was.

Key definitions: `NameMap.Listing`, `NameMap.Listing.names`, `NameMap.Listing.mapByName`,
`StopRules.describeFrom`.
Key theorems: `lookup_of_perm`, `NameMap.Listing.names_eq`, `NameMap.Listing.mapByName_eq`,
`StopRules.describeFrom_eq`.
-/
import TemplatePasses.StopRules
import Mathlib.Data.List.Nodup

namespace TemplatePasses

/-! ### Looking up in any order -/

theorem lookup_eq_some_iff_mem {α : Type} {name : String} {a : α} {es : List (String × α)}
    (hes : (es.map (·.1)).Nodup) : es.lookup name = some a ↔ (name, a) ∈ es := by
  induction es with
  | nil => simp
  | cons e es ih =>
    obtain ⟨key, b⟩ := e
    rw [List.map_cons, List.nodup_cons] at hes
    obtain ⟨hnotin, hnodup⟩ := hes
    rw [List.lookup_cons, List.mem_cons]
    by_cases h : name = key
    · subst h
      have hnot : (name, a) ∉ es := fun hmem => hnotin (List.mem_map.2 ⟨_, hmem, rfl⟩)
      simp [hnot, eq_comm]
    · simp only [beq_false_of_ne h, Prod.mk.injEq, h, false_and, false_or]
      exact ih hnodup

/-- If no name occurs twice, their order cannot be seen. -/
theorem lookup_of_perm {α : Type} {es fs : List (String × α)} (h : es.Perm fs)
    (hes : (es.map (·.1)).Nodup) (name : String) : es.lookup name = fs.lookup name := by
  have hfs : (fs.map (·.1)).Nodup := (h.map _).nodup_iff.1 hes
  refine Option.ext fun a => ?_
  rw [lookup_eq_some_iff_mem hes, lookup_eq_some_iff_mem hfs, h.mem_iff]

namespace NameMap

variable {α β : Type} {m : NameMap α}

theorem names_nodup (m : NameMap α) : m.names.Nodup :=
  m.names_ascending.imp Std.ne_of_lt

/-- What is made of the entries is made of the names, each looked up. -/
theorem map_entries (m : NameMap α) (f : String × α → β) :
    m.entries.map f = m.names.filterMap fun n => (m.find? n).map fun v => f (n, v) := by
  rw [names, List.filterMap_map, ← List.filterMap_eq_map]
  refine List.filterMap_congr fun e he => ?_
  simp only [Function.comp_apply, (m.find?_eq_some_iff e.1 e.2).2 he, Option.map_some]

/-! ### Listings -/

/-- The entries of a map in some order. -/
structure Listing (m : NameMap α) where
  entries : List (String × α)
  perm : entries.Perm m.entries

namespace Listing

/-- The names of a listing, sorted. -/
def names (l : Listing m) : List String :=
  (l.entries.map (·.1)).mergeSort

/-- What is made of the sorted names, each looked up in the listing. -/
def mapByName (l : Listing m) (f : String × α → β) : List β :=
  l.names.filterMap fun n => (l.entries.lookup n).map fun v => f (n, v)

/-- **Sorted, the names are those of the map, ascending**, whatever their order was. -/
theorem names_eq (l : Listing m) : l.names = m.names := by
  have hperm : l.names.Perm m.names := (List.mergeSort_perm _ _).trans (l.perm.map _)
  have hsorted : l.names.Pairwise fun a b => decide (a ≤ b) = true :=
    @List.pairwise_mergeSort String (fun a b => decide (a ≤ b))
      (fun a b c => by simpa using String.le_trans) (fun a b => by simpa using String.le_total a b) _
  have hascending : m.names.Pairwise fun a b => decide (a ≤ b) = true :=
    m.names_ascending.imp fun hlt => decide_eq_true (Std.le_of_lt hlt)
  exact hperm.eq_of_pairwise (fun a b _ _ => by simpa using String.le_antisymm) hsorted hascending

/-- **What is made name by name is made of the entries of the map in their order.** -/
theorem mapByName_eq (l : Listing m) (f : String × α → β) : l.mapByName f = m.entries.map f := by
  have honce : (l.entries.map (·.1)).Nodup := (l.perm.map _).nodup_iff.2 m.names_nodup
  have hlookup : ∀ n, l.entries.lookup n = m.find? n := lookup_of_perm l.perm honce
  simp only [mapByName, l.names_eq, hlookup, m.map_entries f]

end Listing
end NameMap

namespace StopRules

/-- The rules in braces, from a listing. -/
def describeFrom {rules : StopRules} (l : NameMap.Listing rules) : String :=
  "\x7b" ++ Text.commaSeparated (l.mapByName entryText) ++ "\x7d"

/-- The text of rules does not depend on the order in which they are listed. -/
theorem describeFrom_eq {rules : StopRules} (l : NameMap.Listing rules) :
    describeFrom l = rules.describe := by
  rw [describeFrom, l.mapByName_eq, describe]

end StopRules
end TemplatePasses
