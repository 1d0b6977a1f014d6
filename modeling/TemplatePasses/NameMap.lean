/-
# Maps keyed by names

A `NameMap α` gives each of finitely many names one `α`. The entries are kept
in strictly ascending order of their names (by code point), so a map has one
representation only: two maps that answer every `find?` alike are equal, and
whatever is printed from the entries does not depend on the order in which
they were inserted.

Key definitions: `NameMap`, `NameMap.insert`, `NameMap.erase`, `NameMap.find?`,
`NameMap.names`, `NameMap.ofList`.
Key theorems: `NameMap.find?_insert`, `NameMap.find?_filter`, `NameMap.find?_erase`,
`NameMap.ext_find?`, `NameMap.mem_names_iff`.
-/

namespace TemplatePasses

/-- Finitely many names with one `α` each, by ascending name. -/
structure NameMap (α : Type) where
  /-- The names with what they stand for. -/
  entries : List (String × α)
  /-- No name occurs twice, and smaller names come first. -/
  ascending : entries.Pairwise (fun a b => a.1 < b.1)
deriving DecidableEq

namespace NameMap

variable {α β : Type}

def empty : NameMap α := ⟨[], .nil⟩

instance : Inhabited (NameMap α) := ⟨empty⟩

/-- The entries with `name` set to `value`, at its place in the order. -/
def insertEntry (name : String) (value : α) : List (String × α) → List (String × α)
  | [] => [(name, value)]
  | (n, v) :: rest =>
    if name < n then (name, value) :: (n, v) :: rest
    else if name = n then (name, value) :: rest
    else (n, v) :: insertEntry name value rest

theorem mem_insertEntry {name : String} {value : α} {e : String × α} :
    ∀ {es : List (String × α)}, e ∈ insertEntry name value es → e = (name, value) ∨ e ∈ es
  | [], h => by simpa [insertEntry] using h
  | (n, v) :: rest, h => by
    rw [insertEntry] at h
    split at h
    · simpa using h
    · split at h
      · rcases List.mem_cons.1 h with h | h
        · exact Or.inl h
        · exact Or.inr (List.mem_cons_of_mem _ h)
      · rcases List.mem_cons.1 h with h | h
        · exact Or.inr (h ▸ List.mem_cons_self ..)
        · exact (mem_insertEntry h).imp_right (List.mem_cons_of_mem _)

theorem lt_of_not_lt_of_ne {a b : String} (h : ¬a < b) (hne : a ≠ b) : b < a := by
  by_cases hba : b < a
  · exact hba
  · exact absurd (String.le_antisymm (String.not_lt.1 hba) (String.not_lt.1 h)) hne

theorem ascending_insertEntry (name : String) (value : α) :
    ∀ {es : List (String × α)}, es.Pairwise (fun a b => a.1 < b.1) →
      (insertEntry name value es).Pairwise (fun a b => a.1 < b.1)
  | [], _ => by simp [insertEntry]
  | (n, v) :: rest, h => by
    obtain ⟨hn, hrest⟩ := List.pairwise_cons.1 h
    rw [insertEntry]
    split
    · rename_i hlt
      refine List.pairwise_cons.2 ⟨fun e he => ?_, h⟩
      rcases List.mem_cons.1 he with rfl | he
      · exact hlt
      · exact String.lt_trans hlt (hn e he)
    · split
      · rename_i heq
        exact List.pairwise_cons.2 ⟨fun e he => heq ▸ hn e he, hrest⟩
      · rename_i hnlt hne
        refine List.pairwise_cons.2 ⟨fun e he => ?_, ascending_insertEntry name value hrest⟩
        rcases mem_insertEntry he with rfl | he
        · exact lt_of_not_lt_of_ne hnlt hne
        · exact hn e he

/-- The map with `name` standing for `value`, whatever it stood for before. -/
def insert (m : NameMap α) (name : String) (value : α) : NameMap α :=
  ⟨insertEntry name value m.entries, ascending_insertEntry name value m.ascending⟩

/-- The entries of the names that pass. -/
def filter (pass : String → Bool) (m : NameMap α) : NameMap α :=
  ⟨m.entries.filter (fun e => pass e.1), m.ascending.filter _⟩

def erase (m : NameMap α) (name : String) : NameMap α :=
  m.filter (· != name)

/-- What `name` stands for. -/
def find? (m : NameMap α) (name : String) : Option α :=
  m.entries.lookup name

def contains (m : NameMap α) (name : String) : Bool :=
  (m.find? name).isSome

/-- The names, ascending. -/
def names (m : NameMap α) : List String :=
  m.entries.map (·.1)

def size (m : NameMap α) : Nat :=
  m.entries.length

def isEmpty (m : NameMap α) : Bool :=
  m.entries.isEmpty

/-- The pairs entered one after the other: of a repeated name the last stays. -/
def ofList (pairs : List (String × α)) : NameMap α :=
  pairs.foldl (fun m p => m.insert p.1 p.2) empty

/-- The same names, each standing for the image of what it stood for. -/
def map (f : α → β) (m : NameMap α) : NameMap β :=
  ⟨m.entries.map (fun e => (e.1, f e.2)), m.ascending.map _ (fun _ _ h => h)⟩

/-! ### Looking names up -/

theorem lookup_insertEntry (name n : String) (value : α) :
    ∀ es : List (String × α), (insertEntry name value es).lookup n =
      if n = name then some value else es.lookup n
  | [] => by
    by_cases h : n = name
    · simp [insertEntry, h]
    · simp [insertEntry, List.lookup_cons, h, beq_false_of_ne h]
  | (k, v) :: rest => by
    rw [insertEntry]
    split
    · by_cases h : n = name
      · simp [h]
      · simp [List.lookup_cons, h, beq_false_of_ne h]
    · split
      · rename_i heq
        by_cases h : n = name
        · simp [h]
        · simp [List.lookup_cons, h, ← heq, beq_false_of_ne h]
      · rename_i hne
        by_cases hk : n = k
        · have : n ≠ name := fun h => hne (h ▸ hk)
          subst hk
          simp [this]
        · simp [List.lookup_cons, beq_false_of_ne hk, lookup_insertEntry name n value rest]

@[simp] theorem find?_empty (name : String) : (empty : NameMap α).find? name = none := rfl

/-- A name just inserted stands for its value, and all others are left alone. -/
theorem find?_insert (m : NameMap α) (name n : String) (value : α) :
    (m.insert name value).find? n = if n = name then some value else m.find? n :=
  lookup_insertEntry name n value m.entries

theorem lookup_filter (pass : String → Bool) (n : String) :
    ∀ es : List (String × α), (es.filter (fun e => pass e.1)).lookup n =
      if pass n then es.lookup n else none
  | [] => by simp
  | (k, v) :: rest => by
    have ih := lookup_filter pass n rest
    by_cases hn : n = k
    · subst hn
      by_cases hk : pass n
      · simp [hk]
      · simpa [hk] using ih
    · by_cases hk : pass k
      · simp [hk, List.lookup_cons, beq_false_of_ne hn, ih]
      · simp [hk, List.lookup_cons, beq_false_of_ne hn, ih]

/-- A name that does not pass stands for nothing, and all others are left alone. -/
theorem find?_filter (m : NameMap α) (pass : String → Bool) (n : String) :
    (m.filter pass).find? n = if pass n then m.find? n else none :=
  lookup_filter pass n m.entries

/-- An erased name stands for nothing, and all others are left alone. -/
theorem find?_erase (m : NameMap α) (name n : String) :
    (m.erase name).find? n = if n = name then none else m.find? n := by
  rw [erase, find?_filter]
  by_cases h : n = name
  · simp [h]
  · simp [h]

theorem mem_of_lookup {n : String} {v : α} :
    ∀ {es : List (String × α)}, es.lookup n = some v → (n, v) ∈ es
  | [], h => by simp at h
  | (k, w) :: rest, h => by
    rw [List.lookup_cons] at h
    by_cases hk : n = k
    · subst hk
      simp only [beq_self_eq_true] at h
      injection h with h
      exact h ▸ List.mem_cons_self ..
    · simp only [beq_false_of_ne hk] at h
      exact List.mem_cons_of_mem _ (mem_of_lookup h)

theorem lookup_of_mem {n : String} {v : α} :
    ∀ {es : List (String × α)}, es.Pairwise (fun a b => a.1 < b.1) → (n, v) ∈ es →
      es.lookup n = some v
  | (k, w) :: rest, hes, h => by
    obtain ⟨hk, hrest⟩ := List.pairwise_cons.1 hes
    rcases List.mem_cons.1 h with h | h
    · cases h
      simp
    · have : n ≠ k := fun e => String.lt_irrefl k (e ▸ hk _ h)
      rw [List.lookup_cons]
      simp only [beq_false_of_ne this]
      exact lookup_of_mem hrest h

/-- The entries are what the names stand for. -/
theorem find?_eq_some_iff (m : NameMap α) (n : String) (v : α) :
    m.find? n = some v ↔ (n, v) ∈ m.entries :=
  ⟨mem_of_lookup, lookup_of_mem m.ascending⟩

/-- A name below all that occur stands for nothing. -/
theorem lookup_eq_none_of_lt {n : String} {es : List (String × α)} (h : ∀ e ∈ es, n < e.1) :
    es.lookup n = none := by
  cases hfound : es.lookup n with
  | none => rfl
  | some v => exact absurd (h _ (mem_of_lookup hfound)) (String.lt_irrefl n)

theorem entries_eq_of_lookup :
    ∀ {as bs : List (String × α)}, as.Pairwise (fun a b => a.1 < b.1) →
      bs.Pairwise (fun a b => a.1 < b.1) → (∀ n, as.lookup n = bs.lookup n) → as = bs
  | [], [], _, _, _ => rfl
  | [], (k, v) :: _, _, _, h => by simpa using h k
  | (k, v) :: _, [], _, _, h => by simpa using h k
  | (k, v) :: as, (l, w) :: bs, ha, hb, h => by
    obtain ⟨hk, has⟩ := List.pairwise_cons.1 ha
    obtain ⟨hl, hbs⟩ := List.pairwise_cons.1 hb
    have hkl : k = l := by
      by_cases hne : k = l
      · exact hne
      · have h1 := h k
        have h2 := h l
        simp only [List.lookup_cons, beq_self_eq_true, beq_false_of_ne hne,
          beq_false_of_ne (Ne.symm hne)] at h1 h2
        have m1 := hl _ (mem_of_lookup h1.symm)
        have m2 := hk _ (mem_of_lookup h2)
        exact absurd m2 (String.lt_asymm m1)
    subst hkl
    have hv : v = w := by simpa using h k
    subst hv
    refine congrArg ((k, v) :: ·) (entries_eq_of_lookup has hbs fun n => ?_)
    by_cases hn : n = k
    · subst hn
      rw [lookup_eq_none_of_lt hk, lookup_eq_none_of_lt hl]
    · simpa [List.lookup_cons, beq_false_of_ne hn] using h n

/-- A map is what its names stand for: maps with equal answers are equal. -/
theorem ext_find? {m k : NameMap α} (h : ∀ n, m.find? n = k.find? n) : m = k := by
  obtain ⟨as, ha⟩ := m
  obtain ⟨bs, hb⟩ := k
  obtain rfl := entries_eq_of_lookup ha hb h
  rfl

/-! ### Names -/

/-- The names are those that stand for something. -/
theorem mem_names_iff (m : NameMap α) (n : String) : n ∈ m.names ↔ ∃ v, m.find? n = some v := by
  constructor
  · intro h
    obtain ⟨e, he, rfl⟩ := List.mem_map.1 h
    exact ⟨e.2, (m.find?_eq_some_iff e.1 e.2).2 he⟩
  · rintro ⟨v, hv⟩
    exact List.mem_map.2 ⟨(n, v), (m.find?_eq_some_iff n v).1 hv, rfl⟩

theorem names_ascending (m : NameMap α) : m.names.Pairwise (· < ·) :=
  m.ascending.map _ fun _ _ h => h

theorem isEmpty_iff (m : NameMap α) : m.isEmpty = true ↔ m.names = [] := by
  rw [isEmpty, List.isEmpty_iff, names, List.map_eq_nil_iff]

theorem names_filter (m : NameMap α) (pass : String → Bool) :
    (m.filter pass).names = m.names.filter pass := by
  unfold names filter
  rw [List.filter_map]
  rfl

theorem filter_filter (m : NameMap α) (pass pass' : String → Bool) :
    (m.filter pass).filter pass' = m.filter fun n => pass n && pass' n := by
  refine ext_find? fun n => ?_
  rw [find?_filter, find?_filter, find?_filter]
  cases pass n <;> cases pass' n <;> rfl

theorem filter_eq_self {m : NameMap α} {pass : String → Bool}
    (h : ∀ n v, m.find? n = some v → pass n = true) : m.filter pass = m := by
  refine ext_find? fun n => ?_
  rw [find?_filter]
  cases hf : m.find? n with
  | none => simp
  | some v => simp [h n v hf]

end NameMap
end TemplatePasses
