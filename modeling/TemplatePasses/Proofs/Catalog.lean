/-
# A name stands for one role

The two kinds of roles share one space of names: rules and messages give a name
only, and no two roles of either kind have the same one. `Role` puts the kinds
together, with the roles over one file before those over the whole set, which is
the order in which their passes run.

Key definitions: `Role`, `Role.all`.
Key theorems: `FileRole.ofName?_name`, `FileSetRole.ofName?_name`,
`Role.name_injective`, `Role.mem_all`, `Role.isKnownPass_iff`.
-/
import TemplatePasses.Role

namespace TemplatePasses

namespace FileRole

theorem mem_all (r : FileRole) : r ∈ all := by
  cases r <;> decide

theorem ofName?_name (r : FileRole) : ofName? r.name = some r := by
  cases r <;> decide

theorem name_injective {r q : FileRole} (h : r.name = q.name) : r = q := by
  have := congrArg ofName? h
  rw [ofName?_name, ofName?_name] at this
  exact Option.some.inj this

end FileRole

namespace FileSetRole

theorem mem_all (r : FileSetRole) : r ∈ all := by
  cases r <;> decide

theorem ofName?_name (r : FileSetRole) : ofName? r.name = some r := by
  cases r <;> decide

theorem name_injective {r q : FileSetRole} (h : r.name = q.name) : r = q := by
  have := congrArg ofName? h
  rw [ofName?_name, ofName?_name] at this
  exact Option.some.inj this

end FileSetRole

/-! ### Both kinds together -/

/-- A role of either kind. -/
inductive Role where
  | file (r : FileRole)
  | fileSet (r : FileSetRole)
deriving DecidableEq, Repr

namespace Role

/-- All roles, those over one file first. -/
def all : List Role :=
  FileRole.all.map file ++ FileSetRole.all.map fileSet

def name : Role → String
  | file r => r.name
  | fileSet r => r.name

instance : Named Role := ⟨name⟩

/-- The role over one file, if it is one. -/
def asFile? : Role → Option FileRole
  | file r => some r
  | fileSet _ => none

/-- The role over the whole set, if it is one. -/
def asFileSet? : Role → Option FileSetRole
  | file _ => none
  | fileSet r => some r

theorem mem_all : ∀ r : Role, r ∈ all
  | file r => List.mem_append_left _ (List.mem_map_of_mem r.mem_all)
  | fileSet r => List.mem_append_right _ (List.mem_map_of_mem r.mem_all)

/-- No role over the whole set goes by the name of one over a file. -/
theorem ofName?_fileName (r : FileRole) : FileSetRole.ofName? r.name = none := by
  cases r <;> decide

theorem file_name_ne (r : FileRole) (q : FileSetRole) : r.name ≠ q.name := by
  intro h
  have := ofName?_fileName r
  rw [h, FileSetRole.ofName?_name] at this
  cases this

/-- No two roles have the same name. -/
theorem name_injective {r q : Role} (h : r.name = q.name) : r = q := by
  cases r with
  | file r =>
    cases q with
    | file q => rw [FileRole.name_injective h]
    | fileSet q => exact absurd h (file_name_ne r q)
  | fileSet r =>
    cases q with
    | file q => exact absurd h.symm (file_name_ne q r)
    | fileSet q => rw [FileSetRole.name_injective h]

/-- The known names are those of the catalog. -/
theorem isKnownPass_iff {name : String} : isKnownPass name = true ↔ ∃ r : Role, r.name = name := by
  rw [isKnownPass, Bool.or_eq_true]
  constructor
  · rintro (h | h)
    · obtain ⟨r, hr⟩ := Option.isSome_iff_exists.1 h
      have hname := List.find?_some hr
      exact ⟨.file r, of_decide_eq_true hname⟩
    · obtain ⟨r, hr⟩ := Option.isSome_iff_exists.1 h
      have hname := List.find?_some hr
      exact ⟨.fileSet r, of_decide_eq_true hname⟩
  · rintro ⟨r, rfl⟩
    cases r with
    | file r => exact .inl (by rw [name, FileRole.ofName?_name]; rfl)
    | fileSet r => exact .inr (by rw [name, FileSetRole.ofName?_name]; rfl)

theorem all_nodup : all.Nodup := by
  decide

end Role
end TemplatePasses
