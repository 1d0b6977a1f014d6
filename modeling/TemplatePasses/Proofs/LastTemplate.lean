/-
# The last template of a name

Entries come into an index one by one, those of the files first, file by file and in
each file template by template, and then any others. At every point the index tells of
what has come so far (`TemplateIndex.Tells`): under each name it has the last entry of
this name, whichever file that is from, and nothing else, so it has as many names as
there are different ones. Registering an entry keeps the index in step
(`TemplateIndex.Tells.register`), and so does registering any number of them
(`TemplateIndex.Tells.registerAll`).

Key definitions: `TemplateIndex.lastNamed`, `TemplateIndex.Tells`.
Key theorems: `TemplateIndex.find?_register`, `TemplateIndex.tells_of_find?`,
`TemplateIndex.Tells.registerAll`, `TemplateIndex.tells_last_of_each_name`.
-/
import TemplatePasses.Proofs.Listing
import TemplatePasses.Template.Index
import Mathlib.Data.List.Dedup

namespace TemplatePasses.TemplateIndex

/-- The last of some entries that has this name. -/
def lastNamed (entries : List TemplateEntry) (name : String) : Option TemplateEntry :=
  entries.reverse.find? (·.name = name)

theorem lastNamed_concat (entries : List TemplateEntry) (e : TemplateEntry) (name : String) :
    lastNamed (entries ++ [e]) name = if e.name = name then some e else lastNamed entries name := by
  unfold lastNamed
  rw [List.reverse_concat, List.find?_cons]
  by_cases h : e.name = name <;> simp [h]

theorem isSome_lastNamed_iff {entries : List TemplateEntry} {name : String} :
    (lastNamed entries name).isSome = true ↔ name ∈ entries.map (·.name) := by
  simp [lastNamed, List.find?_isSome]

/-- An index tells of some entries: it has the last one of each name, and nothing else. -/
structure Tells (index : TemplateIndex) (entries : List TemplateEntry) : Prop where
  find? : ∀ name, index.find? name = lastNamed entries name
  contains : ∀ name, index.contains name = (lastNamed entries name).isSome
  /-- Every entry is one of these, and stands under its own name. -/
  stored : ∀ name e, (name, e) ∈ index.entries.entries → e.name = name ∧ e ∈ entries
  /-- There are as many names as different ones. -/
  size : index.size = (entries.map (·.name)).dedup.length
  isEmpty : index.isEmpty = true ↔ entries = []

/-- An index that finds the last entry of each name is right in everything else too. -/
theorem tells_of_find? {index : TemplateIndex} {entries : List TemplateEntry}
    (h : ∀ name, index.find? name = lastNamed entries name) : index.Tells entries := by
  have hnames : index.entries.names.Perm (entries.map (·.name)).dedup := by
    refine (List.perm_ext_iff_of_nodup index.entries.names_nodup (List.nodup_dedup _)).2 fun n => ?_
    rw [NameMap.mem_names_iff, ← Option.isSome_iff_exists, List.mem_dedup, ← isSome_lastNamed_iff,
      ← h]
    rfl
  refine ⟨h, fun name => congrArg Option.isSome (h name), fun name e he => ?_, ?_, ?_⟩
  · have hlast : lastNamed entries name = some e :=
      (h name).symm.trans ((index.entries.find?_eq_some_iff name e).2 he)
    exact ⟨by simpa using List.find?_some hlast,
      List.mem_reverse.1 (List.mem_of_find?_eq_some hlast)⟩
  · rw [← hnames.length_eq, NameMap.names, List.length_map]
    rfl
  · have hempty : index.isEmpty = true ↔ index.entries.names = [] := index.entries.isEmpty_iff
    rw [hempty, ← List.perm_nil, hnames.congr_left, List.perm_nil, List.dedup_eq_nil,
      List.map_eq_nil_iff]

/-! ### Entries in turn -/

/-- The entry just registered stands under its name, and all others are left alone. -/
theorem find?_register (index : TemplateIndex) (e : TemplateEntry) (name : String) :
    (index.register e).find? name = if e.name = name then some e else index.find? name := by
  have hinsert := index.entries.find?_insert e.name name e
  simp only [eq_comm (a := name)] at hinsert
  exact hinsert

theorem tells_nil : Tells {} [] :=
  tells_of_find? fun _ => rfl

theorem Tells.register {index : TemplateIndex} {entries : List TemplateEntry}
    (h : index.Tells entries) (e : TemplateEntry) : (index.register e).Tells (entries ++ [e]) :=
  tells_of_find? fun name => by rw [find?_register, lastNamed_concat, h.find?]

/-- **However many entries are registered, the index tells of all of them.** -/
theorem Tells.registerAll : ∀ (more : List TemplateEntry) {index : TemplateIndex}
    {entries : List TemplateEntry}, index.Tells entries →
      (index.registerAll more).Tells (entries ++ more)
  | [], _, entries, h => (List.append_nil entries).symm ▸ h
  | e :: more, index, entries, h => by
    have hrest := Tells.registerAll more (h.register e)
    rwa [List.append_assoc, List.singleton_append] at hrest

/-- The files are gone through one by one, and in each its templates. -/
theorem ofFiles_eq_foldl (files : List SourceFile) :
    ofFiles files = files.foldl (fun index f =>
      f.templates.foldl (fun index t => index.register (t.entry f.path)) index) {} := by
  unfold ofFiles registerAll SourceFile.entries
  rw [List.foldl_flatMap]
  simp only [List.foldl_map]

/-- **An index keeps the last template of each name.** Take any files, whose templates
may share names within a file and across files, and any entries registered later. The
entries that come in are those of all templates, by file and in the file by template,
each with the path of its own file, and then the later ones. Going through the files,
and after any number of later entries, the index tells of just those that have come so
far: a name has the last entry of this name, or none; every entry stands under its own
name; the names are as many as there are different ones; and the index is empty only
if nothing has come. -/
theorem tells_last_of_each_name (files : List SourceFile) (later : List TemplateEntry) :
    let entry (f : SourceFile) (t : Template) : TemplateEntry :=
      { name := t.name, path := f.path, id := t.id, visibility := t.visibility }
    let met := files.flatMap fun f => f.templates.map (entry f)
    ofFiles files = files.foldl (fun index f =>
      f.templates.foldl (fun index t => index.register (entry f t)) index) {} ∧
    (∀ n, (registerAll {} (met.take n)).Tells (met.take n)) ∧
    ∀ n, ((ofFiles files).registerAll (later.take n)).Tells (met ++ later.take n) := by
  intro entry met
  have hfiles : (ofFiles files).Tells met := Tells.registerAll met tells_nil
  exact ⟨ofFiles_eq_foldl files, fun n => Tells.registerAll (met.take n) tells_nil,
    fun n => hfiles.registerAll (later.take n)⟩

/-- A name in two files, and again later: the last of them counts, and there is one name. -/
example :
    let files : List SourceFile :=
      [⟨"a.soy", [{ id := 1, name := "n" }, { id := 2, name := "n" }]⟩,
        ⟨"b.soy", [{ id := 3, name := "n" }]⟩]
    (ofFiles files).find? "n" = some ⟨"n", "b.soy", 3, .everywhere⟩ ∧ (ofFiles files).size = 1 ∧
      ((ofFiles files).register ⟨"n", "c.soy", 4, .sameFile⟩).find? "n" =
        some ⟨"n", "c.soy", 4, .sameFile⟩ := by
  decide

end TemplatePasses.TemplateIndex
