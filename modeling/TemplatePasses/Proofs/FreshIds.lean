/-
# The ids of a whole run

All passes of a run draw their ids from one source, over all files and whatever the
order in which these are gone through. So the ids that passes are given, taken together
in the order in which they are given (`Pipeline.given`), are the next ones of the source
in turn, and behind the run the source stands where they end. One program keeps this
(`Work.gave_run`), and from it a list of passes, the files at any places and a whole
run, also one that is stopped.

The source starts again at zero behind the largest id. Up to there the ids of a run are
all different (`IdSource.nodup_take_iff`), and none of them is smaller than the first,
where those of the parser are (`IdSource.le_of_mem_take_iff`).

Key definitions: `Work.given`, `Session.Gave`, `Pipeline.given`.
Key theorems: `IdSource.toNat_getElem_take`, `IdSource.nodup_take_iff`,
`IdSource.le_of_mem_take_iff`, `Work.gave_run`, `Pipeline.gave_runAll`,
`Pipeline.ids_in_turn`.
-/
import TemplatePasses.Proofs.History
import Mathlib.Algebra.Group.Nat.Defs
import Mathlib.Data.List.Nodup

namespace TemplatePasses

/-! ### The source -/

namespace IdSource

variable (ids : IdSource)

/-- The source when so many ids have been drawn. -/
def behind (n : Nat) : IdSource :=
  ⟨ids.next + .ofNat n⟩

@[simp] theorem length_take : ∀ (n : Nat) (ids : IdSource), (ids.take n).length = n
  | 0, _ => rfl
  | n + 1, ids => congrArg (· + 1) (length_take n ids.draw.2)

theorem behind_zero : ids.behind 0 = ids := by
  simp [behind]

theorem behind_behind (m n : Nat) : (ids.behind m).behind n = ids.behind (m + n) := by
  simp [behind, UInt32.ofNat_add, UInt32.add_assoc]

/-- The ids behind the first ones are those of the source that stands behind them. -/
theorem take_add (n : Nat) : ∀ (m : Nat) (ids : IdSource),
    ids.take (m + n) = ids.take m ++ (ids.behind m).take n
  | 0, ids => by rw [behind_zero, Nat.zero_add]; rfl
  | m + 1, ids => by
    have ih := take_add n m (ids.behind 1)
    rw [behind_behind, Nat.add_comm 1 m] at ih
    rw [Nat.add_right_comm]
    exact congrArg (ids.next :: ·) ih

theorem toNat_next_behind (n : Nat) :
    (ids.behind n).next.toNat = (ids.next.toNat + n) % 2 ^ 32 := by
  simp [behind, UInt32.toNat_add]

/-- **Ids come in turn**, and start again behind the largest one. -/
theorem toNat_getElem_take {n k : Nat} (h : k < (ids.take n).length) :
    ((ids.take n)[k]).toNat = (ids.next.toNat + k) % 2 ^ 32 := by
  have hat : (ids.take n)[k]? = some (ids.behind k).next := by
    rw [length_take] at h
    obtain ⟨m, rfl⟩ : ∃ m, n = k + (m + 1) := ⟨n - k - 1, by omega⟩
    rw [ids.take_add (m + 1) k, List.getElem?_append_right (by simp)]
    simp [take, draw]
  rw [(List.getElem?_eq_some_iff.1 hat).2, toNat_next_behind]

/-- **Ids are all different** as long as there are no more of them than there can be. -/
theorem nodup_take_iff (n : Nat) : (ids.take n).Nodup ↔ n ≤ 2 ^ 32 := by
  constructor
  · intro hnodup
    by_contra hmore
    have hzero : 0 < (ids.take n).length := by
      rw [length_take]
      omega
    have hround : 2 ^ 32 < (ids.take n).length := by
      rw [length_take]
      omega
    -- once round, the first id comes again
    have hsame : (ids.take n)[0] = (ids.take n)[2 ^ 32] := by
      rw [← UInt32.toNat_inj, toNat_getElem_take, toNat_getElem_take]
      omega
    have := (hnodup.getElem_inj_iff).1 hsame
    omega
  · intro hle
    refine List.pairwise_iff_getElem.2 fun i j hi hj hij hsame => ?_
    rw [← UInt32.toNat_inj, toNat_getElem_take, toNat_getElem_take] at hsame
    rw [length_take] at hj
    omega

/-- **No id is smaller than the first** just until the source starts again. -/
theorem le_of_mem_take_iff (n : Nat) :
    (∀ id ∈ ids.take n, ids.next.toNat ≤ id.toNat) ↔
      ids.next.toNat = 0 ∨ ids.next.toNat + n ≤ 2 ^ 32 := by
  have hfirst : ids.next.toNat < 2 ^ 32 := ids.next.toNat_lt
  constructor
  · intro hall
    by_contra hsmaller
    have hzero : 2 ^ 32 - ids.next.toNat < (ids.take n).length := by
      rw [length_take]
      omega
    -- behind the largest id comes zero
    have hle := hall _ (List.getElem_mem hzero)
    rw [toNat_getElem_take] at hle
    omega
  · rintro (hzero | hfits) id hid
    · omega
    · obtain ⟨k, hk, rfl⟩ := List.getElem_of_mem hid
      rw [toNat_getElem_take]
      rw [length_take] at hk
      omega

/-- Behind the largest id comes zero. -/
example : (⟨4294967294⟩ : IdSource).take 3 = [4294967294, 4294967295, 0] := by
  decide

end IdSource

/-! ### Ids given out -/

/-- From one session to another these ids have been given out. They are the next ones of
the source, and the source stands behind them. -/
structure Session.Gave (s : Session) (ids : List NodeId) (t : Session) : Prop where
  drawn : t.drawn = s.drawn ++ ids
  inTurn : ids = s.ids.take ids.length
  source : t.ids = s.ids.behind ids.length

namespace Session.Gave

variable {s t u : Session} {ids ids' : List NodeId}

theorem refl (s : Session) : s.Gave [] s :=
  ⟨(List.append_nil _).symm, rfl, s.ids.behind_zero.symm⟩

theorem trans (h : s.Gave ids t) (h' : t.Gave ids' u) : s.Gave (ids ++ ids') u where
  drawn := by rw [h'.drawn, h.drawn, List.append_assoc]
  inTurn := by
    rw [List.length_append, IdSource.take_add, ← h.source, ← h.inTurn, ← h'.inTurn]
  source := by rw [h'.source, h.source, IdSource.behind_behind, List.length_append]

theorem draw (s : Session) : s.Gave [s.draw.1] s.draw.2 :=
  ⟨rfl, rfl, rfl⟩

end Session.Gave

namespace Work

variable {α : Type}

/-- The ids that a program is given, the first one first. -/
def given : Work α → Session → List NodeId
  | done _, _ => []
  | freshId next, s => s.draw.1 :: (next s.draw.1).given s.draw.2
  | report problem next, s => next.given (s.report problem)
  | problemCount next, s => (next s.reporter.count).given s
  | note entry next, s => next.given (s.note entry)

/-- **A program is given the next ids in turn**, and changes the source in no other way. -/
theorem gave_run : ∀ (w : Work α) (s : Session), s.Gave (w.given s) (w.run s).2
  | done _, s => .refl s
  | freshId next, s => (Session.Gave.draw s).trans (gave_run (next s.draw.1) s.draw.2)
  | report problem next, s =>
    have h := gave_run next (s.report problem)
    ⟨h.drawn, h.inTurn, h.source⟩
  | problemCount next, s => gave_run (next s.reporter.count) s
  | note entry next, s =>
    have h := gave_run next (s.note entry)
    ⟨h.drawn, h.inTurn, h.source⟩

end Work

/-! ### Runs of passes -/

/-- The ids that a pass over one file is given. -/
def FilePass.given (pass : FilePass) (file : SourceFile) (s : Session) : List NodeId :=
  (pass.work file).given (s.emit (startOnFileEvent pass.name file.path))

/-- The ids that a pass over all files is given. -/
def FileSetPass.given (pass : FileSetPass) (index : TemplateIndex) (files : List SourceFile)
    (s : Session) : List NodeId :=
  (pass.work index files).given (s.emit (startOnSetEvent pass.name files.length))

/-- The ids that passes over one file are given in turn. -/
def fileGiven : List FilePass → SourceFile → Session → List NodeId
  | [], _, _ => []
  | pass :: rest, file, s =>
    pass.given file s ++ fileGiven rest (pass.runOn file s).1 (pass.runOn file s).2

/-- The ids that passes over all files are given in turn, up to the first that signals
to stop. -/
def setGiven (index : TemplateIndex) :
    List FileSetPass → List SourceFile → Session → List NodeId
  | [], _, _ => []
  | pass :: rest, files, s =>
    let left := pass.runOn index files s
    pass.given index files s ++
      match left.signal with
      | .goOn => setGiven index rest left.files left.session
      | .stop => []

theorem FilePass.gave_runOn (pass : FilePass) (file : SourceFile) (s : Session) :
    s.Gave (pass.given file s) (pass.runOn file s).2 :=
  have h := (pass.work file).gave_run (s.emit (startOnFileEvent pass.name file.path))
  ⟨h.drawn, h.inTurn, h.source⟩

theorem FileSetPass.gave_runOn (pass : FileSetPass) (index : TemplateIndex)
    (files : List SourceFile) (s : Session) :
    s.Gave (pass.given index files s) (pass.runOn index files s).session :=
  have h := (pass.work index files).gave_run (s.emit (startOnSetEvent pass.name files.length))
  ⟨h.drawn, h.inTurn, h.source⟩

theorem gave_runFilePasses : ∀ (ps : List FilePass) (file : SourceFile) (s : Session),
    s.Gave (fileGiven ps file s) (runFilePasses ps file s).2
  | [], _, s => .refl s
  | pass :: ps, file, s => (pass.gave_runOn file s).trans (gave_runFilePasses ps _ _)

theorem gave_runFileSetPasses (index : TemplateIndex) :
    ∀ (ps : List FileSetPass) (files : List SourceFile) (s : Session),
      s.Gave (setGiven index ps files s) (runFileSetPasses index ps files s).session
  | [], _, s => .refl s
  | pass :: ps, files, s => by
    have hpass := pass.gave_runOn index files s
    rw [runFileSetPasses_cons, setGiven]
    cases (pass.runOn index files s).signal with
    | goOn => exact hpass.trans (gave_runFileSetPasses index ps _ _)
    | stop =>
      -- that the stop is logged draws no id
      simp only [List.append_nil]
      exact ⟨hpass.drawn, hpass.inTurn, hpass.source⟩

/-- The passes that come with the pipeline are given no ids. -/
theorem given_of_builtin {role : FileSetRole} {pass : FileSetPass}
    (h : builtinPass? role = some pass) (index : TemplateIndex) (files : List SourceFile)
    (s : Session) : pass.given index files s = [] := by
  unfold builtinPass? at h
  split at h <;> cases h <;> rfl

namespace Pipeline

/-- The ids that the passes over one file are given on the files at these places. -/
def placesGiven (p : Pipeline) : List Nat → List SourceFile → Session → List NodeId
  | [], _, _ => []
  | place :: rest, files, s =>
    match files[place]? with
    | none => p.placesGiven rest files s
    | some file =>
      let left := p.runFile file s
      fileGiven p.filePasses file s ++ p.placesGiven rest (files.set place left.1) left.2

/-- All ids that the passes of a run are given. -/
def given (p : Pipeline) (index : List SourceFile → TemplateIndex) (places : List Nat)
    (files : List SourceFile) (s : Session) : List NodeId :=
  let left := p.runPlaces places files s
  p.placesGiven places files s ++ setGiven (index left.1) p.fileSetPasses left.1 left.2

theorem gave_runPlaces (p : Pipeline) :
    ∀ (places : List Nat) (files : List SourceFile) (s : Session),
      s.Gave (p.placesGiven places files s) (p.runPlaces places files s).2
  | [], _, s => .refl s
  | place :: rest, files, s => by
    rw [runPlaces, placesGiven]
    cases files[place]? with
    | none => exact gave_runPlaces p rest files s
    | some file => exact (gave_runFilePasses p.filePasses file s).trans (gave_runPlaces p rest _ _)

/-- **A run gives out the next ids in turn**, over all its files and passes. -/
theorem gave_runAll (p : Pipeline) (index : List SourceFile → TemplateIndex) (places : List Nat)
    (files : List SourceFile) (s : Session) :
    s.Gave (p.given index places files s) (p.runAll index places files s).session :=
  (gave_runPlaces p places files s).trans (gave_runFileSetPasses _ p.fileSetPasses _ _)

/-- **The ids of a run come in turn.** Take any passes, the files in any order, and then
all of them together, up to the end or to a stop. All ids that passes are given, in the
order of the run, are the ids drawn. With `first` the id that comes next where the run
starts, the one at place `k` among them is `first + k`, and the one that comes next
behind the run is `first` and their number, both up to a multiple of `2 ^ 32`. So they
are all different just when there are at most `2 ^ 32` of them, and unless `first` is
zero, none of them is smaller than `first` just when `first` and their number are at
most `2 ^ 32`. The passes that come with the pipeline are given none and leave the
source as it is. -/
theorem ids_in_turn (p : Pipeline) (index : List SourceFile → TemplateIndex) (places : List Nat)
    (files : List SourceFile) (s : Session) :
    let run := p.runAll index places files s
    let ids := p.given index places files s
    let first := s.ids.next.toNat
    run.session.drawn = s.drawn ++ ids ∧
    (∀ k (h : k < ids.length), ids[k].toNat = (first + k) % 2 ^ 32) ∧
    run.session.draw.1.toNat = (first + ids.length) % 2 ^ 32 ∧
    (ids.Nodup ↔ ids.length ≤ 2 ^ 32) ∧
    ((∀ id ∈ ids, first ≤ id.toNat) ↔ first = 0 ∨ first + ids.length ≤ 2 ^ 32) ∧
    ∀ role pass, builtinPass? role = some pass → ∀ index files t,
      pass.given index files t = [] ∧ (pass.runOn index files t).session.ids = t.ids ∧
        (pass.runOn index files t).session.drawn = t.drawn := by
  intro run ids first
  obtain ⟨hdrawn, hturn, hsource⟩ := gave_runAll p index places files s
  refine ⟨hdrawn, fun k h => ?_, ?_, ?_, ?_, fun role pass hpass index files t => ?_⟩
  · have hk : k < (s.ids.take ids.length).length := hturn ▸ h
    have hget : ids[k] = (s.ids.take ids.length)[k] := List.getElem_of_eq hturn h
    rw [hget, IdSource.toNat_getElem_take]
  · show run.session.ids.next.toNat = _
    rw [hsource, IdSource.toNat_next_behind]
  · rw [← IdSource.nodup_take_iff s.ids, ← hturn]
  · rw [← IdSource.le_of_mem_take_iff s.ids, ← hturn]
  · have hgave := pass.gave_runOn index files t
    rw [given_of_builtin hpass] at hgave
    exact ⟨given_of_builtin hpass index files t, hgave.source.trans t.ids.behind_zero,
      hgave.drawn.trans (List.append_nil _)⟩

end Pipeline
end TemplatePasses
