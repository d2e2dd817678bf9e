import EffectHarness.Acceptance.FailClosed
import EffectHarness.Acceptance.Lifecycle

namespace EffectHarness.Acceptance

open Schema Scripts

variable {Content : Type} {runRoot : Location} {site : Site} {tools : Tools Content} {root : RunRoot Content}
  {environment : Environment Content} {inputs : PackedInputs} {world : World Content} {event : Event Content}
  {events : List (Event Content)}

def artifactNames : List ArtifactName := [.contractTarball, .partitaTarball, .harnessTarball, .preludeTarball]

/-- The artifacts are read in order, and the first one that fails decides. -/
theorem collect_eq {ε α : Type} {visit : ArtifactName → Except ε α} {fails : ArtifactName → Bool}
    {error : ArtifactName → ε} {packed : Packed α}
    (each : ∀ name, visit name = if fails name then .error (error name) else .ok (packed.get name)) :
    Packed.collect visit =
      match artifactNames.find? fails with
      | none => .ok packed
      | some name => .error (error name) := by
  simp only [Packed.collect, each, artifactNames, List.find?_cons, List.find?_nil]
  cases fails .contractTarball <;> cases fails .partitaTarball <;> cases fails .harnessTarball <;>
    cases fails .preludeTarball <;> rfl

/-- The tarball does not have the hash that was recorded for it. -/
def Handoff.changed (runRoot : Location) (tools : Tools Content) (root : RunRoot Content) (handoff : Handoff Content)
    (name : ArtifactName) : Bool :=
  (root.tarball runRoot (handoff.inputs.get name)).map tools.sha256 != (handoff.bytes name).map tools.sha256

def changedError (name : ArtifactName) : RunError :=
  .assertion (some ("Packed " ++ name.text ++ " changed after PREPARE"))

theorem readArtifact_evidenceOf {bytes : ArtifactName → Content} {name : ArtifactName} {entry : FileName}
    {content : Content} (path : inputs.get name = (site.runRoot.packsRoot.join entry).text)
    (found : root.tarball site.runRoot (inputs.get name) = some content) :
    readArtifact site tools root (evidenceOf site.runRoot tools inputs bytes) name =
      if tools.sha256 content != tools.sha256 (bytes name) then .error (changedError name)
      else .ok (inputs.get name) := by
  have nonempty : site.runRoot.packsRoot.path ≠ [] := Location.join_path_ne_nil
  have resolved : site.cwd.resolve (inputs.get name) = inputs.get name := by
    rw [path, Location.resolve_join]
  have inside : (site.runRoot.packsRoot.below (inputs.get name)).isSome = true := by
    rw [path, Location.below_join nonempty]
    rfl
  have digest : sha256 site tools root (inputs.get name) = .ok (tools.sha256 content) := by
    rw [sha256, found]
    rfl
  simp only [readArtifact, evidenceOf, Packed.get_ofFn, resolved, inside, found, digest]
  by_cases same : tools.sha256 content = tools.sha256 (bytes name)
  · simp [assert, require, same, bind, Except.bind, pure, Except.pure]
  · simp [assert, require, same, bind, Except.bind, changedError]

/-- What the latest evidence names is in the packs directory, with whatever bytes. -/
def Stored (runRoot : Location) (world : World Content) : Prop :=
  ∀ handoff, world.latest = some handoff → ∀ name, ∃ entry,
    handoff.inputs.get name = (runRoot.packsRoot.join entry).text ∧ entry ∈ world.root.packs

theorem Backed.outcome (backed : Backed site.runRoot tools world) (stored : Stored site.runRoot world) :
    match world.root.packedInputs with
    | none => readPackedInputs site tools world.root = .error (.notFound site.runRoot.packedInputsPath.text)
    | some none => readPackedInputs site tools world.root = .error .syntaxError
    | some (some _) => ∃ handoff, world.latest = some handoff ∧
        readPackedInputs site tools world.root =
          match artifactNames.find? (handoff.changed site.runRoot tools world.root) with
          | none => .ok handoff.inputs
          | some name => .error (changedError name) := by
  cases evidence : world.root.packedInputs with
  | none => simp [readPackedInputs, evidence, expect, bind, Except.bind]
  | some text =>
    cases text with
    | none => simp [readPackedInputs, evidence, expect, parseJson, bind, Except.bind]
    | some json =>
      obtain ⟨handoff, latest, bytes, packed, evidenced⟩ := backed json evidence
      have written := evidenced.evidence
      rw [evidence] at written
      cases written
      have each : ∀ name,
          readArtifact site tools world.root (evidenceOf site.runRoot tools handoff.inputs bytes) name =
            if handoff.changed site.runRoot tools world.root name then .error (changedError name)
            else .ok (handoff.inputs.get name) := by
        intro name
        obtain ⟨entry, path, present⟩ := stored handoff latest name
        obtain ⟨content, there⟩ := Option.isSome_iff_exists.mp (AList.lookup_isSome.mpr present)
        have found : world.root.tarball site.runRoot (handoff.inputs.get name) = some content := by
          rw [path, RunRoot.tarball_join, there]
        rw [readArtifact_evidenceOf path found, Handoff.changed, found, packed name]
        simp
      have read : readPackedInputs site tools world.root =
          Packed.collect (readArtifact site tools world.root
            (evidenceOf site.runRoot tools handoff.inputs bytes)) := by
        simp [readPackedInputs, evidence, expect, parseJson, packedInputsEvidenceSchema.decode_encode, assert,
          require, evidenceOf, bind, Except.bind]
      exact ⟨handoff, latest, read.trans (collect_eq each)⟩

theorem Backed.reads_iff (backed : Backed site.runRoot tools world) (stored : Stored site.runRoot world) :
    (∃ inputs, readPackedInputs site tools world.root = .ok inputs) ↔
      (∃ json, world.root.packedInputs = some (some json)) ∧
        ∀ handoff, world.latest = some handoff → ∀ name,
          handoff.changed site.runRoot tools world.root name = false := by
  have outcome := backed.outcome stored
  cases evidence : world.root.packedInputs with
  | none =>
    rw [evidence] at outcome
    simp [outcome]
  | some text =>
    cases text with
    | none =>
      rw [evidence] at outcome
      simp [outcome]
    | some json =>
      rw [evidence] at outcome
      rcases outcome with ⟨handoff, latest, read⟩
      have unchanged : artifactNames.find? (handoff.changed site.runRoot tools world.root) = none ↔
          ∀ name, handoff.changed site.runRoot tools world.root name = false := by
        simp only [List.find?_eq_none, Bool.not_eq_true]
        exact ⟨fun each name => each name (by cases name <;> simp [artifactNames]), fun each name _ => each name⟩
      simp only [read, latest, Option.some.injEq, exists_eq', true_and, forall_eq', ← unchanged]
      cases artifactNames.find? (handoff.changed site.runRoot tools world.root) <;> simp

variable [DecidableEq Content]

theorem stored_step (stored : Stored runRoot world) : Stored runRoot (world.step runRoot tools event) := by
  rcases latest_step runRoot tools world event with written | kept
  · rcases written with ⟨inputs, writes, latest⟩
    obtain ⟨bytes, packedAs, -, recorded⟩ := writes.leaves
    intro handoff same name
    rw [latest] at same
    cases same
    obtain ⟨entry, path⟩ := packedAs.located name
    exact ⟨entry, path, recorded.mem_packs name path⟩
  · rcases kept with ⟨-, latest⟩
    intro handoff same name
    obtain ⟨entry, path, present⟩ := stored handoff (latest ▸ same) name
    exact ⟨entry, path, mem_packs_step present⟩

theorem stored_run (start : RunRoot Content) :
    Stored runRoot (events.foldl (World.step runRoot tools) (World.start start)) := by
  have always : AtEach (World.step runRoot tools) (fun _ _ => True) (World.start start) events :=
    fun _ _ _ _ => trivial
  have initial : Stored runRoot (World.start start) := by
    intro handoff latest
    cases latest
  exact invariant_foldl initial (fun _ _ stored _ => stored_step stored) always

/-- In every state that runs lead to, the reader finds no evidence, evidence that was cut off, or the first tarball
    of the latest evidence that changed; otherwise it returns all four. -/
theorem read_outcome (site : Site) (tools : Tools Content) (start : RunRoot Content) (events : List (Event Content)) :
    let world := events.foldl (World.step site.runRoot tools) (World.start start)
    match world.root.packedInputs with
    | none => readPackedInputs site tools world.root = .error (.notFound site.runRoot.packedInputsPath.text)
    | some none => readPackedInputs site tools world.root = .error .syntaxError
    | some (some _) => ∃ handoff, world.latest = some handoff ∧
        readPackedInputs site tools world.root =
          match artifactNames.find? (handoff.changed site.runRoot tools world.root) with
          | none => .ok handoff.inputs
          | some name => .error (changedError name) :=
  Backed.outcome (backed_run start) (stored_run start)

end EffectHarness.Acceptance
