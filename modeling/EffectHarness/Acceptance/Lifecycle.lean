import EffectHarness.Acceptance.Handoff

namespace EffectHarness.Acceptance

open Scripts

variable {Content : Type} [DecidableEq Content] {runRoot : Location} {site : Site} {tools : Tools Content}
  {root after : RunRoot Content} {environment : Environment Content} {inputs : PackedInputs}
  {world : World Content} {event : Event Content} {events : List (Event Content)} {entry : FileName}

theorem prepare_packs :
    (finalState (packedInputs site tools .prepare environment root)).packs =
      (runSteps FileName.isTarball (attemptSteps site tools environment) root.packs).2 := by
  have performed := openAndPack_performs site tools environment root
  rw [packedInputs_prepare, finalState_bind]
  cases ran : openAndPack site tools environment root with
  | error error middle =>
    rw [ran] at performed
    rw [performed.1]
  | ok inputs middle =>
    rw [ran] at performed
    rcases performed with ⟨packedAt, passes, -⟩
    obtain ⟨bytes, -, found⟩ := openAndPack_leaves passes packedAt
    dsimp only
    rw [finalState_bind, writePackedInputs_eq _ found, passes]
    cases environment.preparation.evidenceWrite <;> rfl

theorem prepare_ok_iff_steps :
    (∃ inputs after, packedInputs site tools .prepare environment root = .ok inputs after) ↔
      (runSteps FileName.isTarball (attemptSteps site tools environment) root.packs).1 = true ∧
        environment.preparation.evidenceWrite = .written := by
  have performed := openAndPack_performs site tools environment root
  rw [packedInputs_prepare, bind_apply]
  cases ran : openAndPack site tools environment root with
  | error error middle =>
    rw [ran] at performed
    rw [performed.1]
    simp
  | ok inputs middle =>
    rw [ran] at performed
    rcases performed with ⟨packedAt, passes, -⟩
    obtain ⟨bytes, -, found⟩ := openAndPack_leaves passes packedAt
    dsimp only
    rw [bind_apply, writePackedInputs_eq _ found, passes]
    cases environment.preparation.evidenceWrite with
    | written => simp [pure, EStateM.pure]
    | refused => simp
    | cutOff => simp

/-- Every condition of a PREPARE that has nothing to do with the packs directory. -/
structure ChecksPass (site : Site) (tools : Tools Content) (environment : Environment Content) : Prop where
  opens : (opening site .prepare environment).isOk = true
  verified : (verifyRepositories .prepare environment.preparation.verification).isOk = true
  installed : environment.preparation.installation.result.succeeds = true
  cliExists : environment.preparation.installation.cliExists = true
  first : (publishFixture site (partitaCli site) (environment.preparation.publicationRoot site) "first"
    environment.preparation.first).isOk = true
  second : (publishFixture site (partitaCli site) (environment.preparation.publicationRoot site) "second"
    environment.preparation.second).isOk = true
  determinism : (assertPublicationDeterminism environment.preparation.files
    (environment.preparation.publicationRoot site)).isOk = true
  artifact : (assertHarnessArtifact site tools environment.preparation.files environment.preparation.tar
    (environment.preparation.publicationRoot site)).isOk = true

theorem sound_attemptSteps_iff :
    (∀ step ∈ attemptSteps site tools environment, step.Sound FileName.isTarball root.packs) ↔
      ChecksPass site tools environment ∧
        ∀ name, (environment.preparation.packed name).output.fresh FileName.isTarball root.packs = true := by
  simp only [attemptSteps, packingSteps, List.forall_mem_cons, Step.Sound]
  apply Iff.intro
  · intro sound
    obtain ⟨opens, verified, contract, partita, installed, cliExists, first, second, determinism, harness, artifact,
      prelude, -⟩ := sound
    have each : ∀ name, (environment.preparation.packed name).output.fresh FileName.isTarball root.packs = true := by
      intro name
      cases name <;> assumption
    exact ⟨⟨opens, verified, installed, cliExists, first, second, determinism, artifact⟩, each⟩
  · intro passes
    rcases passes with ⟨checks, each⟩
    exact ⟨checks.opens, checks.verified, each .contractTarball, each .partitaTarball, checks.installed,
      checks.cliExists, checks.first, checks.second, checks.determinism, each .harnessTarball, checks.artifact,
      each .preludeTarball, by simp⟩

theorem packed_attemptSteps :
    (attemptSteps site tools environment).filterMap Step.packed =
      [ArtifactName.contractTarball, .partitaTarball, .harnessTarball, .preludeTarball].filterMap fun name =>
        (environment.preparation.packed name).written.map Prod.fst := by
  rfl

/-- The four packs leave four tarballs that were not there before. -/
structure PacksAfresh (root : RunRoot Content) (preparation : Preparation Content) (entry : ArtifactName → FileName) :
    Prop where
  distinct : entry.Injective
  succeeds : ∀ name, (preparation.packed name).result.succeeds = true
  written : ∀ name, ∃ content, (preparation.packed name).written = some (entry name, content)
  tarball : ∀ name, (entry name).isTarball = true
  new : ∀ name, entry name ∉ root.packs

theorem nodup_artifacts_iff {α : Type} {value : ArtifactName → α} :
    [value .contractTarball, value .partitaTarball, value .harnessTarball, value .preludeTarball].Nodup ↔
      value.Injective := by
  apply Iff.intro
  · intro distinct first second same
    cases first <;> cases second <;> simp_all
  · intro injective
    simp [injective.eq_iff]

theorem fresh_packs_iff (site : Site) (tools : Tools Content) :
    ((∀ name, (environment.preparation.packed name).output.fresh FileName.isTarball root.packs = true) ∧
      ((attemptSteps site tools environment).filterMap Step.packed).Nodup) ↔
      ∃ entry, PacksAfresh root environment.preparation entry := by
  simp only [fresh_iff, PackOutcome.output, packed_attemptSteps]
  apply Iff.intro
  · intro packs
    rcases packs with ⟨each, distinct⟩
    choose succeeds entry content written tarball new using each
    simp only [written, Option.map_some, List.filterMap_cons, List.filterMap_nil] at distinct
    exact ⟨entry, nodup_artifacts_iff.mp distinct, succeeds, fun name => ⟨content name, written name⟩, tarball, new⟩
  · intro packs
    rcases packs with ⟨entry, packs⟩
    choose content written using packs.written
    have distinct := nodup_artifacts_iff.mpr packs.distinct
    simp only [written, Option.map_some, List.filterMap_cons, List.filterMap_nil]
    exact ⟨fun name => ⟨packs.succeeds name, entry name, content name, rfl, packs.tarball name, packs.new name⟩,
      distinct⟩

/-- PREPARE writes its evidence exactly if all its checks pass and it packs four new tarballs of different names. -/
theorem prepare_ok_iff :
    (∃ inputs after, packedInputs site tools .prepare environment root = .ok inputs after) ↔
      ChecksPass site tools environment ∧ environment.preparation.evidenceWrite = .written ∧
        ∃ entry, PacksAfresh root environment.preparation entry := by
  rw [prepare_ok_iff_steps, runSteps_passes_iff, sound_attemptSteps_iff, ← fresh_packs_iff site tools]
  tauto

/-- The event is a PREPARE that writes evidence for these tarballs. -/
def Writes (runRoot : Location) (tools : Tools Content) (world : World Content) (event : Event Content)
    (inputs : PackedInputs) : Prop :=
  event.phase = .prepare ∧
    ∃ after, packedInputs (event.checkouts.site runRoot) tools .prepare event.environment world.root = .ok inputs after

theorem latest_step (runRoot : Location) (tools : Tools Content) (world : World Content) (event : Event Content) :
    (∃ inputs, Writes runRoot tools world event inputs ∧
      (world.step runRoot tools event).latest = some (event.environment.preparation.handoff inputs)) ∨
    ((∀ inputs, ¬ Writes runRoot tools world event inputs) ∧
      (world.step runRoot tools event).latest = world.latest) := by
  rcases event with ⟨checkouts, phase, environment⟩
  cases phase with
  | apply =>
    apply Or.inr
    apply And.intro
    · intro inputs writes
      cases writes.1
    · rfl
  | prepare =>
    cases result : packedInputs (checkouts.site runRoot) tools .prepare environment world.root with
    | ok inputs after =>
      have latest : (world.step runRoot tools ⟨checkouts, .prepare, environment⟩).latest =
          some (environment.preparation.handoff inputs) := by
        simp only [World.step, World.after, result]
      exact .inl ⟨inputs, ⟨rfl, after, result⟩, latest⟩
    | error error after =>
      have latest : (world.step runRoot tools ⟨checkouts, .prepare, environment⟩).latest = world.latest := by
        simp only [World.step, World.after, result]
      apply Or.inr
      apply And.intro
      · intro inputs writes
        obtain ⟨-, left, wrote⟩ := writes
        rw [result] at wrote
        cases wrote
      · exact latest

theorem crossRepo_packs {phase : Phase} (root : RunRoot Content) :
    (finalState (crossRepo site tools phase environment root)).packs =
      (finalState (packedInputs site tools phase environment root)).packs :=
  crossRepo_keeps RunRoot.packs (fun _ _ => rfl) (fun _ _ _ => rfl) root

theorem mem_packs_step (present : entry ∈ world.root.packs) :
    entry ∈ (world.step runRoot tools event).root.packs := by
  rcases event with ⟨checkouts, phase, environment⟩
  have packs : (world.step runRoot tools ⟨checkouts, phase, environment⟩).root.packs = _ :=
    crossRepo_packs world.root
  rw [packs]
  cases phase with
  | prepare =>
    rw [prepare_packs]
    exact mem_runSteps present
  | apply =>
    rw [apply_keeps]
    exact present

/-- No run takes a packed file away. -/
theorem mem_packs_run (present : entry ∈ world.root.packs) :
    entry ∈ (events.foldl (World.step runRoot tools) world).root.packs := by
  induction events generalizing world with
  | nil => exact present
  | cons event events ih => exact ih (mem_packs_step present)

theorem Writes.leaves (writes : Writes runRoot tools world event inputs) :
    ∃ bytes, PackedAs runRoot event.environment.preparation inputs bytes ∧
      (world.step runRoot tools event).latest = some (event.environment.preparation.handoff inputs) ∧
      Recorded runRoot tools (world.step runRoot tools event).root inputs bytes := by
  rcases event with ⟨checkouts, phase, environment⟩
  rcases writes with ⟨prepares, after, wrote⟩
  cases prepares
  have evidence : (world.step runRoot tools ⟨checkouts, .prepare, environment⟩).root.packedInputs = _ :=
    crossRepo_packedInputs world.root
  have tarballs : ∀ path,
      (world.step runRoot tools ⟨checkouts, .prepare, environment⟩).root.tarball runRoot path = _ :=
    crossRepo_tarball world.root runRoot
  have ended := prepare_cases (checkouts.site runRoot) tools environment world.root
  have latest : (world.step runRoot tools ⟨checkouts, .prepare, environment⟩).latest =
      some (environment.preparation.handoff inputs) := by
    simp only [World.step, World.after, wrote]
  rw [wrote] at ended evidence tarballs
  rcases ended with ⟨-, -, bytes, packedAs, recorded⟩
  exact ⟨bytes, packedAs, latest, recorded.congr evidence fun _ => tarballs _⟩

omit [DecidableEq Content] in
theorem Recorded.mem_packs {bytes : ArtifactName → Content} (recorded : Recorded runRoot tools root inputs bytes)
    (name : ArtifactName) (path : inputs.get name = (runRoot.packsRoot.join entry).text) : entry ∈ root.packs := by
  have found := recorded.present name
  rw [path, RunRoot.tarball_join] at found
  rw [← AList.lookup_isSome, found]
  rfl

theorem Writes.names_apart {between : List (Event Content)} {later : Event Content} {laterInputs : PackedInputs}
    (writes : Writes runRoot tools world event inputs)
    (again : Writes runRoot tools (between.foldl (World.step runRoot tools) (world.step runRoot tools event)) later
      laterInputs) (name other : ArtifactName) :
    (later.environment.preparation.packed other).written.map Prod.fst ≠
      (event.environment.preparation.packed name).written.map Prod.fst := by
  intro same
  obtain ⟨bytes, packedAs, -, recorded⟩ := writes.leaves
  obtain ⟨entry, written, path⟩ := packedAs name
  have present : entry ∈ (between.foldl (World.step runRoot tools) (world.step runRoot tools event)).root.packs :=
    mem_packs_run (recorded.mem_packs name path)
  obtain ⟨-, -, entries, packs⟩ := prepare_ok_iff.mp ⟨laterInputs, again.2⟩
  obtain ⟨content, rewritten⟩ := packs.written other
  rw [written, rewritten] at same
  have reused : entries other = entry := by simpa using same
  exact packs.new other (reused ▸ present)

/-- A file name that an evidence-writing PREPARE packed is used up: no later PREPARE on the run root that packs a
    file of that name writes evidence, whatever happens in between. -/
theorem packed_names_used_up {between : List (Event Content)} {later : Event Content} {laterInputs : PackedInputs}
    (writes : Writes runRoot tools world event inputs) (name other : ArtifactName)
    (same : (later.environment.preparation.packed other).written.map Prod.fst =
      (event.environment.preparation.packed name).written.map Prod.fst) :
    ¬ Writes runRoot tools ((event :: between).foldl (World.step runRoot tools) world) later laterInputs :=
  fun again => writes.names_apart again name other same

theorem writes_of_passes (prepare : event.phase = .prepare)
    (passed : passes (packedInputs (event.checkouts.site runRoot) tools .prepare event.environment world.root) = true) :
    ∃ inputs, Writes runRoot tools world event inputs := by
  obtain ⟨inputs, after, wrote⟩ := passes_iff.mp passed
  exact ⟨inputs, prepare, after, wrote⟩

omit [DecidableEq Content] in
theorem first_prepare_writes :
    ∃ inputs, Writes releaseRoot releaseTools (World.start emptyRoot) (prepared "first") inputs :=
  writes_of_passes rfl (by decide +kernel)

theorem release_names_used_up : ∃ inputs,
    Writes releaseRoot releaseTools (World.start emptyRoot) (prepared "first") inputs ∧
      ∀ laterInputs, ¬ Writes releaseRoot releaseTools
        ([prepared "first", applied].foldl (World.step releaseRoot releaseTools) (World.start emptyRoot))
        (prepared "second") laterInputs := by
  obtain ⟨inputs, writes⟩ := first_prepare_writes
  exact ⟨inputs, writes, fun _ => packed_names_used_up writes .contractTarball .contractTarball rfl⟩

theorem apply_of_read (opened : (opening site .apply environment).isOk = true)
    (read : readPackedInputs site tools root = .ok inputs) :
    packedInputs site tools .apply environment root = .ok inputs root := by
  rw [apply_eq]
  cases result : opening site .apply environment with
  | error error =>
    rw [result] at opened
    cases opened
  | ok => simp only [bind, Except.bind, read]

end EffectHarness.Acceptance
