import EffectHarness.Acceptance.Packing

namespace EffectHarness.Acceptance

open Schema Scripts

variable {Content : Type} {site : Site} {tools : Tools Content} {root after : RunRoot Content}
  {inputs : PackedInputs}

theorem collect_eq_ok {ε α : Type} {visit : ArtifactName → Except ε α} {packed : Packed α} :
    Packed.collect visit = .ok packed ↔ ∀ name, visit name = .ok (packed.get name) := by
  simp only [Packed.collect, bind_eq_ok, pure_eq_ok]
  apply Iff.intro
  · intro collected name
    rcases collected with
      ⟨contract, contractOk, partita, partitaOk, harness, harnessOk, prelude, preludeOk, same⟩
    subst same
    cases name <;> assumption
  · intro each
    exact ⟨_, each .contractTarball, _, each .partitaTarball, _, each .harnessTarball, _,
      each .preludeTarball, rfl⟩

theorem sha256_eq_ok {path digest : String} :
    sha256 site tools root path = .ok digest ↔
      ∃ content, root.tarball site.runRoot path = some content ∧ tools.sha256 content = digest := by
  simp only [sha256, bind_eq_ok, expect_eq_ok, pure_eq_ok]

theorem readArtifact_eq_ok {evidence : PackedInputsEvidence} {name : ArtifactName} {path : String} :
    readArtifact site tools root evidence name = .ok path ↔
      path = site.cwd.resolve (evidence.artifacts.get name).path ∧ (site.runRoot.packsRoot.below path).isSome = true ∧
        ∃ content, root.tarball site.runRoot path = some content ∧
          tools.sha256 content = (evidence.artifacts.get name).sha256 := by
  simp only [readArtifact, assert, bind_eq_ok, require_eq_ok, sha256_eq_ok, pure_eq_ok, beq_iff_eq]
  apply Iff.intro
  · intro read
    rcases read with ⟨-, inside, -, -, digest, ⟨content, found, hashed⟩, -, unchanged, same⟩
    subst same
    exact ⟨rfl, inside, content, found, hashed.trans unchanged⟩
  · intro accepted
    rcases accepted with ⟨same, inside, content, found, unchanged⟩
    subst same
    exact ⟨(), inside, (), by simp [found], _, ⟨content, found, rfl⟩, (), unchanged, rfl⟩

/-- The reader accepts evidence about this run root whose paths name tarballs with the recorded hashes. -/
theorem readPackedInputs_eq_ok :
    readPackedInputs site tools root = .ok inputs ↔
      ∃ json evidence, root.packedInputs = some (some json) ∧
        packedInputsEvidenceSchema.decode json = some evidence ∧ evidence.runRoot = site.runRoot.text ∧
        ∀ name, readArtifact site tools root evidence name = .ok (inputs.get name) := by
  simp only [readPackedInputs, parseJson, assert, bind_eq_ok, expect_eq_ok, require_eq_ok, collect_eq_ok,
    beq_iff_eq]
  apply Iff.intro
  · intro read
    rcases read with ⟨text, written, json, parsed, evidence, decoded, -, located, each⟩
    exact ⟨json, evidence, by rw [written, parsed], decoded, located, each⟩
  · intro accepted
    rcases accepted with ⟨json, evidence, written, decoded, located, each⟩
    exact ⟨some json, written, json, rfl, evidence, decoded, (), located, each⟩

def evidenceOf (runRoot : Location) (tools : Tools Content) (inputs : PackedInputs) (bytes : ArtifactName → Content) :
    PackedInputsEvidence where
  runRoot := runRoot.text
  artifacts := Packed.ofFn fun name => { path := inputs.get name, sha256 := tools.sha256 (bytes name) }

/-- The evidence stands for these tarballs, whatever has become of them. -/
structure Evidenced (runRoot : Location) (tools : Tools Content) (root : RunRoot Content) (inputs : PackedInputs)
    (bytes : ArtifactName → Content) : Prop where
  evidence : root.packedInputs = some (some (packedInputsEvidenceSchema.encode (evidenceOf runRoot tools inputs bytes)))
  located : ∀ name, ∃ entry, inputs.get name = (runRoot.packsRoot.join entry).text

/-- The evidence stands for these tarballs, and each of them is there with these bytes. -/
structure Recorded (runRoot : Location) (tools : Tools Content) (root : RunRoot Content) (inputs : PackedInputs)
    (bytes : ArtifactName → Content) : Prop extends Evidenced runRoot tools root inputs bytes where
  present : ∀ name, root.tarball runRoot (inputs.get name) = some (bytes name)

variable {runRoot : Location} {bytes : ArtifactName → Content}

/-- The reader returns the paths of the evidence, and only if the files behind them still have the recorded
    hashes. -/
theorem Evidenced.of_read {read : PackedInputs} (evidenced : Evidenced site.runRoot tools root inputs bytes)
    (accepted : readPackedInputs site tools root = .ok read) (name : ArtifactName) :
    read.get name = inputs.get name ∧
      ∃ content, root.tarball site.runRoot (inputs.get name) = some content ∧
        tools.sha256 content = tools.sha256 (bytes name) := by
  obtain ⟨json, evidence, written, decoded, -, each⟩ := readPackedInputs_eq_ok.mp accepted
  rw [evidenced.evidence] at written
  cases written
  rw [packedInputsEvidenceSchema.decode_encode] at decoded
  cases decoded
  obtain ⟨path, -, content, found, hashed⟩ := readArtifact_eq_ok.mp (each name)
  simp only [evidenceOf, Packed.get_ofFn] at path hashed
  obtain ⟨entry, located⟩ := evidenced.located name
  have same : read.get name = inputs.get name := by
    rw [path, located, Location.resolve_join]
  rw [same] at found
  exact ⟨same, content, found, hashed⟩

theorem Recorded.read (recorded : Recorded site.runRoot tools root inputs bytes) :
    readPackedInputs site tools root = .ok inputs := by
  have nonempty : site.runRoot.packsRoot.path ≠ [] := Location.join_path_ne_nil
  have each : ∀ name, readArtifact site tools root (evidenceOf site.runRoot tools inputs bytes) name =
      .ok (inputs.get name) := by
    intro name
    obtain ⟨entry, path⟩ := recorded.located name
    have resolved : inputs.get name = site.cwd.resolve (inputs.get name) := by
      rw [path, Location.resolve_join]
    have inside : (site.runRoot.packsRoot.below (inputs.get name)).isSome = true := by
      rw [path, Location.below_join nonempty]
      rfl
    rw [readArtifact_eq_ok]
    simp only [evidenceOf, Packed.get_ofFn]
    exact ⟨resolved, inside, bytes name, recorded.present name, rfl⟩
  rw [readPackedInputs_eq_ok]
  exact ⟨_, _, recorded.evidence, packedInputsEvidenceSchema.decode_encode _, rfl, each⟩

theorem Recorded.congr (recorded : Recorded runRoot tools root inputs bytes)
    (sameEvidence : after.packedInputs = root.packedInputs)
    (sameTarballs : ∀ name, after.tarball runRoot (inputs.get name) = root.tarball runRoot (inputs.get name)) :
    Recorded runRoot tools after inputs bytes where
  evidence := sameEvidence.trans recorded.evidence
  located := recorded.located
  present name := (sameTarballs name).trans (recorded.present name)

theorem hashArtifacts_eq (found : ∀ name, root.tarball site.runRoot (inputs.get name) = some (bytes name)) :
    hashArtifacts site tools root inputs = .ok (evidenceOf site.runRoot tools inputs bytes).artifacts := by
  rw [hashArtifacts, collect_eq_ok]
  intro name
  simp only [bind_eq_ok, sha256_eq_ok, pure_eq_ok, evidenceOf, Packed.get_ofFn]
  exact ⟨_, ⟨bytes name, found name, rfl⟩, rfl⟩

theorem writePackedInputs_eq (write : EvidenceWrite)
    (found : ∀ name, root.tarball site.runRoot (inputs.get name) = some (bytes name)) :
    writePackedInputs site tools write inputs root =
      match write with
      | .written => .ok () { root with
          packedInputs := some (some (packedInputsEvidenceSchema.encode (evidenceOf site.runRoot tools inputs bytes))) }
      | .refused => .error (.writeFailed site.runRoot.packedInputsPath.text) root
      | .cutOff => .error (.writeFailed site.runRoot.packedInputsPath.text) { root with packedInputs := some none } := by
  simp only [writePackedInputs, get_bind_apply, lift_eq, lift_bind_apply, hashArtifacts_eq found]
  cases write <;> rfl

def PackedAs (runRoot : Location) (preparation : Preparation Content) (inputs : PackedInputs)
    (bytes : ArtifactName → Content) : Prop :=
  ∀ name, ∃ entry, (preparation.packed name).written = some (entry, bytes name) ∧
    inputs.get name = (runRoot.packsRoot.join entry).text

theorem PackedAs.located {preparation : Preparation Content} (packedAs : PackedAs runRoot preparation inputs bytes)
    (name : ArtifactName) : ∃ entry, inputs.get name = (runRoot.packsRoot.join entry).text := by
  obtain ⟨entry, -, path⟩ := packedAs name
  exact ⟨entry, path⟩

section

variable [DecidableEq Content] {environment : Environment Content}

def attemptSteps (site : Site) (tools : Tools Content) (environment : Environment Content) :
    List (Step FileName Content) :=
  .check (opening site .prepare environment).isOk :: packingSteps site tools environment.preparation

def openAndPack (site : Site) (tools : Tools Content) (environment : Environment Content) :
    Runner Content PackedInputs := do
  opening site .prepare environment
  packInputs site tools environment.preparation

theorem openAndPack_performs (site : Site) (tools : Tools Content) (environment : Environment Content) :
    Performs FileName.isTarball RunRoot.packs RunRoot.packedInputs (openAndPack site tools environment)
      (attemptSteps site tools environment)
      fun inputs => ∀ name, PackedAt site.runRoot (environment.preparation.packed name) (inputs.get name) :=
  Performs.bind_step (Performs.check rfl fun _ _ => trivial) fun _ _ => packInputs_performs

theorem packedInputs_prepare :
    packedInputs site tools .prepare environment =
      (openAndPack site tools environment >>= fun inputs => do
        writePackedInputs site tools environment.preparation.evidenceWrite inputs
        return inputs) := by
  rw [packedInputs, openAndPack]
  simp [preparePackedInputs, bind_assoc]

theorem packed_mem_attemptSteps (name : ArtifactName) :
    Step.pack (environment.preparation.packed name).output ∈ attemptSteps site tools environment := by
  cases name <;> simp [attemptSteps, packingSteps, Preparation.packed]

theorem openAndPack_leaves
    (passes : runSteps FileName.isTarball (attemptSteps site tools environment) root.packs = (true, after.packs))
    (packedAt : ∀ name, PackedAt site.runRoot (environment.preparation.packed name) (inputs.get name)) :
    ∃ bytes, PackedAs site.runRoot environment.preparation inputs bytes ∧
      ∀ name, after.tarball site.runRoot (inputs.get name) = some (bytes name) := by
  have kept : ∀ name, ∃ content, (∃ entry,
      (environment.preparation.packed name).written = some (entry, content) ∧
        inputs.get name = (site.runRoot.packsRoot.join entry).text) ∧
      after.tarball site.runRoot (inputs.get name) = some content := by
    intro name
    have ended : (runSteps FileName.isTarball (attemptSteps site tools environment) root.packs).1 = true := by
      rw [passes]
    obtain ⟨entry, content, written, -, found⟩ := lookup_packed ended (packed_mem_attemptSteps name)
    -- The path that `pack` returned and the file that the attempt kept come from one output.
    obtain ⟨other, packed, same, path⟩ := packedAt name
    rw [passes] at found
    have together : some (other, packed) = some (entry, content) := same.symm.trans written
    cases together
    have there : after.tarball site.runRoot (inputs.get name) = some content := by
      rw [path, RunRoot.tarball_join]
      exact found
    exact ⟨content, ⟨entry, written, path⟩, there⟩
  choose bytes packedAs found using kept
  exact ⟨bytes, packedAs, found⟩

/-- The attempt packs everything, and then the write of its evidence is cut off. -/
def cutsOff (site : Site) (tools : Tools Content) (environment : Environment Content) (root : RunRoot Content) :
    Bool :=
  (runSteps FileName.isTarball (attemptSteps site tools environment) root.packs).1 &&
    environment.preparation.evidenceWrite == .cutOff

/-- PREPARE either fails, with the old evidence unless it is cut off, or leaves evidence that stands for what it
    packed. -/
theorem prepare_cases (site : Site) (tools : Tools Content) (environment : Environment Content)
    (root : RunRoot Content) :
    match packedInputs site tools .prepare environment root with
    | .error _ after =>
      after.packedInputs = (if cutsOff site tools environment root then some none else root.packedInputs) ∧
        after.packs = (runSteps FileName.isTarball (attemptSteps site tools environment) root.packs).2
    | .ok inputs after =>
      (runSteps FileName.isTarball (attemptSteps site tools environment) root.packs).1 = true ∧
        cutsOff site tools environment root = false ∧
        ∃ bytes, PackedAs site.runRoot environment.preparation inputs bytes ∧
          Recorded site.runRoot tools after inputs bytes := by
  have performed := openAndPack_performs site tools environment root
  rw [packedInputs_prepare, bind_apply, cutsOff]
  cases ran : openAndPack site tools environment root with
  | error error middle =>
    rw [ran] at performed
    rcases performed with ⟨fails, framed⟩
    rw [fails]
    exact ⟨framed, rfl⟩
  | ok inputs middle =>
    rw [ran] at performed
    rcases performed with ⟨packedAt, passes, framed⟩
    obtain ⟨bytes, packedAs, found⟩ := openAndPack_leaves passes packedAt
    dsimp only
    rw [bind_apply, writePackedInputs_eq _ found, passes]
    cases environment.preparation.evidenceWrite with
    | written => exact ⟨rfl, rfl, bytes, packedAs, ⟨rfl, packedAs.located⟩, found⟩
    | refused => exact ⟨framed, rfl⟩
    | cutOff => exact ⟨rfl, rfl⟩

end

end EffectHarness.Acceptance
