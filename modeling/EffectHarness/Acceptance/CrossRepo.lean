import EffectHarness.Acceptance.Checks

namespace EffectHarness.Acceptance

open Schema Scripts

/-- The runner keeps what it has done to the run root when it throws. -/
abbrev Runner (Content : Type) := EStateM RunError (RunRoot Content)

variable {Content : Type}

/-- What `pnpm pack` did: the file it left in the destination, also where it failed afterwards. -/
structure PackOutcome (Content : Type) where
  written : Option (FileName × Content)
  result : SpawnResult

def PackOutcome.output (outcome : PackOutcome Content) : Output FileName Content where
  written := outcome.written
  succeeds := outcome.result.succeeds

def pack (site : Site) (packageRoot : Location) (outcome : PackOutcome Content) : Runner Content String := do
  let before := (← get).packs.keys
  modify fun root => { root with packs := outcome.output.write root.packs }
  run "pnpm" ["--config.ignore-scripts=true", "pack", "--pack-destination", site.runRoot.packsRoot.text] outcome.result
  -- By now the file is written, whether or not the check lets the attempt go on.
  match created FileName.isTarball before (← get).packs.keys with
  | [entry] => return (site.runRoot.packsRoot.join entry).text
  | _ => throw (.assertion (some ("Expected one tarball from " ++ packageRoot.text)))

structure Installation where
  result : SpawnResult
  cliExists : Bool

def installPackedPartita (site : Site) (installation : Installation) (partitaTarball contractTarball : String) :
    Runner Content String := do
  let manifest := Json.obj
    [("name", .str "packed-partita-runner"),
     ("private", .bool true),
     ("dependencies", .obj [("@sayoriqwq/partita", .str ("file:" ++ partitaTarball))])]
  let workspace := "overrides:\n  '@sayoriqwq/prelude-contract': 'file:" ++ contractTarball ++
    "'\n  '@effect/platform-node@4.0.0-beta.92>@effect/platform-node-shared': '4.0.0-beta.97'" ++
    "\n  '@effect/platform-node@4.0.0-beta.97>@effect/platform-node-shared': '4.0.0-beta.97'" ++
    "\ntrustPolicy: no-downgrade\ntrustPolicyExclude:\n  - effect@4.0.0-beta.92\n  - effect@4.0.0-beta.97" ++
    "\n  - '@effect/platform-node@4.0.0-beta.92'\n  - '@effect/platform-node@4.0.0-beta.97'" ++
    "\n  - '@effect/platform-node-shared@4.0.0-beta.97'\n"
  modify fun root => { root with partitaRunner := some { manifest, workspace } }
  run "pnpm"
    ["install", "--ignore-scripts", "--reporter", "append-only",
     "--trust-policy-exclude", "effect@4.0.0-beta.97",
     "--trust-policy-exclude", "@effect/platform-node@4.0.0-beta.97",
     "--trust-policy-exclude", "@effect/platform-node-shared@4.0.0-beta.97"] installation.result
  assert installation.cliExists (some "Packed Partita CLI was not installed")
  return site.runRoot.text ++ "/partita-runner/node_modules/.bin/partita"

/-- How the write of the evidence ends. One that is cut off has already emptied the file, and what it leaves
    does not parse. -/
inductive EvidenceWrite
  | written
  | refused
  | cutOff
  deriving DecidableEq

/-- Everything that PREPARE sees of the world while it packs: the outcomes of its child processes and the files
    that they read and write outside the run root. -/
structure Preparation (Content : Type) where
  harnessTemp : FileName
  verification : Verification
  contract : PackOutcome Content
  partita : PackOutcome Content
  installation : Installation
  first : Publishing
  second : Publishing
  files : Files Content
  harness : PackOutcome Content
  tar : TarOutcomes Content
  prelude : PackOutcome Content
  evidenceWrite : EvidenceWrite

def Preparation.publicationRoot (preparation : Preparation Content) (site : Site) : Location :=
  (site.harnessRoot.join preparation.harnessTemp).join ⟨"publication".toList, by decide⟩

def sha256 (site : Site) (tools : Tools Content) (root : RunRoot Content) (path : String) :
    Except RunError String := do
  return tools.sha256 (← expect (root.tarball site.runRoot path) (.notFound path))

section

variable [DecidableEq Content]

/-- The part of `preparePackedInputs` in front of its evidence. -/
def packInputs (site : Site) (tools : Tools Content) (preparation : Preparation Content) :
    Runner Content PackedInputs := do
  let publicationRoot := preparation.publicationRoot site
  verifyRepositories .prepare preparation.verification
  let contractTarball ← pack site
    (site.preludeRoot.joinAll [⟨"packages".toList, by decide⟩, ⟨"harness-contract".toList, by decide⟩])
    preparation.contract
  let partitaTarball ← pack site site.partitaRoot preparation.partita
  let partita ← installPackedPartita site preparation.installation partitaTarball contractTarball
  publishFixture site partita publicationRoot "first" preparation.first
  publishFixture site partita publicationRoot "second" preparation.second
  assertPublicationDeterminism preparation.files publicationRoot
  let harnessTarball ← pack site site.harnessRoot preparation.harness
  assertHarnessArtifact site tools preparation.files preparation.tar publicationRoot
  let preludeTarball ← pack site
    (site.preludeRoot.joinAll [⟨"apps".toList, by decide⟩, ⟨"cli".toList, by decide⟩]) preparation.prelude
  return { contractTarball, partitaTarball, harnessTarball, preludeTarball }

end

def hashArtifacts (site : Site) (tools : Tools Content) (root : RunRoot Content) (inputs : PackedInputs) :
    Except RunError (Packed PackedArtifact) :=
  Packed.collect fun name => do
    let path := inputs.get name
    return { path, sha256 := ← sha256 site tools root path }

def writePackedInputs (site : Site) (tools : Tools Content) (write : EvidenceWrite) (inputs : PackedInputs) :
    Runner Content Unit := do
  let artifacts ← hashArtifacts site tools (← get) inputs
  let evidence := packedInputsEvidenceSchema.encode { runRoot := site.runRoot.text, artifacts }
  match write with
  | .written => modify fun root => { root with packedInputs := some (some evidence) }
  | .refused => throw (.writeFailed site.runRoot.packedInputsPath.text)
  | .cutOff => do
    modify fun root => { root with packedInputs := some none }
    throw (.writeFailed site.runRoot.packedInputsPath.text)

def preparePackedInputs [DecidableEq Content] (site : Site) (tools : Tools Content)
    (preparation : Preparation Content) : Runner Content PackedInputs := do
  let inputs ← packInputs site tools preparation
  writePackedInputs site tools preparation.evidenceWrite inputs
  return inputs

def readArtifact (site : Site) (tools : Tools Content) (root : RunRoot Content) (evidence : PackedInputsEvidence)
    (name : ArtifactName) : Except RunError String := do
  let artifact := evidence.artifacts.get name
  let path := site.cwd.resolve artifact.path
  assert (site.runRoot.packsRoot.below path).isSome (some ("Packed " ++ name.text ++ " escapes the approved workspace"))
  assert (root.tarball site.runRoot path).isSome (some ("Packed " ++ name.text ++ " is missing"))
  assert ((← sha256 site tools root path) == artifact.sha256)
    (some ("Packed " ++ name.text ++ " changed after PREPARE"))
  return path

def readPackedInputs (site : Site) (tools : Tools Content) (root : RunRoot Content) :
    Except RunError PackedInputs := do
  let text ← expect root.packedInputs (.notFound site.runRoot.packedInputsPath.text)
  let evidence ← expect (packedInputsEvidenceSchema.decode (← parseJson text)) .schemaError
  assert (evidence.runRoot == site.runRoot.text) none
  Packed.collect (readArtifact site tools root evidence)

structure Environment (Content : Type) where
  approvals : Option String
  path : Option String
  partitaManifest : Option JsonText
  preludeManifest : Option JsonText
  preparation : Preparation Content
  acceptance : SpawnResult
  invokesGit : Bool
  targets : Files JsonText

def opening (site : Site) (phase : Phase) (environment : Environment Content) : Except RunError Unit := do
  require (phase == .prepare || environment.approvals.isSome) (.error "CROSS_REPO_APPROVALS is required for APPLY")
  assertRepository site.partitaRoot "@sayoriqwq/partita" environment.partitaManifest
  assertRepository site.preludeRoot "prelude-workspace" environment.preludeManifest

def packedInputs [DecidableEq Content] (site : Site) (tools : Tools Content) (phase : Phase)
    (environment : Environment Content) : Runner Content PackedInputs := do
  opening site phase environment
  match phase with
  | .prepare => preparePackedInputs site tools environment.preparation
  | .apply => readPackedInputs site tools (← get)

structure GitSentinel where
  bin : String
  log : String

def installGitSentinel (site : Site) : GitSentinel where
  bin := site.runRoot.text ++ "/target-bin"
  log := site.runRoot.text ++ "/target-git-invocations.log"

def preludeEnvironment (site : Site) (phase : Phase) (environment : Environment Content) (inputs : PackedInputs) :
    List (String × String) :=
  let gitSentinel := installGitSentinel site
  let approvalEnvironment := match environment.approvals with
    | none => []
    | some approvals => [("PRELUDE_GATE_APPROVALS", approvals)]
  [("EFFECT_HARNESS_TARBALL", inputs.harnessTarball),
   ("PRELUDE_CONTRACT_TARBALL", inputs.contractTarball),
   ("PRELUDE_CLI_TARBALL", inputs.preludeTarball),
   ("PRELUDE_GATE_PHASE", phase.text),
   ("PRELUDE_GATE_ROOT", site.runRoot.text ++ "/targets")] ++ approvalEnvironment ++
  [("PATH", gitSentinel.bin ++ ":" ++ environment.path.getD ""),
   ("PRELUDE_KEEP_TEMP", "1"),
   ("TARGET_GIT_SENTINEL_LOG", gitSentinel.log)]

structure PreparedTargetEvidence where
  planHash : String
  targetRoot : String
  observedStateBinding : Json
  executionHash : String
  commands : List Json

/-- Excess properties are preserved, so the binding is kept as it is. -/
def decodePreparedTargetEvidence (json : Json) : Option PreparedTargetEvidence :=
  match json with
  | .obj pairs =>
    match pairs.lookup "planHash", pairs.lookup "targetRoot", pairs.lookup "observedStateBinding",
      pairs.lookup "commands" with
    | some (.str planHash), some (.str targetRoot), some (.obj binding), some (.arr commands) =>
      match binding.lookup "executionHash" with
      | some (.str executionHash) =>
        some { planHash, targetRoot, observedStateBinding := .obj binding, executionHash, commands }
      | _ => none
    | _, _, _, _ => none
  | _ => none

def isPlanHash (text : String) : Bool :=
  text.length == 64 && text.toList.all fun character => "abcdef0123456789".toList.contains character

def approval (site : Site) (targets : Files JsonText) (name : String) : Except RunError (String × Approval) := do
  let targetRoot := site.runRoot.text ++ "/targets/" ++ name
  let text ← expect (targets (targetRoot ++ ".prepare.json")) (.notFound (targetRoot ++ ".prepare.json"))
  let evidence ← expect (decodePreparedTargetEvidence (← parseJson text)) .schemaError
  assert (isPlanHash evidence.planHash) none
  assert (evidence.targetRoot == targetRoot) none
  assert (evidence.executionHash == evidence.planHash) none
  return (name, {
    planHash := evidence.planHash
    targetRoot := evidence.targetRoot
    observedStateBinding := evidence.observedStateBinding
    commands := evidence.commands })

def writeApprovalCommandEvidence (site : Site) (targets : Files JsonText) : Runner Content Unit := do
  let approvals ← ["single", "monorepo"].mapM fun name => approval site targets name
  modify fun root => { root with approvalCommand := some {
    cwd := site.harnessRoot.text
    crossRepoRoot := site.runRoot.text
    crossRepoApprovals := approvals } }

def handOver (site : Site) (phase : Phase) (environment : Environment Content) (inputs : PackedInputs) :
    Runner Content Unit :=
  modify fun root => { root with
    handed := root.handed ++ [preludeEnvironment site phase environment inputs]
    gitInvocations := root.gitInvocations || environment.invokesGit }

def awaitAcceptance (site : Site) (phase : Phase) (environment : Environment Content) : Runner Content Unit := do
  run "pnpm" ["acceptance:packed-effect"] environment.acceptance
  assert (!(← get).gitInvocations) (some "Target convergence must not invoke Git")
  if phase = .prepare then writeApprovalCommandEvidence site environment.targets

def deliver (site : Site) (phase : Phase) (environment : Environment Content) (inputs : PackedInputs) :
    Runner Content Unit := do
  handOver site phase environment inputs
  awaitAcceptance site phase environment

def crossRepo [DecidableEq Content] (site : Site) (tools : Tools Content) (phase : Phase)
    (environment : Environment Content) : Runner Content Unit := do
  let inputs ← packedInputs site tools phase environment
  deliver site phase environment inputs

end EffectHarness.Acceptance
