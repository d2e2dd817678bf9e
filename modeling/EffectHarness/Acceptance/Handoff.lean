import EffectHarness.Acceptance.PackedInputs
import EffectHarness.Scripts.Frame
import EffectHarness.Scripts.Runs

namespace EffectHarness.Acceptance

open Schema Scripts

variable {Content : Type} {runRoot : Location} {site : Site} {tools : Tools Content} {root : RunRoot Content}
  {inputs : PackedInputs} {phase : Phase} {environment : Environment Content}

section

variable {φ : Type} {view : RunRoot Content → φ}

theorem awaitAcceptance_keeps (approved : ∀ (root : RunRoot Content) command,
      view { root with approvalCommand := command } = view root) :
    Keeps view (awaitAcceptance site phase environment) := by
  have recorded : Keeps view (writeApprovalCommandEvidence site environment.targets) :=
    Keeps.bind (Keeps.mapM fun _ => Keeps.lift) fun _ => Keeps.modify fun root => approved root _
  refine Keeps.bind Keeps.lift fun _ => Keeps.bind Keeps.get fun _ => Keeps.bind Keeps.lift fun _ => ?_
  split
  · exact recorded
  · exact Keeps.pure

theorem deliver_keeps (approved : ∀ (root : RunRoot Content) command,
      view { root with approvalCommand := command } = view root)
    (handed : ∀ (root : RunRoot Content) list invoked,
      view { root with handed := list, gitInvocations := invoked } = view root) :
    Keeps view (deliver site phase environment inputs) :=
  Keeps.bind (Keeps.modify fun root => handed root _ _) fun _ => awaitAcceptance_keeps approved

theorem deliver_handed :
    (finalState (deliver site phase environment inputs root)).handed =
      root.handed ++ [preludeEnvironment site phase environment inputs] := by
  have kept : Keeps RunRoot.handed (awaitAcceptance site phase environment) :=
    awaitAcceptance_keeps fun _ _ => rfl
  exact kept _

end

/-- What an evidence-writing PREPARE packed: the paths it returned and the bytes behind them. -/
structure Handoff (Content : Type) where
  inputs : PackedInputs
  bytes : ArtifactName → Option Content

def Preparation.handoff (preparation : Preparation Content) (inputs : PackedInputs) : Handoff Content where
  inputs := inputs
  bytes name := (preparation.packed name).written.map Prod.snd

theorem PackedAs.handoff_bytes {preparation : Preparation Content} {bytes : ArtifactName → Content}
    (packedAs : PackedAs runRoot preparation inputs bytes) (name : ArtifactName) :
    (preparation.handoff inputs).bytes name = some (bytes name) := by
  obtain ⟨entry, written, -⟩ := packedAs name
  simp [Preparation.handoff, written]

section

variable [DecidableEq Content]

/-- One run of the script over the shared run root, with everything else it finds at that time. -/
structure Event (Content : Type) where
  checkouts : Checkouts
  phase : Phase
  environment : Environment Content

/-- The run root, with what the latest evidence-writing PREPARE packed. -/
structure World (Content : Type) where
  root : RunRoot Content
  latest : Option (Handoff Content)

/-- A run root in which no evidence has been written yet. -/
def World.start (root : RunRoot Content) : World Content where
  root := { root with packedInputs := none }
  latest := none

def World.after (site : Site) (tools : Tools Content) (world : World Content) (phase : Phase)
    (environment : Environment Content) : World Content where
  root := finalState (crossRepo site tools phase environment world.root)
  latest := match phase, packedInputs site tools phase environment world.root with
    | .prepare, .ok inputs _ => some (environment.preparation.handoff inputs)
    | _, _ => world.latest

def World.step (runRoot : Location) (tools : Tools Content) (world : World Content) (event : Event Content) :
    World Content :=
  world.after (event.checkouts.site runRoot) tools event.phase event.environment

variable {world : World Content} {event : Event Content}

theorem apply_eq :
    packedInputs site tools .apply environment root =
      match opening site .apply environment >>= fun _ => readPackedInputs site tools root with
      | .ok inputs => .ok inputs root
      | .error error => .error error root := by
  simp only [packedInputs, lift_eq, lift_bind_apply, get_bind_apply, lift_apply]
  cases opening site .apply environment with
  | error error => rfl
  | ok => cases readPackedInputs site tools root <;> rfl

theorem crossRepo_keeps {φ : Type} (view : RunRoot Content → φ)
    (approved : ∀ root command, view { root with approvalCommand := command } = view root)
    (handed : ∀ root list invoked, view { root with handed := list, gitInvocations := invoked } = view root)
    (root : RunRoot Content) :
    view (finalState (crossRepo site tools phase environment root)) =
      view (finalState (packedInputs site tools phase environment root)) := by
  rw [crossRepo, finalState_bind]
  cases packedInputs site tools phase environment root with
  | error error after => rfl
  | ok inputs after => exact deliver_keeps approved handed after

theorem crossRepo_packedInputs (root : RunRoot Content) :
    (finalState (crossRepo site tools phase environment root)).packedInputs =
      (finalState (packedInputs site tools phase environment root)).packedInputs :=
  crossRepo_keeps RunRoot.packedInputs (fun _ _ => rfl) (fun _ _ _ => rfl) root

theorem crossRepo_tarball (root : RunRoot Content) (runRoot : Location) (path : String) :
    (finalState (crossRepo site tools phase environment root)).tarball runRoot path =
      (finalState (packedInputs site tools phase environment root)).tarball runRoot path :=
  crossRepo_keeps (fun root => root.tarball runRoot path) (fun _ _ => rfl) (fun _ _ _ => rfl) root

theorem apply_keeps : finalState (packedInputs site tools .apply environment root) = root := by
  rw [apply_eq]
  split <;> rfl

end

section

def located (names : List String) (named : ∀ segment ∈ names.map String.toList, Paths.IsName segment) :
    Location where
  path := names.map String.toList
  named := named

def releaseCheckouts : Checkouts where
  cwd := located ["harness"] (by decide)
  harnessRoot := located ["harness"] (by decide)
  partitaRoot := located ["partita"] (by decide)
  preludeRoot := located ["prelude"] (by decide)

def releaseRoot : Location := located ["run"] (by decide)

def succeeded {Output : Type} (stdout : Output) : Spawned Output where
  status := some 0
  stdout := stdout
  stderr := ""

def texts (entries : List (String × String)) : Json := .obj (entries.map fun entry => (entry.1, .str entry.2))

def releaseDocument : Json := .obj
  [("exports", texts [("./prelude", "prelude.mjs"), ("./eslint", "eslint.mjs")]),
   ("versions", texts
      [("effect", "4.0.0-beta.97"), ("tsgo", "0.19.0"), ("typescript", "6.0.2"), ("nativeTypescript", "7.0.2")]),
   ("typescriptTopology", texts
      [("primaryCompiler", "nativeTypescript"), ("effectSemanticAuthority", "tsgo"),
       ("compilerApiCompatibility", "typescript")]),
   ("name", .str "@effect/language-service"),
   ("diagnostics", .bool true),
   ("includeSuggestionsInTsc", .bool true),
   ("ignoreEffectSuggestionsInTscExitCode", .bool false),
   ("ignoreEffectWarningsInTscExitCode", .bool false),
   ("ignoreEffectErrorsInTscExitCode", .bool false)]

def releaseTools : Tools String where
  sha256 := id
  parse _ := some releaseDocument

def releaseTar : TarOutcomes String where
  list := succeeded (managedEntries ++ referenceEntries)
  extract _ := succeeded "document"

def packedFile (name : FileName) (content : String) : PackOutcome String where
  written := some (name, content)
  result := succeeded ""

def releaseEnvironment (contract : String) : Environment String where
  approvals := some "{}"
  path := none
  partitaManifest := some (some (texts [("name", "@sayoriqwq/partita")]))
  preludeManifest := some (some (texts [("name", "prelude-workspace")]))
  preparation := {
    harnessTemp := ⟨"effect-harness-cross-repo-0".toList, by decide⟩
    verification := {
      partitaCode := succeeded ""
      partitaAggregate := succeeded ""
      prelude := succeeded ""
      harness := succeeded "" }
    contract := packedFile ⟨"prelude-contract-0.2.2.tgz".toList, by decide⟩ contract
    partita := packedFile ⟨"partita-0.2.2.tgz".toList, by decide⟩ "partita"
    installation := { result := succeeded "", cliExists := true }
    first := { pinVerify := succeeded "", pinPublish := succeeded "" }
    second := { pinVerify := succeeded "", pinPublish := succeeded "" }
    files := fun _ => some "document"
    harness := packedFile ⟨"effect-harness-0.1.0.tgz".toList, by decide⟩ "harness"
    tar := releaseTar
    prelude := packedFile ⟨"prelude-0.4.0.tgz".toList, by decide⟩ "prelude"
    evidenceWrite := .written }
  acceptance := succeeded ""
  invokesGit := false
  targets := fun _ => none

def emptyRoot : RunRoot String where
  packs := ∅
  packedInputs := none
  partitaRunner := none
  gitInvocations := false
  approvalCommand := none
  handed := []

def prepared (contract : String) : Event String where
  checkouts := releaseCheckouts
  phase := .prepare
  environment := releaseEnvironment contract

def applied : Event String where
  checkouts := releaseCheckouts
  phase := .apply
  environment := releaseEnvironment "second"

end

end EffectHarness.Acceptance
