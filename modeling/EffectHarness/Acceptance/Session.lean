import EffectHarness.Acceptance.Delivery
import EffectHarness.Paths.Canonical
import EffectHarness.Scripts.Finally

namespace EffectHarness.Acceptance

open Paths Scripts

instance decidableEqLocation : DecidableEq Location := fun first second =>
  decidable_of_iff (first.path = second.path) <| by
    cases first
    cases second
    simp

/-- The location behind `resolve(path)`, in the working directory. -/
def Location.resolved (cwd : Location) (path : String) : Location where
  path := (normalize isSkip isUp (segments
    (if path.toList.head? = some '/' then path else cwd.text ++ "/" ++ path))).dropWhile isUp
  named := by
    intro segment member
    have plain := (canonical_normalize isSkip isUp _).dropWhile segment member
    have listed := mem_of_mem_normalize ((List.dropWhile_sublist _).subset member)
    exact ⟨plain, not_mem_of_mem_segments listed⟩

theorem Location.text_resolved (cwd : Location) (path : String) : (cwd.resolved path).text = cwd.resolve path := by
  rw [Location.resolve, text, resolved]
  split
  · rfl
  · rfl

/-- What the script reads of `process.env`. -/
structure ProcessEnv where
  phase : Option String
  runRoot : Option String
  approvals : Option String
  keepTemp : Option String
  partitaRoot : Option String
  preludeRoot : Option String
  path : Option String

def Phase.ofText : String → Option Phase
  | "prepare" => some .prepare
  | "apply" => some .apply
  | _ => none

def startup (env : ProcessEnv) : Except RunError Phase := do
  let phase ← expect (env.phase.bind Phase.ofText)
    (.error ("CROSS_REPO_PHASE must be explicitly set to prepare or apply, got " ++ env.phase.getD "missing"))
  require (!(phase == .apply && env.runRoot.isNone)) (.error "CROSS_REPO_ROOT is required for APPLY")
  require (!(phase == .apply && env.approvals.isNone)) (.error "CROSS_REPO_APPROVALS is required for APPLY")
  return phase

/-- How `cpSync` ends, and what it got to before it failed. -/
structure CopyOutcome where
  completes : Bool
  reaches : String → Bool

/-- One invocation of the script, with everything that it finds at that time. -/
structure Launch (Content : Type) where
  env : ProcessEnv
  cwd : Location
  harnessRoot : Location
  realpath : String → Option Location
  temporaryRoot : Option Location
  makesHarnessTemp : Bool
  outcomes : Environment Content
  copy : CopyOutcome
  removesHarnessTemp : Bool

namespace Launch

variable {Content : Type}

def checkouts (launch : Launch Content) : Checkouts :=
  let infraRoot := launch.harnessRoot.resolved ".."
  let partita := infraRoot.join ⟨"partita".toList, by decide⟩
  let prelude := infraRoot.join ⟨"prelude".toList, by decide⟩
  { cwd := launch.cwd
    harnessRoot := launch.harnessRoot
    partitaRoot := launch.cwd.resolved (launch.env.partitaRoot.getD partita.text)
    preludeRoot := launch.cwd.resolved (launch.env.preludeRoot.getD prelude.text) }

def environment (launch : Launch Content) : Environment Content :=
  { launch.outcomes with approvals := launch.env.approvals, path := launch.env.path }

def harnessTempRoot (launch : Launch Content) : Location :=
  launch.harnessRoot.join launch.outcomes.preparation.harnessTemp

end Launch

/-- A run root, with the copy of what the Harness published into its temporary directory. -/
structure Workspace (Content : Type) where
  root : RunRoot Content
  publicationEvidence : Files Content

def Workspace.empty {Content : Type} : Workspace Content where
  root := {
    packs := ∅
    packedInputs := none
    partitaRunner := none
    gitInvocations := false
    approvalCommand := none
    handed := [] }
  publicationEvidence := fun _ => none

/-- The directories that the script makes and uses. -/
structure Disk (Content : Type) where
  workspaces : Location → Option (Workspace Content)
  harnessTemps : List Location

abbrev Invocation (Content : Type) := EStateM RunError (Disk Content)

variable {Content : Type}

namespace Disk

def put (disk : Disk Content) (runRoot : Location) (workspace : Option (Workspace Content)) : Disk Content :=
  { disk with workspaces := fun other => if other = runRoot then workspace else disk.workspaces other }

/-- A run root that has not been made yet is looked upon as empty. -/
def workspace (disk : Disk Content) (runRoot : Location) : Workspace Content :=
  (disk.workspaces runRoot).getD .empty

end Disk

def openRunRoot (launch : Launch Content) : Invocation Content Location := do
  match launch.env.runRoot with
  | none =>
    let runRoot ← expect launch.temporaryRoot (RunError.writeFailed "effect-harness-cross-repo-")
    require ((← get).workspaces runRoot).isNone (RunError.writeFailed "effect-harness-cross-repo-")
    modify fun disk => disk.put runRoot (some .empty)
    return runRoot
  | some requested =>
    let path := launch.cwd.resolve requested
    let runRoot ← expect (launch.realpath path) (RunError.notFound path)
    require ((← get).workspaces runRoot).isSome (RunError.notFound path)
    return runRoot

def makeHarnessTemp (launch : Launch Content) (phase : Phase) : Invocation Content (Option Location) := do
  match phase with
  | .apply => return none
  | .prepare =>
    let temp := launch.harnessTempRoot
    require (launch.makesHarnessTemp && !(← get).harnessTemps.contains temp) (RunError.writeFailed temp.text)
    modify fun disk => { disk with harnessTemps := temp :: disk.harnessTemps }
    return some temp

def onRunRoot {α : Type} (runRoot : Location) (script : Runner Content α) : Invocation Content α := fun disk =>
  let workspace := disk.workspace runRoot
  match script workspace.root with
  | .ok value root => .ok value (disk.put runRoot (some { workspace with root }))
  | .error error root => .error error (disk.put runRoot (some { workspace with root }))

/-- `cpSync` of the temporary directory: what it reaches goes over what an earlier copy left. -/
def copied (launch : Launch Content) (temp : Location) (evidence : Files Content) : Files Content := fun path =>
  match launch.outcomes.preparation.files (temp.text ++ "/" ++ path) with
  | some content => if launch.copy.completes || launch.copy.reaches path then some content else evidence path
  | none => evidence path

def copyEvidence (launch : Launch Content) (runRoot temp : Location) : Invocation Content Unit := do
  modify fun disk =>
    let workspace := disk.workspace runRoot
    let publicationEvidence := copied launch temp workspace.publicationEvidence
    disk.put runRoot (some { workspace with publicationEvidence })
  require launch.copy.completes (RunError.writeFailed (runRoot.text ++ "/publication-evidence"))

def removeHarnessTemp (launch : Launch Content) (temp : Location) : Invocation Content Unit := do
  require launch.removesHarnessTemp (RunError.writeFailed temp.text)
  modify fun disk => { disk with harnessTemps := disk.harnessTemps.filter (· != temp) }

def cleanup (launch : Launch Content) (phase : Phase) (runRoot : Location) (harnessTempRoot : Option Location) :
    Invocation Content Unit := do
  let keepTemp := launch.env.keepTemp == some "1"
  let preserveWorkspace := keepTemp || phase == .prepare || phase == .apply
  match harnessTempRoot with
  | none => pure ()
  | some temp =>
    if preserveWorkspace && (← get).harnessTemps.contains temp then
      copyEvidence launch runRoot temp
    removeHarnessTemp launch temp
  if !preserveWorkspace then
    modify fun disk => disk.put runRoot none

def prologue (launch : Launch Content) : Invocation Content (Phase × Location × Option Location) := do
  let phase ← startup launch.env
  let runRoot ← openRunRoot launch
  let harnessTempRoot ← makeHarnessTemp launch phase
  return (phase, runRoot, harnessTempRoot)

def session [DecidableEq Content] (tools : Tools Content) (launch : Launch Content) : Invocation Content Unit := do
  let (phase, runRoot, harnessTempRoot) ← prologue launch
  tryFinally (onRunRoot runRoot (crossRepo (launch.checkouts.site runRoot) tools phase launch.environment))
    (cleanup launch phase runRoot harnessTempRoot)

end EffectHarness.Acceptance
