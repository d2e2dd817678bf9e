import EffectHarness.Acceptance.Preserved
import EffectHarness.Release.PackageScripts
import EffectHarness.SourcePins.Gate

namespace EffectHarness.Release

open Acceptance Scripts SourcePins

/-- A command, with the variables that its step of the workflow sets, to paths below the workspace. -/
structure Order where
  env : List (String × String)
  command : Command
  deriving DecidableEq

def Order.invoked (order : Order) : Option (List Order) :=
  (Release.invoked order.command).map fun body => body.map fun command => { order with command }

def publishCommand : Command := ["npm", "publish", ".npm-pack/*.tgz", "--access", "public", "--provenance"]

def viewCommand : Command := ["npm", "view", "$package_spec", "version"]

def acceptanceEnv : List (String × String) :=
  [("PRELUDE_ROOT", "/prelude"), ("PARTITA_ROOT", "/partita")]

/-- The job of `npm-publish.yml`. The branch that rejects a published version stands as a negated command. -/
def steps : List Order :=
  [⟨[], ["uses", "actions/checkout@v4", "effect-harness"]⟩,
   ⟨[], ["uses", "actions/checkout@v4", "prelude"]⟩,
   ⟨[], ["uses", "actions/checkout@v4", "partita"]⟩,
   ⟨[], ["uses", "pnpm/action-setup@v4"]⟩,
   ⟨[], ["uses", "actions/setup-node@v4"]⟩,
   ⟨[], ["pnpm", "install", "--frozen-lockfile"]⟩,
   ⟨[], ["pnpm", "--dir", "../prelude", "install", "--frozen-lockfile"]⟩,
   ⟨[], ["pnpm", "--dir", "../partita", "install", "--frozen-lockfile"]⟩,
   ⟨[], ["node", "-p", "const p=require('./package.json'); p.name + '@' + p.version"]⟩,
   ⟨[], "!" :: viewCommand⟩,
   ⟨acceptanceEnv, ["pnpm", "acceptance:cross-repo"]⟩,
   ⟨[], ["pnpm", "pack", "--dry-run"]⟩,
   ⟨[], ["pnpm", "pack", "--pack-destination", ".npm-pack"]⟩,
   ⟨[], publishCommand⟩]

/-- The tools that run before the package is published. -/
def gates : List Order :=
  [⟨[], ["uses", "actions/checkout@v4", "effect-harness"]⟩,
   ⟨[], ["uses", "actions/checkout@v4", "prelude"]⟩,
   ⟨[], ["uses", "actions/checkout@v4", "partita"]⟩,
   ⟨[], ["uses", "pnpm/action-setup@v4"]⟩,
   ⟨[], ["uses", "actions/setup-node@v4"]⟩,
   ⟨[], ["pnpm", "install", "--frozen-lockfile"]⟩,
   ⟨[], ["pnpm", "--dir", "../prelude", "install", "--frozen-lockfile"]⟩,
   ⟨[], ["pnpm", "--dir", "../partita", "install", "--frozen-lockfile"]⟩,
   ⟨[], ["node", "-p", "const p=require('./package.json'); p.name + '@' + p.version"]⟩,
   ⟨[], "!" :: viewCommand⟩,
   ⟨acceptanceEnv, crossRepoCommand⟩,
   ⟨[], verifySourcePinsCommand⟩,
   ⟨[], ["tsdown", "--config", "tsdown.config.ts"]⟩,
   ⟨[], ["effect-tsgo", "patch"]⟩,
   ⟨[], ["pack", "--dry-run"]⟩,
   ⟨[], verifySourcePinsCommand⟩,
   ⟨[], ["tsdown", "--config", "tsdown.config.ts"]⟩,
   ⟨[], ["effect-tsgo", "patch"]⟩,
   ⟨[], ["pack", "--pack-destination", ".npm-pack"]⟩]

theorem expand_steps : expand Order.invoked 5 steps = some (gates ++ [⟨[], publishCommand⟩]) := by decide +kernel

inductive WorkflowError
  | failed (command : Command)
  | crossRepo (error : RunError)
  | sourcePins (error : GateError)

/-- What the tools of the workflow work on. The clock counts those that have run. -/
structure Machine (Content : Type) where
  disk : Disk Content
  registry : List String
  clock : Nat

/-- What each tool finds and does at its time. -/
structure Surroundings (Content : Type) where
  env : ProcessEnv
  workspace : String
  packageSpec : String
  launch : Nat → Launch Content
  repository : Nat → Git.Repository
  subprocesses : Nat → Subprocesses
  succeeds : Nat → Command → Bool

def assign (env : ProcessEnv) (name value : String) : ProcessEnv :=
  match name with
  | "CROSS_REPO_PHASE" => { env with phase := some value }
  | "CROSS_REPO_ROOT" => { env with runRoot := some value }
  | "CROSS_REPO_APPROVALS" => { env with approvals := some value }
  | "CROSS_REPO_KEEP_TEMP" => { env with keepTemp := some value }
  | "PARTITA_ROOT" => { env with partitaRoot := some value }
  | "PRELUDE_ROOT" => { env with preludeRoot := some value }
  | "PATH" => { env with path := some value }
  | _ => env

variable {Content : Type}

def Surroundings.launchAt (surroundings : Surroundings Content) (now : Nat) (env : List (String × String)) :
    Launch Content :=
  { surroundings.launch now with
    env := env.foldl (fun env (name, path) => assign env name (surroundings.workspace ++ path)) surroundings.env }

def releaseSurroundings (phase : Option String) : Surroundings String where
  env := { releaseLaunch.env with phase }
  workspace := "/work"
  packageSpec := "@sayoriqwq/effect-harness@0.3.0"
  launch := fun _ => releaseLaunch
  repository := fun _ => committedClean
  subprocesses := fun _ => succeeding
  succeeds := fun _ command => command != viewCommand

def Surroundings.fails (surroundings : Surroundings Content) (now : Nat) : Command → Bool
  | "!" :: command => surroundings.succeeds now command
  | command => !surroundings.succeeds now command

section

variable [DecidableEq Content]

def perform (tools : Tools Content) (surroundings : Surroundings Content) (order : Order) :
    EStateM WorkflowError (Machine Content) Unit := fun machine =>
  let now := machine.clock
  let ticked := { machine with clock := now + 1 }
  if order.command = verifySourcePinsCommand then
    match verifySourcePins (surroundings.subprocesses now) (surroundings.repository now) with
    | .ok _ => .ok () ticked
    | .error error => .error (.sourcePins error) ticked
  else if order.command = crossRepoCommand then
    match session tools (surroundings.launchAt now order.env) machine.disk with
    | .ok _ disk => .ok () { ticked with disk }
    | .error error disk => .error (.crossRepo error) { ticked with disk }
  else if order.command = publishCommand then
    if surroundings.succeeds now order.command then
      .ok () { ticked with registry := surroundings.packageSpec :: machine.registry }
    else .error (.failed order.command) ticked
  else if surroundings.fails now order.command then .error (.failed order.command) ticked
  else .ok () ticked

variable {tools : Tools Content} {surroundings : Surroundings Content} {order : Order} {machine : Machine Content}
  {result : EStateM.Result WorkflowError (Machine Content) Unit}

/-- Only the acceptance works on the disk, and only the last tool on the registry. -/
theorem perform_leaves (tools : Tools Content) (surroundings : Surroundings Content) (order : Order)
    (machine : Machine Content) :
    (finalState (perform tools surroundings order machine)).clock = machine.clock + 1 ∧
      (order.command ≠ crossRepoCommand →
        (finalState (perform tools surroundings order machine)).disk = machine.disk) ∧
      (order.command ≠ publishCommand →
        (finalState (perform tools surroundings order machine)).registry = machine.registry) := by
  rw [perform]
  split
  · cases verifySourcePins (surroundings.subprocesses machine.clock) (surroundings.repository machine.clock) <;>
      exact ⟨rfl, fun _ => rfl, fun _ => rfl⟩
  · split
    · rename_i isAcceptance
      cases session tools (surroundings.launchAt machine.clock order.env) machine.disk <;>
        exact ⟨rfl, fun other => absurd isAcceptance other, fun _ => rfl⟩
    · split
      · rename_i isPublish
        split <;> exact ⟨rfl, fun _ => rfl, fun other => absurd isPublish other⟩
      · split <;> exact ⟨rfl, fun _ => rfl, fun _ => rfl⟩

/-- The workflow is what its tools do one after the other. -/
theorem workflow_iff :
    Runs Order.invoked (perform tools surroundings) steps machine result ↔
      forM (gates ++ [⟨[], publishCommand⟩]) (perform tools surroundings) machine = result :=
  runs_iff_of_expand expand_steps

theorem forM_registry (orders : List Order) (others : ∀ order ∈ orders, order.command ≠ publishCommand) :
    Keeps Machine.registry (forM orders (perform tools surroundings)) :=
  Keeps.forM fun order member machine => (perform_leaves tools surroundings order machine).2.2 (others order member)

theorem forM_disk (orders : List Order) (others : ∀ order ∈ orders, order.command ≠ crossRepoCommand) :
    Keeps Machine.disk (forM orders (perform tools surroundings)) :=
  Keeps.forM fun order member machine => (perform_leaves tools surroundings order machine).2.1 (others order member)

theorem session_unset {launch : Launch Content} {disk : Disk Content} (unset : launch.env.phase = none) :
    session tools launch disk =
      .error (.error "CROSS_REPO_PHASE must be explicitly set to prepare or apply, got missing") disk := by
  have refused : startup launch.env =
      .error (.error "CROSS_REPO_PHASE must be explicitly set to prepare or apply, got missing") := by
    simp only [startup, unset]
    rfl
  apply session_failed
  simp only [prologue, lift_eq, lift_bind_apply, refused]

/-- Where nobody sets `CROSS_REPO_PHASE`, and the workflow does not, it stops at the acceptance and publishes nothing. -/
theorem unset_phase_publishes_nothing (tools : Tools Content) (surroundings : Surroundings Content)
    (machine : Machine Content) {result : EStateM.Result WorkflowError (Machine Content) Unit}
    (ran : Runs Order.invoked (perform tools surroundings) steps machine result)
    (unset : surroundings.env.phase = none) :
    (finalState result).registry = machine.registry ∧ (finalState result).disk = machine.disk ∧
      thrown result = (thrown (forM (gates.take 10) (perform tools surroundings) machine)).or
        (some (.crossRepo
          (.error "CROSS_REPO_PHASE must be explicitly set to prepare or apply, got missing"))) := by
  have split : gates ++ [⟨[], publishCommand⟩] =
      gates.take 10 ++ ⟨acceptanceEnv, crossRepoCommand⟩ :: (gates.drop 11 ++ [⟨[], publishCommand⟩]) := rfl
  have registry : Keeps Machine.registry (forM (gates.take 10) (perform tools surroundings)) :=
    forM_registry (gates.take 10) (by decide)
  have disk : Keeps Machine.disk (forM (gates.take 10) (perform tools surroundings)) :=
    forM_disk (gates.take 10) (by decide)
  have sameRegistry := registry machine
  have sameDisk := disk machine
  rw [workflow_iff, split, forM_append_apply] at ran
  cases prepared : forM (gates.take 10) (perform tools surroundings) machine with
  | error error after =>
    rw [prepared] at ran sameRegistry sameDisk
    rw [← ran]
    exact ⟨sameRegistry, sameDisk, rfl⟩
  | ok value middle =>
    rw [prepared] at ran sameRegistry sameDisk
    have other : crossRepoCommand ≠ verifySourcePinsCommand := by decide
    have unlaunched : (surroundings.launchAt middle.clock acceptanceEnv).env.phase = none := unset
    dsimp only at ran
    rw [List.forM_cons, bind_apply, perform, if_neg other, if_pos rfl, session_unset unlaunched] at ran
    rw [← ran]
    exact ⟨sameRegistry, sameDisk, rfl⟩

omit [DecidableEq Content] in
theorem release_unset_phase_publishes_nothing :
    (finalState (forM (gates ++ [⟨[], publishCommand⟩]) (perform releaseTools (releaseSurroundings none))
      { disk := bareDisk, registry := [], clock := 0 })).registry = [] :=
  (unset_phase_publishes_nothing releaseTools (releaseSurroundings none) { disk := bareDisk, registry := [], clock := 0 }
    (workflow_iff.mpr rfl) rfl).1

end

end EffectHarness.Release
