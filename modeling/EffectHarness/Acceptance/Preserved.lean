import EffectHarness.Acceptance.Approvals
import EffectHarness.Acceptance.Sessions

namespace EffectHarness.Acceptance

open Paths Scripts

variable {Content : Type} {disk : Disk Content} {launch : Launch Content} {runRoot temp : Location}

variable [DecidableEq Content] {tools : Tools Content}

theorem prepare_of_startup {env : ProcessEnv} (started : startup env = .ok .prepare) : env.phase = some "prepare" := by
  simp only [startup, bind_eq_ok, expect_eq_ok, pure_eq_ok] at started
  obtain ⟨phase, read, -, -, -, -, same⟩ := started
  subst same
  obtain ⟨text, given, parsed⟩ := Option.bind_eq_some_iff.mp read
  rw [given]
  rw [Phase.ofText.eq_def] at parsed
  split at parsed
  · rfl
  · cases parsed
  · cases parsed

/-- The run root with more handed over, and at most a Git invocation more on record. -/
def HandsOverOnly (before after : RunRoot Content) : Prop :=
  ∃ handed gitInvocations, after = { before with handed, gitInvocations } ∧ before.handed <+: handed ∧
    (before.gitInvocations = true → gitInvocations = true)

omit [DecidableEq Content] in
theorem HandsOverOnly.refl (root : RunRoot Content) : HandsOverOnly root root :=
  ⟨root.handed, root.gitInvocations, rfl, List.prefix_refl _, id⟩

omit [DecidableEq Content] in
theorem HandsOverOnly.trans {before middle after : RunRoot Content} (first : HandsOverOnly before middle)
    (second : HandsOverOnly middle after) : HandsOverOnly before after := by
  rcases first with ⟨_, _, rfl, longer, invoked⟩
  rcases second with ⟨handed, gitInvocations, rfl, longest, later⟩
  exact ⟨handed, gitInvocations, rfl, longer.trans longest, fun before => later (invoked before)⟩

theorem apply_handsOverOnly {site : Site} {environment : Environment Content} (root : RunRoot Content) :
    HandsOverOnly root (finalState (crossRepo site tools .apply environment root)) := by
  have kept : finalState (packedInputs site tools .apply environment root) = root := apply_keeps
  rw [crossRepo, finalState_bind]
  cases result : packedInputs site tools .apply environment root with
  | error error after =>
    rw [result] at kept
    dsimp only [finalState] at kept ⊢
    rw [kept]
    exact HandsOverOnly.refl root
  | ok inputs after =>
    rw [result] at kept
    dsimp only [finalState] at kept
    subst kept
    have left : finalState (deliver site .apply environment inputs after) =
        handedOver site .apply environment inputs after := by
      have ended := deliver_cases site .apply environment inputs after
      cases delivered : deliver site .apply environment inputs after with
      | error error last =>
        rw [delivered] at ended
        exact ended.1
      | ok value last =>
        rw [delivered] at ended
        exact ended.2.2
    dsimp only
    rw [left]
    exact ⟨_, _, rfl, List.prefix_append _ _, fun invoked => by simp [invoked]⟩

omit [DecidableEq Content] in
theorem finalState_onRunRoot {α : Type} (script : Runner Content α) :
    finalState (onRunRoot runRoot script disk) = disk.put runRoot (some { disk.workspace runRoot with
      root := finalState (script (disk.workspace runRoot).root) }) := by
  rw [onRunRoot]
  cases script (disk.workspace runRoot).root <;> rfl

theorem step_hands_over_only (tools : Tools Content) (disk : Disk Content) (launch : Launch Content) (runRoot : Location)
    (other : launch.env.phase ≠ some "prepare") :
    (disk.step tools launch).harnessTemps = disk.harnessTemps ∧
      ((disk.step tools launch).workspace runRoot).publicationEvidence =
        (disk.workspace runRoot).publicationEvidence ∧
      HandsOverOnly (disk.workspace runRoot).root ((disk.step tools launch).workspace runRoot).root := by
  have opened := prologue_cases launch disk
  cases started : prologue launch disk with
  | error error middle =>
    rw [started] at opened
    rcases opened with ⟨opens, temps⟩
    rw [Disk.step, session_failed started, finalState, opens.same, temps]
    exact ⟨rfl, rfl, HandsOverOnly.refl _⟩
  | ok result middle =>
    rcases result with ⟨phase, reached, made⟩
    rw [started] at opened
    cases phase with
    | prepare => exact absurd (prepare_of_startup opened.1) other
    | apply =>
      rcases opened with ⟨-, opens, -, temps, same⟩
      dsimp only at same
      subst same
      have idle : ∀ left : Disk Content, finalState ((pure () : Invocation Content Unit) left) = left := fun _ => rfl
      rw [Disk.step, session_started started, finalState_tryFinally, cleanup_none, idle, finalState_onRunRoot,
        Disk.harnessTemps_put, Disk.workspace_put, temps]
      apply And.intro rfl
      by_cases here : runRoot = reached
      · subst here
        rw [if_pos rfl, opens.same]
        exact ⟨rfl, apply_handsOverOnly _⟩
      · rw [if_neg here, opens.same]
        exact ⟨rfl, HandsOverOnly.refl _⟩

/-- However many launches there are that are no PREPAREs: every run root keeps its packs, evidence, approval command and
    publications, only what was handed over and the Git invocations are added to, and no temporary directory is left. -/
theorem launches_hand_over_only (tools : Tools Content) (disk : Disk Content) (launches : List (Launch Content))
    (runRoot : Location) (others : ∀ launch ∈ launches, launch.env.phase ≠ some "prepare") :
    (launches.foldl (Disk.step tools) disk).harnessTemps = disk.harnessTemps ∧
      ((launches.foldl (Disk.step tools) disk).workspace runRoot).publicationEvidence =
        (disk.workspace runRoot).publicationEvidence ∧
      HandsOverOnly (disk.workspace runRoot).root
        ((launches.foldl (Disk.step tools) disk).workspace runRoot).root := by
  induction launches generalizing disk with
  | nil => exact ⟨rfl, rfl, HandsOverOnly.refl _⟩
  | cons launch launches ih =>
    obtain ⟨first, rest⟩ := List.forall_mem_cons.mp others
    obtain ⟨temps, evidence, handed⟩ := step_hands_over_only tools disk launch runRoot first
    obtain ⟨laterTemps, laterEvidence, laterHanded⟩ := ih (disk.step tools launch) rest
    exact ⟨laterTemps.trans temps, laterEvidence.trans evidence, handed.trans laterHanded⟩

def releaseLaunch : Launch String where
  env := {
    phase := some "prepare"
    runRoot := none
    approvals := none
    keepTemp := none
    partitaRoot := none
    preludeRoot := none
    path := none }
  cwd := releaseCheckouts.cwd
  harnessRoot := releaseCheckouts.harnessRoot
  realpath := fun _ => none
  temporaryRoot := some releaseRoot
  makesHarnessTemp := true
  outcomes := { releaseEnvironment "first" with targets := plannedTargets }
  copy := { completes := true, reaches := fun _ => true }
  removesHarnessTemp := true

def bareDisk : Disk String where
  workspaces := fun _ => none
  harnessTemps := []

def applyLaunch : Launch String :=
  { releaseLaunch with
    env := { releaseLaunch.env with phase := some "apply", runRoot := some "/run", approvals := some "{}" }
    realpath := fun _ => some releaseRoot }

theorem release_hands_over_only :
    HandsOverOnly ((bareDisk.step releaseTools releaseLaunch).workspace releaseRoot).root
      (([applyLaunch, applyLaunch].foldl (Disk.step releaseTools)
        (bareDisk.step releaseTools releaseLaunch)).workspace releaseRoot).root :=
  (launches_hand_over_only releaseTools (bareDisk.step releaseTools releaseLaunch) [applyLaunch, applyLaunch] releaseRoot
    (by decide)).2.2

end EffectHarness.Acceptance
