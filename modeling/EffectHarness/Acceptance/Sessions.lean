import EffectHarness.Acceptance.Session

namespace EffectHarness.Acceptance

open Paths Scripts

variable {Content : Type} {disk : Disk Content} {launch : Launch Content} {runRoot other temp : Location}
  {phase : Phase}

@[simp] theorem Disk.workspace_put (workspace : Workspace Content) :
    (disk.put runRoot (some workspace)).workspace other =
      if other = runRoot then workspace else disk.workspace other := by
  simp only [Disk.workspace, Disk.put]
  split <;> rfl

@[simp] theorem Disk.harnessTemps_put (workspace : Option (Workspace Content)) :
    (disk.put runRoot workspace).harnessTemps = disk.harnessTemps := rfl

theorem Disk.isSome_put (workspace : Workspace Content) (there : (disk.workspaces other).isSome = true) :
    ((disk.put runRoot (some workspace)).workspaces other).isSome = true := by
  simp only [Disk.put]
  split
  · rfl
  · exact there

/-- Nothing that a run root holds is touched, and no run root disappears. -/
structure Opens (disk after : Disk Content) : Prop where
  same : ∀ other, after.workspace other = disk.workspace other
  kept : ∀ other, (disk.workspaces other).isSome = true → (after.workspaces other).isSome = true

theorem Opens.refl (disk : Disk Content) : Opens disk disk := ⟨fun _ => rfl, fun _ there => there⟩

theorem Disk.opens_put_empty (absent : (disk.workspaces runRoot).isNone = true) :
    Opens disk (disk.put runRoot (some .empty)) := by
  apply Opens.mk
  · intro other
    rw [Disk.workspace_put]
    split
    · rename_i same
      rw [same, Disk.workspace, Option.isNone_iff_eq_none.mp absent, Option.getD_none]
    · rfl
  · intro other there
    exact Disk.isSome_put _ there

theorem openRunRoot_cases (launch : Launch Content) (disk : Disk Content) :
    match openRunRoot launch disk with
    | .ok runRoot after => Opens disk after ∧ after.harnessTemps = disk.harnessTemps ∧
        (after.workspaces runRoot).isSome = true
    | .error _ after => after = disk := by
  rw [openRunRoot]
  cases launch.env.runRoot with
  | none =>
    simp only [lift_eq, lift_bind_apply]
    cases launch.temporaryRoot with
    | none => rfl
    | some runRoot =>
      simp only [expect, get_bind_apply, lift_bind_apply]
      cases absent : (disk.workspaces runRoot).isNone with
      | false => rfl
      | true =>
        have made : ((disk.put runRoot (some Workspace.empty)).workspaces runRoot).isSome = true := by
          simp [Disk.put]
        exact ⟨Disk.opens_put_empty absent, rfl, made⟩
  | some requested =>
    simp only [lift_eq, lift_bind_apply]
    cases launch.realpath (launch.cwd.resolve requested) with
    | none => rfl
    | some runRoot =>
      simp only [expect, get_bind_apply, lift_bind_apply]
      cases there : (disk.workspaces runRoot).isSome with
      | false => rfl
      | true => exact ⟨Opens.refl disk, rfl, there⟩

theorem makeHarnessTemp_cases (launch : Launch Content) (phase : Phase) (disk : Disk Content) :
    match makeHarnessTemp launch phase disk with
    | .ok made after => after = { disk with harnessTemps := made.toList ++ disk.harnessTemps } ∧
        match phase with
        | .apply => made = none
        | .prepare => made = some launch.harnessTempRoot ∧ launch.harnessTempRoot ∉ disk.harnessTemps
    | .error _ after => after = disk := by
  cases phase with
  | apply => exact ⟨rfl, rfl⟩
  | prepare =>
    simp only [makeHarnessTemp, get_bind_apply, lift_eq, lift_bind_apply]
    cases makes : launch.makesHarnessTemp && !disk.harnessTemps.contains launch.harnessTempRoot with
    | false => rfl
    | true =>
      have absent : launch.harnessTempRoot ∉ disk.harnessTemps := by
        have both := makes
        simp at both
        exact both.2
      exact ⟨rfl, rfl, absent⟩

/-- Up to its try block the script makes at most its two directories. -/
theorem prologue_cases (launch : Launch Content) (disk : Disk Content) :
    match prologue launch disk with
    | .ok (phase, runRoot, made) after => startup launch.env = .ok phase ∧ Opens disk after ∧
        (after.workspaces runRoot).isSome = true ∧ after.harnessTemps = made.toList ++ disk.harnessTemps ∧
        match phase with
        | .apply => made = none
        | .prepare => made = some launch.harnessTempRoot ∧ launch.harnessTempRoot ∉ disk.harnessTemps
    | .error _ after => Opens disk after ∧ after.harnessTemps = disk.harnessTemps := by
  simp only [prologue, lift_eq, lift_bind_apply]
  cases startup launch.env with
  | error error => exact ⟨Opens.refl disk, rfl⟩
  | ok phase =>
    dsimp only
    rw [bind_apply]
    have opened := openRunRoot_cases launch disk
    cases first : openRunRoot launch disk with
    | error error after =>
      rw [first] at opened
      dsimp only at opened ⊢
      rw [opened]
      exact ⟨Opens.refl disk, rfl⟩
    | ok runRoot middle =>
      rw [first] at opened
      rcases opened with ⟨opens, temps, there⟩
      dsimp only
      rw [bind_apply]
      have made := makeHarnessTemp_cases launch phase middle
      cases second : makeHarnessTemp launch phase middle with
      | error error after =>
        rw [second] at made
        dsimp only at made ⊢
        rw [made]
        exact ⟨opens, temps⟩
      | ok harnessTempRoot after =>
        rw [second] at made
        rcases made with ⟨same, made⟩
        subst same
        rw [temps] at made
        exact ⟨rfl, ⟨opens.same, opens.kept⟩, there, by simp [temps], made⟩

/-- The phase alone already preserves the workspace. -/
theorem preserveWorkspace_eq (keepTemp : Option String) :
    (keepTemp == some "1" || phase == .prepare || phase == .apply) = true := by
  cases phase <;> simp

theorem cleanup_none : cleanup launch phase runRoot none = pure () := by
  simp only [cleanup, preserveWorkspace_eq]
  rfl

def Disk.copyOver (disk : Disk Content) (launch : Launch Content) (runRoot temp : Location) : Disk Content :=
  disk.put runRoot (some { disk.workspace runRoot with
    publicationEvidence := copied launch temp (disk.workspace runRoot).publicationEvidence })

theorem cleanup_some (made : temp ∈ disk.harnessTemps) :
    cleanup launch phase runRoot (some temp) disk =
      if launch.copy.completes then
        if launch.removesHarnessTemp then
          .ok () { disk.copyOver launch runRoot temp with harnessTemps := disk.harnessTemps.filter (· != temp) }
        else .error (.writeFailed temp.text) (disk.copyOver launch runRoot temp)
      else .error (.writeFailed (runRoot.text ++ "/publication-evidence")) (disk.copyOver launch runRoot temp) := by
  have listed : disk.harnessTemps.contains temp = true := by simpa using made
  simp only [cleanup, preserveWorkspace_eq, get_bind_apply, listed]
  cases completes : launch.copy.completes with
  | false =>
    simp [copyEvidence, completes, lift_eq, modify_bind_apply, bind_assoc, lift_bind_apply, require, Disk.copyOver]
  | true =>
    cases removes : launch.removesHarnessTemp with
    | false => simp [copyEvidence, removeHarnessTemp, completes, removes, lift_eq, modify_bind_apply, bind_assoc,
        lift_bind_apply, require, Disk.copyOver]
    | true =>
      simp [copyEvidence, removeHarnessTemp, completes, removes, lift_eq, modify_bind_apply, bind_assoc,
        lift_bind_apply, require, Disk.copyOver]
      rfl

/-- What the script finds where it starts, and what it does to it, apart from its own temporary directory. -/
structure Leaves (runRoot : Location) (change : RunRoot Content → RunRoot Content) (disk after : Disk Content) :
    Prop where
  root : (after.workspace runRoot).root = change (disk.workspace runRoot).root
  others : ∀ other, other ≠ runRoot → after.workspace other = disk.workspace other
  kept : ∀ other, (disk.workspaces other).isSome = true → (after.workspaces other).isSome = true

theorem onRunRoot_leaves {α : Type} (runRoot : Location) (script : Runner Content α) (disk : Disk Content) :
    Leaves runRoot (fun root => finalState (script root)) disk (finalState (onRunRoot runRoot script disk)) ∧
      (finalState (onRunRoot runRoot script disk)).harnessTemps = disk.harnessTemps ∧
      thrown (onRunRoot runRoot script disk) = thrown (script (disk.workspace runRoot).root) := by
  have put : ∀ root, Leaves runRoot (fun _ => root) disk
      (disk.put runRoot (some { disk.workspace runRoot with root := root })) := by
    intro root
    exact ⟨by simp, fun other apart => by simp [apart], fun other there => Disk.isSome_put _ there⟩
  rw [onRunRoot]
  cases ran : script (disk.workspace runRoot).root with
  | ok value root =>
    have left := put root
    exact ⟨⟨by rw [ran]; exact left.root, left.others, left.kept⟩, rfl, rfl⟩
  | error error root =>
    have left := put root
    exact ⟨⟨by rw [ran]; exact left.root, left.others, left.kept⟩, rfl, rfl⟩

theorem Leaves.trans {middle after : Disk Content} {first second : RunRoot Content → RunRoot Content}
    (start : Leaves runRoot first disk middle) (finish : Leaves runRoot second middle after) :
    Leaves runRoot (fun root => second (first root)) disk after where
  root := by rw [finish.root, start.root]
  others other apart := (finish.others other apart).trans (start.others other apart)
  kept other there := finish.kept other (start.kept other there)

variable [DecidableEq Content] {tools : Tools Content}

def Disk.step (tools : Tools Content) (disk : Disk Content) (launch : Launch Content) : Disk Content :=
  finalState (session tools launch disk)

/-- Past its prologue, a launch is a run on the run root it opened, and its cleanup. -/
theorem session_started {middle : Disk Content} {made : Option Location}
    (started : prologue launch disk = .ok (phase, runRoot, made) middle) :
    session tools launch disk =
      tryFinally (onRunRoot runRoot (crossRepo (launch.checkouts.site runRoot) tools phase launch.environment))
        (cleanup launch phase runRoot made) middle := by
  rw [session, bind_apply, started]

theorem session_failed {error : RunError} {middle : Disk Content} (failed : prologue launch disk = .error error middle) :
    session tools launch disk = .error error middle := by
  rw [session, bind_apply, failed]

/-- `CROSS_REPO_KEEP_TEMP` makes no difference to any launch. -/
theorem keepTemp_ignored (tools : Tools Content) (launch : Launch Content) (keepTemp : Option String)
    (disk : Disk Content) :
    session tools { launch with env := { launch.env with keepTemp } } disk = session tools launch disk := by
  have same : ∀ phase runRoot made, cleanup { launch with env := { launch.env with keepTemp } } phase runRoot made =
      cleanup launch phase runRoot made := by
    intro phase runRoot made
    simp only [cleanup, preserveWorkspace_eq]
    rfl
  simp only [session, same]
  rfl

/-- The error of the cleanup that follows a PREPARE on this run root. -/
def cleanupError (launch : Launch Content) (runRoot : Location) : Option RunError :=
  if launch.copy.completes then
    if launch.removesHarnessTemp then none else some (.writeFailed launch.harnessTempRoot.text)
  else some (.writeFailed (runRoot.text ++ "/publication-evidence"))

/-- The launch reaches its try block as a PREPARE, and its cleanup fails. -/
def FailsCleanup (disk : Disk Content) (launch : Launch Content) (error : RunError) : Prop :=
  ∃ runRoot made middle, prologue launch disk = .ok (.prepare, runRoot, made) middle ∧
    cleanupError launch runRoot = some error

theorem session_prepare {middle : Disk Content} {made : Option Location}
    (started : prologue launch disk = .ok (.prepare, runRoot, made) middle) :
    (disk.step tools launch).harnessTemps =
        (if (cleanupError launch runRoot).isSome then [launch.harnessTempRoot] else []) ++ disk.harnessTemps ∧
      thrown (session tools launch disk) = (cleanupError launch runRoot).or
        (thrown (crossRepo (launch.checkouts.site runRoot) tools .prepare launch.environment
          (disk.workspace runRoot).root)) := by
  have opened := prologue_cases launch disk
  rw [started] at opened
  rcases opened with ⟨-, opens, -, temps, same, absent⟩
  subst same
  have ran := onRunRoot_leaves runRoot
    (crossRepo (launch.checkouts.site runRoot) tools .prepare launch.environment) middle
  rw [Disk.step, session_started started, finalState_tryFinally, thrown_tryFinally]
  generalize finalState (onRunRoot runRoot (crossRepo (launch.checkouts.site runRoot) tools .prepare
    launch.environment) middle) = left at ran ⊢
  rcases ran with ⟨-, kept, threw⟩
  rw [threw, opens.same, cleanup_some (by simp [kept, temps]), cleanupError]
  have others : disk.harnessTemps.filter (· != launch.harnessTempRoot) = disk.harnessTemps := by
    rw [List.filter_eq_self]
    intro temp member
    have apart : temp ≠ launch.harnessTempRoot := by
      intro same
      rw [same] at member
      exact absent member
    simpa using apart
  cases launch.copy.completes with
  | false => simp [finalState, thrown, Disk.copyOver, kept, temps]
  | true =>
    cases launch.removesHarnessTemp with
    | false => simp [finalState, thrown, Disk.copyOver, kept, temps]
    | true => simp [finalState, thrown, kept, temps, others]

/-- The error of the cleanup is the one that the launch ends in, also where the run had failed before. -/
theorem FailsCleanup.thrown {error : RunError} (fails : FailsCleanup disk launch error) :
    thrown (session tools launch disk) = some error := by
  rcases fails with ⟨runRoot, made, middle, started, failed⟩
  rw [(session_prepare started).2, failed, Option.some_or]

omit [DecidableEq Content] in
theorem failsCleanup_iff {middle : Disk Content} {made : Option Location} {error : RunError}
    (started : prologue launch disk = .ok (.prepare, runRoot, made) middle) :
    FailsCleanup disk launch error ↔ cleanupError launch runRoot = some error := by
  apply Iff.intro
  · intro fails
    rcases fails with ⟨_, _, _, reached, failed⟩
    rw [started] at reached
    cases reached
    exact failed
  · intro failed
    exact ⟨runRoot, made, middle, started, failed⟩

omit [DecidableEq Content] in
theorem not_failsCleanup
    (other : ∀ runRoot made middle, prologue launch disk ≠ .ok (.prepare, runRoot, made) middle) :
    ¬ ∃ error, FailsCleanup disk launch error := by
  intro fails
  rcases fails with ⟨_, runRoot, made, middle, reached, -⟩
  exact other runRoot made middle reached

theorem step_harnessTemps (temp : Location) :
    temp ∈ (disk.step tools launch).harnessTemps ↔
      temp ∈ disk.harnessTemps ∨ (∃ error, FailsCleanup disk launch error) ∧ temp = launch.harnessTempRoot := by
  have opened := prologue_cases launch disk
  cases started : prologue launch disk with
  | error error middle =>
    rw [started] at opened
    have never : ¬ ∃ error, FailsCleanup disk launch error := not_failsCleanup (by simp [started])
    rw [Disk.step, session_failed started, finalState, opened.2]
    simp [never]
  | ok result middle =>
    rcases result with ⟨phase, runRoot, made⟩
    cases phase with
    | apply =>
      rw [started] at opened
      rcases opened with ⟨-, -, -, temps, same⟩
      dsimp only at same
      subst same
      have never : ¬ ∃ error, FailsCleanup disk launch error := not_failsCleanup (by simp [started])
      obtain ⟨-, kept, -⟩ := onRunRoot_leaves runRoot
        (crossRepo (launch.checkouts.site runRoot) tools .apply launch.environment) middle
      have idle : ∀ left : Disk Content, finalState ((pure () : Invocation Content Unit) left) = left := fun _ => rfl
      rw [Disk.step, session_started started, finalState_tryFinally, cleanup_none, idle, kept, temps]
      simp [never]
    | prepare =>
      have reaches : (∃ error, FailsCleanup disk launch error) ↔ (cleanupError launch runRoot).isSome = true := by
        rw [Option.isSome_iff_exists]
        exact exists_congr fun error => failsCleanup_iff started
      rw [(session_prepare started).1, reaches]
      cases (cleanupError launch runRoot).isSome <;> simp [or_comm]

/-- The temporary directories below a Harness that launches leave behind are those of PREPAREs whose cleanup failed,
    and each of these ended in the error of its cleanup. -/
theorem harness_temps_left (tools : Tools Content) (disk : Disk Content) (launches : List (Launch Content))
    (temp : Location) :
    temp ∈ (launches.foldl (Disk.step tools) disk).harnessTemps ↔
      temp ∈ disk.harnessTemps ∨ ∃ before launch after error, launches = before ++ launch :: after ∧
        FailsCleanup (before.foldl (Disk.step tools) disk) launch error ∧
        thrown (session tools launch (before.foldl (Disk.step tools) disk)) = some error ∧
        temp = launch.harnessTempRoot := by
  rw [foldl_accumulates (fun disk => temp ∈ disk.harnessTemps) (fun _ _ => step_harnessTemps temp) disk launches]
  apply or_congr_right
  apply Iff.intro
  · intro left
    rcases left with ⟨before, launch, after, split, ⟨error, fails⟩, same⟩
    exact ⟨before, launch, after, error, split, fails, fails.thrown, same⟩
  · intro left
    rcases left with ⟨before, launch, after, error, split, fails, -, same⟩
    exact ⟨before, launch, after, split, ⟨error, fails⟩, same⟩

end EffectHarness.Acceptance
