import EffectHarness.Acceptance.ApplyOutcome

namespace EffectHarness.Acceptance

open Schema Scripts

variable {Content : Type} {runRoot : Location} {site : Site} {tools : Tools Content}
  {root : RunRoot Content} {phase : Phase} {environment : Environment Content} {inputs : PackedInputs}

section

variable {φ : Type} {view : RunRoot Content → φ}

theorem pack_keeps {packageRoot : Location} {outcome : PackOutcome Content}
    (packed : ∀ (root : RunRoot Content) packs, view { root with packs := packs } = view root) :
    Keeps view (pack site packageRoot outcome) := by
  refine Keeps.bind Keeps.get fun _ => Keeps.bind (Keeps.modify fun root => packed root _) fun _ => ?_
  refine Keeps.bind Keeps.lift fun _ => Keeps.bind Keeps.get fun root => ?_
  split
  · exact Keeps.pure
  · exact fun _ => rfl

theorem installPackedPartita_keeps {installation : Installation} {partitaTarball contractTarball : String}
    (installed : ∀ (root : RunRoot Content) runner, view { root with partitaRunner := runner } = view root) :
    Keeps view (installPackedPartita site installation partitaTarball contractTarball) :=
  Keeps.bind (Keeps.modify fun root => installed root _) fun _ => Keeps.bind Keeps.lift fun _ =>
    Keeps.bind Keeps.lift fun _ => Keeps.pure

theorem writePackedInputs_keeps {write : EvidenceWrite}
    (recorded : ∀ (root : RunRoot Content) evidence, view { root with packedInputs := evidence } = view root) :
    Keeps view (writePackedInputs site tools write inputs) := by
  refine Keeps.bind Keeps.get fun _ => Keeps.bind Keeps.lift fun _ => ?_
  cases write with
  | written => exact Keeps.modify fun root => recorded root _
  | refused => exact fun _ => rfl
  | cutOff => exact Keeps.bind (Keeps.modify fun root => recorded root _) fun _ _ => rfl

variable [DecidableEq Content]

/-- Until it hands over, the runner touches the packs, the Partita runner and the evidence, and nothing else. -/
theorem packedInputs_keeps
    (packed : ∀ (root : RunRoot Content) packs, view { root with packs := packs } = view root)
    (installed : ∀ (root : RunRoot Content) runner, view { root with partitaRunner := runner } = view root)
    (recorded : ∀ (root : RunRoot Content) evidence, view { root with packedInputs := evidence } = view root) :
    Keeps view (packedInputs site tools phase environment) := by
  have packs : ∀ packageRoot outcome, Keeps view (pack site packageRoot outcome) :=
    fun _ _ => pack_keeps packed
  refine Keeps.bind Keeps.lift fun _ => ?_
  cases phase with
  | apply => exact Keeps.bind Keeps.get fun _ => Keeps.lift
  | prepare =>
    refine Keeps.bind ?_ fun _ => Keeps.bind (writePackedInputs_keeps recorded) fun _ => Keeps.pure
    refine Keeps.bind Keeps.lift fun _ => Keeps.bind (packs _ _) fun _ => Keeps.bind (packs _ _) fun _ => ?_
    refine Keeps.bind (installPackedPartita_keeps installed) fun _ => Keeps.bind Keeps.lift fun _ => ?_
    refine Keeps.bind Keeps.lift fun _ => Keeps.bind Keeps.lift fun _ => Keeps.bind (packs _ _) fun _ => ?_
    exact Keeps.bind Keeps.lift fun _ => Keeps.bind (packs _ _) fun _ => Keeps.pure

end

def approvals (site : Site) (targets : Files JsonText) : Except RunError (List (String × Approval)) :=
  ["single", "monorepo"].mapM fun name => approval site targets name

theorem writeApprovalCommandEvidence_eq (targets : Files JsonText) :
    writeApprovalCommandEvidence site targets root =
      match approvals site targets with
      | .ok approved => .ok () { root with approvalCommand := some {
          cwd := site.harnessRoot.text
          crossRepoRoot := site.runRoot.text
          crossRepoApprovals := approved } }
      | .error error => .error error root := by
  simp only [writeApprovalCommandEvidence, lift_eq, mapM_lift, lift_bind_apply, approvals]
  cases ["single", "monorepo"].mapM fun name => approval site targets name <;> rfl

/-- The run root once Prelude has been started from it. -/
def handedOver (site : Site) (phase : Phase) (environment : Environment Content) (inputs : PackedInputs)
    (root : RunRoot Content) : RunRoot Content :=
  { root with
    handed := root.handed ++ [preludeEnvironment site phase environment inputs]
    gitInvocations := root.gitInvocations || environment.invokesGit }

def approvalCommandOf (site : Site) (approved : List (String × Approval)) : ApprovalCommand where
  cwd := site.harnessRoot.text
  crossRepoRoot := site.runRoot.text
  crossRepoApprovals := approved

/-- A delivery that fails leaves the approval command alone, and so does the delivery of an APPLY. -/
theorem deliver_cases (site : Site) (phase : Phase) (environment : Environment Content) (inputs : PackedInputs)
    (root : RunRoot Content) :
    match deliver site phase environment inputs root with
    | .ok _ after =>
      environment.acceptance.succeeds = true ∧ (handedOver site phase environment inputs root).gitInvocations = false ∧
        match phase with
        | .apply => after = handedOver site phase environment inputs root
        | .prepare => ∃ approved, approvals site environment.targets = .ok approved ∧
            after = { handedOver site phase environment inputs root with
              approvalCommand := some (approvalCommandOf site approved) }
    | .error _ after =>
      after = handedOver site phase environment inputs root ∧ ¬ (environment.acceptance.succeeds = true ∧
        (handedOver site phase environment inputs root).gitInvocations = false ∧
          (phase = .prepare → (approvals site environment.targets).isOk = true)) := by
  have given : deliver site phase environment inputs root =
      awaitAcceptance site phase environment (handedOver site phase environment inputs root) := rfl
  rw [given]
  generalize handedOver site phase environment inputs root = started
  simp only [awaitAcceptance, lift_eq, lift_bind_apply, get_bind_apply, run, assert]
  cases environment.acceptance.succeeds with
  | false => simp [require]
  | true =>
    cases invoked : started.gitInvocations with
    | true => simp [require]
    | false =>
      cases phase with
      | apply => simp [require, pure, EStateM.pure]
      | prepare =>
        simp only [require, Bool.not_false, ↓reduceIte, writeApprovalCommandEvidence_eq]
        cases approvals site environment.targets with
        | ok approved => simp [approvalCommandOf, invoked]
        | error error => simp [Except.isOk, Except.toBool]

theorem deliver_gitInvocations :
    (finalState (deliver site phase environment inputs root)).gitInvocations =
      (root.gitInvocations || environment.invokesGit) := by
  have ended := deliver_cases site phase environment inputs root
  cases result : deliver site phase environment inputs root with
  | error error after =>
    rw [result] at ended
    rw [finalState, ended.1]
    rfl
  | ok value after =>
    rw [result] at ended
    rcases ended with ⟨-, -, left⟩
    cases phase with
    | apply =>
      rw [finalState, left]
      rfl
    | prepare =>
      rcases left with ⟨approved, -, left⟩
      rw [finalState, left]
      rfl

theorem deliver_passes_iff :
    passes (deliver site phase environment inputs root) = true ↔
      environment.acceptance.succeeds = true ∧ (root.gitInvocations || environment.invokesGit) = false ∧
        (phase = .prepare → (approvals site environment.targets).isOk = true) := by
  have ended := deliver_cases site phase environment inputs root
  cases result : deliver site phase environment inputs root with
  | error error after =>
    rw [result] at ended
    exact iff_of_false (by simp [passes]) ended.2
  | ok value after =>
    rw [result] at ended
    rcases ended with ⟨accepted, quiet, left⟩
    have approvable : phase = .prepare → (approvals site environment.targets).isOk = true := by
      intro prepares
      subst prepares
      rcases left with ⟨approved, given, -⟩
      rw [given]
      rfl
    exact ⟨fun _ => ⟨accepted, quiet, approvable⟩, fun _ => rfl⟩

variable [DecidableEq Content] {world : World Content} {event : Event Content} {events : List (Event Content)}

def HandsTo (runRoot : Location) (tools : Tools Content) (world : World Content) (event : Event Content)
    (inputs : PackedInputs) (after : RunRoot Content) : Prop :=
  packedInputs (event.checkouts.site runRoot) tools event.phase event.environment world.root = .ok inputs after

/-- A run of the script that gets as far as Prelude, and in which Prelude or what it starts invokes Git. -/
def InvokesGit (runRoot : Location) (tools : Tools Content) (world : World Content) (event : Event Content) : Prop :=
  (∃ inputs after, HandsTo runRoot tools world event inputs after) ∧ event.environment.invokesGit = true

def Passes (runRoot : Location) (tools : Tools Content) (world : World Content) (event : Event Content) : Prop :=
  passes (crossRepo (event.checkouts.site runRoot) tools event.phase event.environment world.root) = true

theorem HandsTo.gitInvocations {after : RunRoot Content} (hands : HandsTo runRoot tools world event inputs after) :
    after.gitInvocations = world.root.gitInvocations := by
  have kept : Keeps RunRoot.gitInvocations
      (packedInputs (event.checkouts.site runRoot) tools event.phase event.environment) :=
    packedInputs_keeps (fun _ _ => rfl) (fun _ _ => rfl) fun _ _ => rfl
  have same := kept world.root
  rw [hands] at same
  exact same

theorem gitInvocations_step :
    (world.step runRoot tools event).root.gitInvocations = true ↔
      world.root.gitInvocations = true ∨ InvokesGit runRoot tools world event := by
  have kept : Keeps RunRoot.gitInvocations
      (packedInputs (event.checkouts.site runRoot) tools event.phase event.environment) :=
    packedInputs_keeps (fun _ _ => rfl) (fun _ _ => rfl) fun _ _ => rfl
  have same := kept world.root
  have stepped : (world.step runRoot tools event).root =
      finalState (crossRepo (event.checkouts.site runRoot) tools event.phase event.environment world.root) := rfl
  rw [stepped, crossRepo, finalState_bind]
  simp only [InvokesGit, HandsTo]
  cases result : packedInputs (event.checkouts.site runRoot) tools event.phase event.environment world.root with
  | error error after =>
    rw [result] at same
    simp only [finalState] at same
    simp [same]
  | ok inputs after =>
    rw [result] at same
    simp only [finalState] at same
    simp [deliver_gitInvocations, same]

theorem passes_step_iff :
    Passes runRoot tools world event ↔
      (∃ inputs after, HandsTo runRoot tools world event inputs after) ∧
        event.environment.acceptance.succeeds = true ∧
        (world.step runRoot tools event).root.gitInvocations = false ∧
        (event.phase = .prepare →
          (approvals (event.checkouts.site runRoot) event.environment.targets).isOk = true) := by
  have kept : ∀ {inputs after}, HandsTo runRoot tools world event inputs after →
      after.gitInvocations = world.root.gitInvocations := HandsTo.gitInvocations
  rw [← Bool.not_eq_true, gitInvocations_step, not_or, Passes, crossRepo, bind_apply]
  simp only [InvokesGit, HandsTo] at kept ⊢
  cases result : packedInputs (event.checkouts.site runRoot) tools event.phase event.environment world.root with
  | error error after => simp [passes]
  | ok inputs after =>
    have same := kept result
    simp [deliver_passes_iff, same, and_assoc]

theorem gitInvocations_run :
    (events.foldl (World.step runRoot tools) world).root.gitInvocations = false ↔
      world.root.gitInvocations = false ∧
        AtEach (World.step runRoot tools) (fun reached event => ¬ InvokesGit runRoot tools reached event) world
          events := by
  induction events generalizing world with
  | nil => exact (and_iff_left atEach_nil).symm
  | cons event events ih =>
    rw [List.foldl_cons, ih, atEach_cons, ← Bool.not_eq_true, gitInvocations_step, not_or, Bool.not_eq_true,
      and_assoc]

theorem passes_iff_history (runRoot : Location) (tools : Tools Content) (world : World Content)
    (events : List (Event Content)) (event : Event Content) :
    Passes runRoot tools (events.foldl (World.step runRoot tools) world) event ↔
      (∃ inputs after, HandsTo runRoot tools (events.foldl (World.step runRoot tools) world) event inputs after) ∧
        event.environment.acceptance.succeeds = true ∧
        (event.phase = .prepare →
          (approvals (event.checkouts.site runRoot) event.environment.targets).isOk = true) ∧
        world.root.gitInvocations = false ∧
        AtEach (World.step runRoot tools) (fun reached event => ¬ InvokesGit runRoot tools reached event) world
          (events ++ [event]) := by
  have run : (events.foldl (World.step runRoot tools) world).step runRoot tools event =
      (events ++ [event]).foldl (World.step runRoot tools) world := by
    rw [List.foldl_append, List.foldl_cons, List.foldl_nil]
  rw [passes_step_iff, run, gitInvocations_run]
  tauto

theorem handsTo_apply_iff (apply : event.phase = .apply) {after : RunRoot Content} :
    HandsTo runRoot tools world event inputs after ↔
      (opening (event.checkouts.site runRoot) .apply event.environment).isOk = true ∧
        readPackedInputs (event.checkouts.site runRoot) tools world.root = .ok inputs ∧ after = world.root := by
  rcases event with ⟨checkouts, phase, environment⟩
  cases apply
  apply Iff.intro
  · intro hands
    obtain ⟨read, same⟩ := readPackedInputs_of_apply hands
    have opened : (opening (checkouts.site runRoot) .apply environment).isOk = true := by
      by_contra shut
      rw [HandsTo, apply_eq] at hands
      cases result : opening (checkouts.site runRoot) .apply environment with
      | ok => simp [result, Except.isOk, Except.toBool] at shut
      | error error =>
        rw [result] at hands
        cases hands
    exact ⟨opened, read, same⟩
  · intro conditions
    rcases conditions with ⟨opened, read, same⟩
    subst same
    exact apply_of_read opened read

theorem HandsTo.handed {after : RunRoot Content} (hands : HandsTo runRoot tools world event inputs after) :
    (world.step runRoot tools event).root.handed =
      world.root.handed ++ [preludeEnvironment (event.checkouts.site runRoot) event.phase event.environment inputs] := by
  have kept : Keeps RunRoot.handed
      (packedInputs (event.checkouts.site runRoot) tools event.phase event.environment) :=
    packedInputs_keeps (fun _ _ => rfl) (fun _ _ => rfl) fun _ _ => rfl
  have same := kept world.root
  have stepped : (world.step runRoot tools event).root =
      finalState (crossRepo (event.checkouts.site runRoot) tools event.phase event.environment world.root) := rfl
  rw [stepped, crossRepo, finalState_bind, hands]
  rw [hands] at same
  dsimp only
  rw [deliver_handed]
  exact congrArg (· ++ _) same

/-- An APPLY passes exactly if it opens, finds evidence none of whose tarballs changed, Prelude accepts, and Git was
    not invoked, neither in this run nor in any run before it on the same root. -/
theorem apply_passes_iff (runRoot : Location) (tools : Tools Content) (start : RunRoot Content)
    (events : List (Event Content)) (checkouts : Checkouts) (environment : Environment Content) :
    Passes runRoot tools (events.foldl (World.step runRoot tools) (World.start start))
        ⟨checkouts, .apply, environment⟩ ↔
      (opening (checkouts.site runRoot) .apply environment).isOk = true ∧
        (∃ json, (events.foldl (World.step runRoot tools) (World.start start)).root.packedInputs = some (some json)) ∧
        (∀ handoff, (events.foldl (World.step runRoot tools) (World.start start)).latest = some handoff → ∀ name,
          handoff.changed runRoot tools (events.foldl (World.step runRoot tools) (World.start start)).root name =
            false) ∧
        environment.acceptance.succeeds = true ∧ start.gitInvocations = false ∧
        AtEach (World.step runRoot tools) (fun reached event => ¬ InvokesGit runRoot tools reached event)
          (World.start start) (events ++ [⟨checkouts, .apply, environment⟩]) := by
  have hands : (∃ inputs after, HandsTo runRoot tools (events.foldl (World.step runRoot tools) (World.start start))
      ⟨checkouts, .apply, environment⟩ inputs after) ↔
      (opening (checkouts.site runRoot) .apply environment).isOk = true ∧
        ∃ inputs, readPackedInputs (checkouts.site runRoot) tools
          (events.foldl (World.step runRoot tools) (World.start start)).root = .ok inputs := by
    simp only [handsTo_apply_iff]
    tauto
  have reads : (∃ inputs, readPackedInputs (checkouts.site runRoot) tools
      (events.foldl (World.step runRoot tools) (World.start start)).root = .ok inputs) ↔ _ :=
    Backed.reads_iff (backed_run start) (stored_run start)
  rw [passes_iff_history, hands, reads]
  simp only [reduceCtorEq, false_implies, true_and, and_assoc]
  exact Iff.rfl

end EffectHarness.Acceptance
