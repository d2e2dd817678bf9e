import EffectHarness.Acceptance.Handoff

namespace EffectHarness.Acceptance

open Scripts

variable {Content : Type} {runRoot : Location} {site : Site} {tools : Tools Content} {world : World Content}
  {event : Event Content} {environment : Environment Content} {events : List (Event Content)}
  {root after : RunRoot Content} {inputs : PackedInputs}

/-- Evidence that can be read is always that of the latest PREPARE which wrote any. -/
def Backed (runRoot : Location) (tools : Tools Content) (world : World Content) : Prop :=
  ∀ json, world.root.packedInputs = some (some json) → ∃ handoff, world.latest = some handoff ∧
    ∃ bytes, (∀ name, handoff.bytes name = some (bytes name)) ∧
      Evidenced runRoot tools world.root handoff.inputs bytes

theorem Backed.of_same {other : World Content} (backed : Backed runRoot tools world)
    (sameEvidence : other.root.packedInputs = world.root.packedInputs) (sameLatest : other.latest = world.latest) :
    Backed runRoot tools other := by
  intro json written
  obtain ⟨handoff, latest, bytes, packed, evidenced⟩ := backed json (sameEvidence.symm.trans written)
  have stillEvidenced : Evidenced runRoot tools other.root handoff.inputs bytes :=
    ⟨sameEvidence.trans evidenced.evidence, evidenced.located⟩
  exact ⟨handoff, sameLatest.trans latest, bytes, packed, stillEvidenced⟩

variable [DecidableEq Content]

theorem backed_prepare (site : Site) (backed : Backed site.runRoot tools world) :
    Backed site.runRoot tools (world.after site tools .prepare environment) := by
  have evidence : (world.after site tools .prepare environment).root.packedInputs = _ :=
    crossRepo_packedInputs world.root
  have ended := prepare_cases site tools environment world.root
  cases result : packedInputs site tools .prepare environment world.root with
  | error error after =>
    rw [result] at ended evidence
    have left := evidence.trans ended.1
    cases cut : cutsOff site tools environment world.root with
    | false =>
      rw [cut, if_neg Bool.false_ne_true] at left
      have kept : (world.after site tools .prepare environment).latest = world.latest := by
        simp only [World.after, result]
      exact backed.of_same left kept
    | true =>
      rw [cut, if_pos rfl] at left
      intro json written
      rw [left] at written
      cases written
  | ok inputs after =>
    rw [result] at ended evidence
    rcases ended with ⟨-, -, bytes, packedAs, recorded⟩
    have latest : (world.after site tools .prepare environment).latest =
        some (environment.preparation.handoff inputs) := by
      simp only [World.after, result]
    intro _ _
    exact ⟨_, latest, bytes, packedAs.handoff_bytes, evidence.trans recorded.evidence, recorded.located⟩

theorem backed_step (backed : Backed runRoot tools world) :
    Backed runRoot tools (world.step runRoot tools event) := by
  rcases event with ⟨checkouts, phase, environment⟩
  cases phase with
  | prepare => exact backed_prepare (checkouts.site runRoot) backed
  | apply =>
    have evidence : (world.after (checkouts.site runRoot) tools .apply environment).root.packedInputs = _ :=
      crossRepo_packedInputs world.root
    rw [apply_keeps] at evidence
    exact backed.of_same evidence rfl

theorem backed_run (root : RunRoot Content) :
    Backed runRoot tools (events.foldl (World.step runRoot tools) (World.start root)) := by
  have always : AtEach (World.step runRoot tools) (fun _ _ => True) (World.start root) events :=
    fun _ _ _ _ => trivial
  have initial : Backed runRoot tools (World.start root) := by
    intro json written
    cases written
  exact invariant_foldl initial (fun _ _ backed _ => backed_step backed) always

theorem readPackedInputs_of_apply (passes : packedInputs site tools .apply environment root = .ok inputs after) :
    readPackedInputs site tools root = .ok inputs ∧ after = root := by
  rw [apply_eq] at passes
  cases opened : opening site .apply environment with
  | error error =>
    rw [opened] at passes
    cases passes
  | ok =>
    rw [opened] at passes
    cases read : readPackedInputs site tools root with
    | error error =>
      rw [read] at passes
      cases passes
    | ok inputs =>
      rw [read] at passes
      cases passes
      exact ⟨rfl, rfl⟩

/-- Whatever the runs before it overwrote, an APPLY that gets through has the paths of the latest evidence, with
    files of the recorded hashes behind them. -/
theorem apply_reads_recorded_hashes (start : RunRoot Content)
    (reached : events.foldl (World.step site.runRoot tools) (World.start start) = world)
    (passes : packedInputs site tools .apply environment world.root = .ok inputs after) :
    ∃ handoff, world.latest = some handoff ∧ ∀ name, inputs.get name = handoff.inputs.get name ∧
      ∃ packed found, handoff.bytes name = some packed ∧ after.tarball site.runRoot (inputs.get name) = some found ∧
        tools.sha256 found = tools.sha256 packed := by
  obtain ⟨read, same⟩ := readPackedInputs_of_apply passes
  have backed : Backed site.runRoot tools world := by
    rw [← reached]
    exact backed_run start
  obtain ⟨json, -, written, -⟩ := readPackedInputs_eq_ok.mp read
  obtain ⟨handoff, latest, bytes, packed, evidenced⟩ := backed json written
  have each : ∀ name, inputs.get name = handoff.inputs.get name ∧
      ∃ packed found, handoff.bytes name = some packed ∧ after.tarball site.runRoot (inputs.get name) = some found ∧
        tools.sha256 found = tools.sha256 packed := by
    intro name
    obtain ⟨path, content, found, hashed⟩ := evidenced.of_read read name
    rw [same, path]
    exact ⟨rfl, bytes name, content, packed name, found, hashed⟩
  exact ⟨handoff, latest, each⟩

/-- Without hash collisions an APPLY hands over the latest tarballs byte for byte, or stops. -/
theorem apply_reads_packed_bytes (start : RunRoot Content)
    (reached : events.foldl (World.step site.runRoot tools) (World.start start) = world)
    (distinct : tools.sha256.Injective)
    (passes : packedInputs site tools .apply environment world.root = .ok inputs after) :
    ∃ handoff, world.latest = some handoff ∧ ∀ name, inputs.get name = handoff.inputs.get name ∧
      ∃ packed, handoff.bytes name = some packed ∧ after.tarball site.runRoot (inputs.get name) = some packed := by
  obtain ⟨handoff, latest, each⟩ := apply_reads_recorded_hashes start reached passes
  apply Exists.intro handoff
  apply And.intro latest
  intro name
  obtain ⟨path, packed, found, written, present, hashed⟩ := each name
  rw [distinct hashed] at present
  exact ⟨path, packed, written, present⟩

end EffectHarness.Acceptance
