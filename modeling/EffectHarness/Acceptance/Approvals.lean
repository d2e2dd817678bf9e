import EffectHarness.Acceptance.Delivery

namespace EffectHarness.Acceptance

open Schema Scripts

variable {Content : Type} {runRoot : Location} {site : Site} {tools : Tools Content} {root : RunRoot Content}
  {targets : Files JsonText} {inputs : PackedInputs}

/-- The approval is for a plan of this Target below the run root, bound to the state that was observed. -/
structure Approves (runRoot : Location) (name : String) (approval : Approval) : Prop where
  planHash : isPlanHash approval.planHash = true
  targetRoot : approval.targetRoot = runRoot.text ++ "/targets/" ++ name
  bound : ∃ pairs, approval.observedStateBinding = .obj pairs ∧
    pairs.lookup "executionHash" = some (.str approval.planHash)

/-- Both Targets are approved, each under its own name. -/
def ApprovesBoth (runRoot : Location) (approved : List (String × Approval)) : Prop :=
  ∃ single monorepo, approved = [("single", single), ("monorepo", monorepo)] ∧
    Approves runRoot "single" single ∧ Approves runRoot "monorepo" monorepo

variable [DecidableEq Content] {world : World Content} {event : Event Content} {events : List (Event Content)}

/-- The event is a PREPARE that passes, hands these tarballs over and leaves this command. -/
structure LeavesCommand (runRoot : Location) (tools : Tools Content) (world : World Content) (event : Event Content)
    (inputs : PackedInputs) (command : ApprovalCommand) : Prop where
  prepare : event.phase = .prepare
  passes : Passes runRoot tools world event
  hands : ∃ after, HandsTo runRoot tools world event inputs after
  cwd : command.cwd = event.checkouts.harnessRoot.text
  crossRepoRoot : command.crossRepoRoot = runRoot.text
  approvals : ApprovesBoth runRoot command.crossRepoApprovals

theorem LeavesCommand.writes {command : ApprovalCommand}
    (leaves : LeavesCommand runRoot tools world event inputs command) : Writes runRoot tools world event inputs := by
  obtain ⟨after, hands⟩ := leaves.hands
  rw [HandsTo, leaves.prepare] at hands
  exact ⟨leaves.prepare, after, hands⟩

/-- Two evidence-writing PREPAREs on one run root have no tarball in common. -/
theorem Writes.apart {between : List (Event Content)} {later : Event Content} {laterInputs : PackedInputs}
    (writes : Writes runRoot tools world event inputs)
    (again : Writes runRoot tools (between.foldl (World.step runRoot tools) (world.step runRoot tools event)) later
      laterInputs) (name other : ArtifactName) : laterInputs.get name ≠ inputs.get other := by
  intro same
  obtain ⟨bytes, packedAs, -⟩ := writes.leaves
  obtain ⟨laterBytes, laterPackedAs, -⟩ := again.leaves
  obtain ⟨entry, written, path⟩ := packedAs other
  obtain ⟨laterEntry, laterWritten, laterPath⟩ := laterPackedAs name
  have nonempty : runRoot.packsRoot.path ≠ [] := Location.join_path_ne_nil
  have shared : laterEntry = entry := Location.join_text_injective nonempty (by rw [← laterPath, ← path, same])
  have reused : (later.environment.preparation.packed name).written.map Prod.fst =
      (event.environment.preparation.packed other).written.map Prod.fst := by
    rw [laterWritten, written, shared]
    rfl
  exact writes.names_apart again other name reused

def plannedTarget (name : String) : Json := .obj
  [("planHash", .str (String.ofList (List.replicate 64 'a'))),
   ("targetRoot", .str ("/run/targets/" ++ name)),
   ("observedStateBinding", .obj [("executionHash", .str (String.ofList (List.replicate 64 'a')))]),
   ("commands", .arr [])]

def plannedTargets : Files JsonText := fun path =>
  if path = "/run/targets/single.prepare.json" then some (some (plannedTarget "single"))
  else if path = "/run/targets/monorepo.prepare.json" then some (some (plannedTarget "monorepo"))
  else none

def approvable : Event String where
  checkouts := releaseCheckouts
  phase := .prepare
  environment := { releaseEnvironment "first" with targets := plannedTargets }

end EffectHarness.Acceptance
