import EffectHarness.Acceptance.CrossRepo

namespace EffectHarness.Acceptance

open Schema Scripts

variable {Content : Type} {site : Site} {tools : Tools Content} {packageRoot : Location}
  {outcome : PackOutcome Content} {preparation : Preparation Content} {root : RunRoot Content}

def PackedAt (runRoot : Location) (outcome : PackOutcome Content) (path : String) : Prop :=
  ∃ name content, outcome.written = some (name, content) ∧ path = (runRoot.packsRoot.join name).text

theorem pack_performs :
    Performs FileName.isTarball RunRoot.packs RunRoot.packedInputs (pack site packageRoot outcome)
      [.pack outcome.output] (PackedAt site.runRoot outcome) := by
  intro root
  have attempt : runSteps FileName.isTarball [.pack outcome.output] root.packs =
      (outcome.output.fresh FileName.isTarball root.packs, outcome.output.write root.packs) := by
    cases fresh : outcome.output.fresh FileName.isTarball root.packs <;> simp [runSteps, fresh]
  rw [attempt]
  simp only [pack, get_bind_apply, modify_bind_apply, lift_eq, lift_bind_apply, run]
  cases succeeds : outcome.result.succeeds with
  | false =>
    have stale : outcome.output.fresh FileName.isTarball root.packs = false := by
      simp [Output.fresh, PackOutcome.output, succeeds]
    exact ⟨by rw [stale], rfl⟩
  | true =>
    have listed : created FileName.isTarball root.packs.keys (outcome.output.write root.packs).keys = _ :=
      created_of_succeeds succeeds
    cases fresh : outcome.output.fresh FileName.isTarball root.packs with
    | false =>
      rw [fresh] at listed
      simp only [require, listed, ↓reduceIte, Bool.false_eq_true]
      exact ⟨rfl, rfl⟩
    | true =>
      obtain ⟨-, name, content, written, -, -⟩ := fresh_iff.mp fresh
      rw [fresh, written] at listed
      simp only [require, listed, ↓reduceIte, Option.map_some, Option.toList_some]
      exact ⟨⟨name, content, written, rfl⟩, rfl, rfl⟩

@[simp] theorem isOk_run (command : String) (args : List String) (result : SpawnResult) :
    (run command args result).isOk = result.succeeds := by
  cases succeeds : result.succeeds <;> simp [run, require, succeeds, Except.isOk, Except.toBool]

@[simp] theorem isOk_assert (condition : Bool) (message : Option String) :
    (assert condition message).isOk = condition := by
  cases condition <;> rfl

def partitaCli (site : Site) : String := site.runRoot.text ++ "/partita-runner/node_modules/.bin/partita"

theorem installPackedPartita_performs {installation : Installation} {partitaTarball contractTarball : String} :
    Performs FileName.isTarball (RunRoot.packs : RunRoot Content → _) RunRoot.packedInputs
      (installPackedPartita site installation partitaTarball contractTarball)
      [.check installation.result.succeeds, .check installation.cliExists] (· = partitaCli site) := by
  refine Performs.bind_idle (Performs.modify (fun _ => rfl) fun _ => rfl) fun _ _ => ?_
  refine Performs.bind_step (Performs.check (isOk_run _ _ _) fun _ _ => trivial) fun _ _ => ?_
  refine Performs.bind_step (Performs.check (isOk_assert _ _) fun _ _ => trivial) fun _ _ => ?_
  exact Performs.pure rfl

def Preparation.packed (preparation : Preparation Content) : ArtifactName → PackOutcome Content
  | .contractTarball => preparation.contract
  | .partitaTarball => preparation.partita
  | .harnessTarball => preparation.harness
  | .preludeTarball => preparation.prelude

variable [DecidableEq Content]

/-- What the packing comes to, with every check in between reduced to its result. -/
def packingSteps (site : Site) (tools : Tools Content) (preparation : Preparation Content) :
    List (Step FileName Content) :=
  let publicationRoot := preparation.publicationRoot site
  [.check (verifyRepositories .prepare preparation.verification).isOk,
   .pack preparation.contract.output,
   .pack preparation.partita.output,
   .check preparation.installation.result.succeeds,
   .check preparation.installation.cliExists,
   .check (publishFixture site (partitaCli site) publicationRoot "first" preparation.first).isOk,
   .check (publishFixture site (partitaCli site) publicationRoot "second" preparation.second).isOk,
   .check (assertPublicationDeterminism preparation.files publicationRoot).isOk,
   .pack preparation.harness.output,
   .check (assertHarnessArtifact site tools preparation.files preparation.tar publicationRoot).isOk,
   .pack preparation.prelude.output]

theorem packInputs_performs :
    Performs FileName.isTarball RunRoot.packs RunRoot.packedInputs (packInputs site tools preparation)
      (packingSteps site tools preparation)
      fun inputs => ∀ name, PackedAt site.runRoot (preparation.packed name) (inputs.get name) := by
  refine Performs.bind_step (Performs.check rfl fun _ _ => trivial) fun _ _ => ?_
  refine Performs.bind_step pack_performs fun contractTarball contract => ?_
  refine Performs.bind_step pack_performs fun partitaTarball partita => ?_
  refine Performs.bind installPackedPartita_performs fun cli installed => ?_
  subst installed
  refine Performs.bind_step (Performs.check rfl fun _ _ => trivial) fun _ _ => ?_
  refine Performs.bind_step (Performs.check rfl fun _ _ => trivial) fun _ _ => ?_
  refine Performs.bind_step (Performs.check rfl fun _ _ => trivial) fun _ _ => ?_
  refine Performs.bind_step pack_performs fun harnessTarball harness => ?_
  refine Performs.bind_step (Performs.check rfl fun _ _ => trivial) fun _ _ => ?_
  refine Performs.bind_step pack_performs fun preludeTarball prelude => ?_
  refine Performs.pure fun name => ?_
  cases name with
  | contractTarball => exact contract
  | partitaTarball => exact partita
  | harnessTarball => exact harness
  | preludeTarball => exact prelude

end EffectHarness.Acceptance
