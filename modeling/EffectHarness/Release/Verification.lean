import EffectHarness.Release.PublishWorkflow

namespace EffectHarness.Release

open Acceptance Scripts SourcePins

/-- A tool that only succeeds or fails. -/
def Plain (command : Command) : Prop :=
  command ∉ [verifySourcePinsCommand, crossRepoCommand, publishCommand] ∧ command.head? ≠ some "!"

instance decidablePlain (command : Command) : Decidable (Plain command) :=
  inferInstanceAs (Decidable (_ ∧ _))

variable {Content : Type} [DecidableEq Content] {tools : Tools Content} {surroundings : Surroundings Content}
  {machine : Machine Content}

end EffectHarness.Release
