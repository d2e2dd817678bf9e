import EffectHarness.Acceptance.PackedInputs
import EffectHarness.Paths.Canonical

namespace EffectHarness.Acceptance

open Paths Schema Scripts

variable {Content : Type} {location : Location} {path : List Segment} {site : Site} {tools : Tools Content}
  {root : RunRoot Content} {evidence : PackedInputsEvidence} {name : ArtifactName} {inputs : PackedInputs}

end EffectHarness.Acceptance
