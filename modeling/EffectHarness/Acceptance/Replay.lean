import EffectHarness.Acceptance.EvidenceText
import EffectHarness.Acceptance.Preserved

namespace EffectHarness.Acceptance

open Paths Schema Schema.Text Scripts

variable {Content : Type} [DecidableEq Content] {tools : Tools Content} {world : World Content} {runRoot : Location}

end EffectHarness.Acceptance
