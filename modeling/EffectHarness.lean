import EffectHarness.Paths.Adjacent
import EffectHarness.Paths.Lexical
import EffectHarness.Paths.Posix
import EffectHarness.Paths.Canonical
import EffectHarness.Gitignore.Pattern
import EffectHarness.Gitignore.Text
import EffectHarness.Scripts.Guards
import EffectHarness.Scripts.Attempt
import EffectHarness.Scripts.Script
import EffectHarness.Scripts.Performs
import EffectHarness.Scripts.Frame
import EffectHarness.Scripts.Runs
import EffectHarness.Scripts.Finally
import EffectHarness.Scripts.Pipeline
import EffectHarness.Schema.Codec
import EffectHarness.Schema.JsonText
import EffectHarness.Schema.RoundTrip
import EffectHarness.Schema.Truncation
import EffectHarness.Schema.Fuel
import EffectHarness.Schema.Printing
import EffectHarness.Git.Repository
import EffectHarness.Eslint.FlatConfig
import EffectHarness.Eslint.Reference
import EffectHarness.Harness.Baseline
import EffectHarness.Harness.EslintPolicy
import EffectHarness.Harness.ImportBoundary
import EffectHarness.Harness.BoundarySpelling
import EffectHarness.Harness.Composition
import EffectHarness.Harness.Overlay
import EffectHarness.SourcePins.VerifySourcePins
import EffectHarness.SourcePins.Gate
import EffectHarness.Harness.ModulePlan
import EffectHarness.Harness.LoadedPlan
import EffectHarness.Acceptance.Evidence
import EffectHarness.Acceptance.RunRoot
import EffectHarness.Acceptance.Checks
import EffectHarness.Acceptance.CrossRepo
import EffectHarness.Acceptance.Packing
import EffectHarness.Acceptance.PackedInputs
import EffectHarness.Acceptance.Containment
import EffectHarness.Acceptance.EvidenceText
import EffectHarness.Acceptance.Handoff
import EffectHarness.Acceptance.FailClosed
import EffectHarness.Acceptance.ApplyOutcome
import EffectHarness.Acceptance.Delivery
import EffectHarness.Acceptance.Approvals
import EffectHarness.Acceptance.Session
import EffectHarness.Acceptance.Sessions
import EffectHarness.Acceptance.Preserved
import EffectHarness.Acceptance.Replay
import EffectHarness.SourcePins.Publishing
import EffectHarness.SourcePins.Temporary
import EffectHarness.Release.PackageScripts
import EffectHarness.Release.PublishWorkflow
import EffectHarness.Release.Verification
