import EffectHarness.Harness.ImportBoundary
import EffectHarness.Scripts.Guards

namespace EffectHarness

open Paths Gitignore Eslint Scripts

structure Provenance where
  sourceUrl : String
  revision : String
  treeDigest : String

/-- The JSON file that Partita publishes beside an archive. -/
structure PinPublication where
  name : String
  provenance : Provenance

def identityMismatch (identity : SourcePin) : String :=
  "Source Pin publication does not match accepted Baseline identity: " ++ identity.publicationName

def verifiedProvenance (publication : PinPublication) (identity : SourcePin) : Except String Provenance := do
  require
    (publication.name == identity.publicationName && publication.provenance.sourceUrl == identity.sourceUrl)
    (identityMismatch identity)
  return publication.provenance

inductive LocatorRoot
  | integrationWorkspace
  | controlRoot
  deriving DecidableEq

structure Locator where
  root : LocatorRoot
  path : String
  deriving DecidableEq

inductive PlanOutput
  | managedTree (id sourceRoot : String) (locator : Locator)
  | managedBlock (id : String) (locator : Locator) (blockId content : String)
  | pinnedReferenceTree (id archivePath : String) (locator : Locator) (provenance : Provenance)

def PlanOutput.id : PlanOutput → String
  | managedTree id _ _ => id
  | managedBlock id _ _ _ => id
  | pinnedReferenceTree id _ _ _ => id

def PlanOutput.locator : PlanOutput → Locator
  | managedTree _ _ locator => locator
  | managedBlock _ locator _ _ => locator
  | pinnedReferenceTree _ _ locator _ => locator

def pinnedReferenceTree (identity : SourcePin) (provenance : Provenance) : PlanOutput :=
  .pinnedReferenceTree identity.outputId
    ("artifact-assets/effect/reference-archives/" ++ identity.publicationName ++ ".pta")
    { root := .integrationWorkspace, path := identity.targetPath } provenance

/-- The declarations that loading the module computes, from the two publications it imports. -/
def pinnedReferenceOutputs (effectPinPublication tsgoPinPublication : PinPublication) :
    Except String (List PlanOutput) := do
  let effectPin := acceptedEffectBaseline.sourcePins.effect
  let tsgoPin := acceptedEffectBaseline.sourcePins.tsgo
  let effectProvenance ← verifiedProvenance effectPinPublication effectPin
  let tsgoProvenance ← verifiedProvenance tsgoPinPublication tsgoPin
  return [pinnedReferenceTree effectPin effectProvenance, pinnedReferenceTree tsgoPin tsgoProvenance]

def routingBlock : String :=
  "## Effect Harness\n\nFor Effect application, test, package, TypeScript, editor, or lint changes, read the current " ++
  "Effect integration's `.prelude/**/managed/docs/index.md` first. Use " ++
  "`.prelude/**/managed/skills/adapt-effect-target/SKILL.md` when package selection or target-owned TypeScript " ++
  "topology needs adaptation. Keep `.prelude/**/feedback/**` target-owned. Treat `.prelude/**/repos/**` as " ++
  "read-only source diagnostics: consult it when installed declarations and managed guidance are insufficient, " ++
  "but never import or edit it.\n"

def managedOutputs : List PlanOutput :=
  [.managedTree "effect.managed" "artifact-assets/effect/managed"
    { root := .integrationWorkspace, path := "managed" },
   .managedBlock "effect.agent-routing" { root := .controlRoot, path := "AGENTS.md" } "effect-harness-routing"
    routingBlock]

def stableHarnessOutputs (effectPinPublication tsgoPinPublication : PinPublication) :
    Except String (List PlanOutput) := do
  let references ← pinnedReferenceOutputs effectPinPublication tsgoPinPublication
  return managedOutputs ++ references

def PinPublication.Matches (publication : PinPublication) (identity : SourcePin) : Prop :=
  publication.name = identity.publicationName ∧ publication.provenance.sourceUrl = identity.sourceUrl

variable {publication effectPinPublication tsgoPinPublication : PinPublication} {identity : SourcePin}
  {provenance : Provenance} {outputs : List PlanOutput}

theorem verifiedProvenance_eq_ok :
    verifiedProvenance publication identity = .ok provenance ↔
      publication.Matches identity ∧ publication.provenance = provenance := by
  simp only [verifiedProvenance, PinPublication.Matches, bind_eq_ok, require_eq_ok, pure_eq_ok, Bool.and_eq_true,
    beq_iff_eq, exists_const]

theorem verifiedProvenance_of_mismatch (mismatch : ¬ publication.Matches identity) :
    verifiedProvenance publication identity = .error (identityMismatch identity) := by
  have refused : (publication.name == identity.publicationName &&
      publication.provenance.sourceUrl == identity.sourceUrl) = false := by
    rw [Bool.eq_false_iff]
    simpa [PinPublication.Matches] using mismatch
  rw [verifiedProvenance, refused]
  rfl

/-- The module loads exactly with publications of the accepted identities, and its plan then carries their
    provenance. -/
theorem stableHarnessOutputs_eq_ok :
    stableHarnessOutputs effectPinPublication tsgoPinPublication = .ok outputs ↔
      effectPinPublication.Matches acceptedEffectBaseline.sourcePins.effect ∧
      tsgoPinPublication.Matches acceptedEffectBaseline.sourcePins.tsgo ∧
      outputs = managedOutputs ++
        [pinnedReferenceTree acceptedEffectBaseline.sourcePins.effect effectPinPublication.provenance,
         pinnedReferenceTree acceptedEffectBaseline.sourcePins.tsgo tsgoPinPublication.provenance] := by
  simp only [stableHarnessOutputs, pinnedReferenceOutputs, bind_eq_ok, pure_eq_ok, verifiedProvenance_eq_ok]
  apply Iff.intro
  · intro loaded
    rcases loaded with ⟨_, ⟨_, ⟨effectMatches, rfl⟩, _, ⟨tsgoMatches, rfl⟩, rfl⟩, rfl⟩
    exact ⟨effectMatches, tsgoMatches, rfl⟩
  · intro accepted
    rcases accepted with ⟨effectMatches, tsgoMatches, rfl⟩
    exact ⟨_, ⟨_, ⟨effectMatches, rfl⟩, _, ⟨tsgoMatches, rfl⟩, rfl⟩, rfl⟩

/-- A module that does not load names the first pin whose publication does not match. -/
theorem stableHarnessOutputs_eq_error {message : String}
    (failed : stableHarnessOutputs effectPinPublication tsgoPinPublication = .error message) :
    (¬ effectPinPublication.Matches acceptedEffectBaseline.sourcePins.effect ∧
        message = identityMismatch acceptedEffectBaseline.sourcePins.effect) ∨
      (effectPinPublication.Matches acceptedEffectBaseline.sourcePins.effect ∧
        ¬ tsgoPinPublication.Matches acceptedEffectBaseline.sourcePins.tsgo ∧
        message = identityMismatch acceptedEffectBaseline.sourcePins.tsgo) := by
  rw [stableHarnessOutputs, pinnedReferenceOutputs] at failed
  by_cases effectMatches : effectPinPublication.Matches acceptedEffectBaseline.sourcePins.effect
  · rw [verifiedProvenance_eq_ok.mpr ⟨effectMatches, rfl⟩] at failed
    by_cases tsgoMatches : tsgoPinPublication.Matches acceptedEffectBaseline.sourcePins.tsgo
    · rw [verifiedProvenance_eq_ok.mpr ⟨tsgoMatches, rfl⟩] at failed
      cases failed
    · rw [verifiedProvenance_of_mismatch tsgoMatches] at failed
      cases failed
      exact .inr ⟨effectMatches, tsgoMatches, rfl⟩
  · rw [verifiedProvenance_of_mismatch effectMatches] at failed
    cases failed
    exact .inl ⟨effectMatches, rfl⟩

/-- One of the two places lies in the other. -/
def Locator.Overlaps (first second : Locator) : Prop :=
  first.root = second.root ∧
    (segments first.path <+: segments second.path ∨ segments second.path <+: segments first.path)

instance (first second : Locator) : Decidable (first.Overlaps second) :=
  inferInstanceAs (Decidable (_ ∧ _))

def PlanOutput.place (output : PlanOutput) : String × Locator := (output.id, output.locator)

/-- No two outputs of a plan share an identifier, and none is written into the place of another. -/
theorem outputs_disjoint (loaded : stableHarnessOutputs effectPinPublication tsgoPinPublication = .ok outputs) :
    outputs.Pairwise fun first second => first.id ≠ second.id ∧ ¬ first.locator.Overlaps second.locator := by
  have places : outputs.map PlanOutput.place =
      [("effect.managed", { root := .integrationWorkspace, path := "managed" }),
       ("effect.agent-routing", { root := .controlRoot, path := "AGENTS.md" }),
       ("effect.reference.effect", { root := .integrationWorkspace, path := "repos/effect" }),
       ("effect.reference.tsgo", { root := .integrationWorkspace, path := "repos/tsgo" })] := by
    obtain ⟨-, -, rfl⟩ := stableHarnessOutputs_eq_ok.mp loaded
    rfl
  have apart : (outputs.map PlanOutput.place).Pairwise fun first second =>
      first.1 ≠ second.1 ∧ ¬ first.2.Overlaps second.2 := by
    rw [places]
    decide
  exact List.pairwise_map.mp apart

theorem reference_of_mem (loaded : stableHarnessOutputs effectPinPublication tsgoPinPublication = .ok outputs)
    {id archivePath : String} {locator : Locator}
    (member : .pinnedReferenceTree id archivePath locator provenance ∈ outputs) :
    ∃ identity ∈ acceptedEffectBaseline.pins,
      archivePath = "artifact-assets/effect/reference-archives/" ++ identity.publicationName ++ ".pta" ∧
        locator.path = identity.targetPath := by
  obtain ⟨-, -, rfl⟩ := stableHarnessOutputs_eq_ok.mp loaded
  rcases List.mem_append.mp member with managed | reference
  · simp [managedOutputs] at managed
  · rcases List.mem_cons.mp reference with same | rest
    · cases same
      exact ⟨acceptedEffectBaseline.sourcePins.effect, by decide, rfl, rfl⟩
    · cases List.mem_singleton.mp rest
      exact ⟨acceptedEffectBaseline.sourcePins.tsgo, by decide, rfl, rfl⟩

theorem targetPath_segments : ∀ identity ∈ acceptedEffectBaseline.pins,
    ∃ upper lower, segments identity.targetPath = [upper, lower] ∧ ReferencePair upper lower := by
  intro identity accepted
  rcases List.mem_cons.mp accepted with same | rest
  · exact ⟨"repos".toList, "effect".toList, by rw [same]; decide, by decide⟩
  · exact ⟨"repos".toList, "tsgo".toList, by rw [List.mem_singleton.mp rest]; decide, by decide⟩

/-- A specifier that names something in the place where a plan puts a reference tree is behind the boundary. -/
theorem delivered_content_reported {Scope File : Type} {linter : Linter Scope File} (documented : linter.Documented)
    (loaded : stableHarnessOutputs effectPinPublication tsgoPinPublication = .ok outputs)
    {id archivePath : String} {locator : Locator}
    (member : .pinnedReferenceTree id archivePath locator provenance ∈ outputs) (file : File)
    {declaration : ImportDeclaration} {above inside : List Segment}
    (written : pathSegments (trim declaration.source) = above ++ segments locator.path ++ inside)
    (names : inside ≠ []) : linter.reports effectHarnessEslintConfig file declaration = true := by
  obtain ⟨identity, accepted, -, place⟩ := reference_of_mem loaded member
  obtain ⟨upper, lower, path, pair⟩ := targetPath_segments identity accepted
  have split : pathSegments (trim declaration.source) = above ++ upper :: lower :: inside := by
    rw [written, place, path]
    simp
  rw [effectHarness_reports_iff documented, InReferenceTree, adjacent_dropLast]
  exact ⟨above, upper, lower, inside, split, pair, names⟩

def effectPublication : PinPublication where
  name := "effect"
  provenance :=
    { sourceUrl := "https://github.com/Effect-TS/effect-smol", revision := "f643dbb2", treeDigest := "d797515e" }

def tsgoPublication : PinPublication where
  name := "tsgo"
  provenance :=
    { sourceUrl := "https://github.com/Effect-TS/tsgo", revision := "f0d48a67", treeDigest := "f76adab0" }

theorem delivered_content_reported_in_workspace :
    (reference fun _ _ => true : Linter Unit String).reports effectHarnessEslintConfig "src/main.ts"
      { source := "../.prelude/effect/repos/tsgo/internal/checker.ts" } = true := by
  have loaded : stableHarnessOutputs effectPublication tsgoPublication = .ok
      (managedOutputs ++
        [pinnedReferenceTree acceptedEffectBaseline.sourcePins.effect effectPublication.provenance,
         pinnedReferenceTree acceptedEffectBaseline.sourcePins.tsgo tsgoPublication.provenance]) := rfl
  have written : pathSegments (trim "../.prelude/effect/repos/tsgo/internal/checker.ts") =
      ["..".toList, ".prelude".toList, "effect".toList] ++ segments "repos/tsgo" ++
        ["internal".toList, "checker.ts".toList] := by
    decide
  exact delivered_content_reported (reference_documented fun _ _ => true) loaded
    (List.mem_append_right managedOutputs (List.mem_cons_of_mem _ List.mem_cons_self)) "src/main.ts" written
    (List.cons_ne_nil _ _)

end EffectHarness
