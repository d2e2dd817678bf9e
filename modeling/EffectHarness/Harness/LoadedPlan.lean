import EffectHarness.Harness.ModulePlan
import EffectHarness.SourcePins.Gate

namespace EffectHarness

open Git Scripts SourcePins

inductive LoadError
  | unreadable (path : String)
  | mismatch (message : String)

def publicationPath (name : String) : String := "artifact-assets/effect/reference-archives/" ++ name ++ ".json"

/-- An import of a JSON file; what reads the bytes is left open. -/
def importJson (json : Bytes → Option PinPublication) (tree : Tree) (path : String) :
    Except LoadError PinPublication :=
  expect ((readFile tree path).bind json) (.unreadable path)

/-- Loading the module from a checkout of the repository. -/
def loadPlan (json : Bytes → Option PinPublication) (tree : Tree) : Except LoadError (List PlanOutput) := do
  let effectPinPublication ← importJson json tree "artifact-assets/effect/reference-archives/effect.json"
  let tsgoPinPublication ← importJson json tree "artifact-assets/effect/reference-archives/tsgo.json"
  (stableHarnessOutputs effectPinPublication tsgoPinPublication).mapError .mismatch

variable {json : Bytes → Option PinPublication} {tree : Tree} {path : String} {publication : PinPublication}
  {outputs : List PlanOutput} {subprocesses : Subprocesses} {root : Repository}

theorem importJson_eq_ok :
    importJson json tree path = .ok publication ↔
      ∃ bytes, readFile tree path = some bytes ∧ json bytes = some publication := by
  rw [importJson, expect_eq_ok, Option.bind_eq_some_iff]

theorem mapError_eq_ok {ε ε' α : Type} {describe : ε → ε'} {result : Except ε α} {value : α} :
    result.mapError describe = .ok value ↔ result = .ok value := by
  cases result <;> simp [Except.mapError]

/-- A reference tree of the plan comes from the publication file of one accepted pin. -/
theorem tree_of_loaded (loaded : loadPlan json tree = .ok outputs) {id archivePath : String} {locator : Locator}
    {provenance : Provenance} (member : .pinnedReferenceTree id archivePath locator provenance ∈ outputs) :
    ∃ identity ∈ acceptedEffectBaseline.pins, ∃ publication,
      importJson json tree (publicationPath identity.publicationName) = .ok publication ∧
        publication.Matches identity ∧
        .pinnedReferenceTree id archivePath locator provenance =
          pinnedReferenceTree identity publication.provenance := by
  simp only [loadPlan, bind_eq_ok, mapError_eq_ok, stableHarnessOutputs_eq_ok] at loaded
  obtain ⟨effect, fromEffect, tsgo, fromTsgo, effectMatches, tsgoMatches, rfl⟩ := loaded
  rcases List.mem_append.mp member with managed | reference
  · simp [managedOutputs] at managed
  · rcases List.mem_cons.mp reference with same | rest
    · exact ⟨_, List.mem_cons_self, effect, fromEffect, effectMatches, same⟩
    · exact ⟨_, List.mem_cons_of_mem _ List.mem_cons_self, tsgo, fromTsgo, tsgoMatches, List.mem_singleton.mp rest⟩

/-- The pins of the gate are the accepted ones, each with the subtree that is delivered to the same path. -/
theorem pin_of_accepted : ∀ identity ∈ acceptedEffectBaseline.pins,
    ∃ pin ∈ pins, pin.name = identity.publicationName ∧ pin.subtreePrefix = identity.targetPath := by
  decide

/-- What a plan delivers once the gate has passed is what a clean checkout of the last commit publishes: the archive
    byte for byte, and the provenance of the publication made beside it. -/
theorem delivered_tree_current (documented : subprocesses.Documented) (json : Bytes → Option PinPublication)
    (root : Repository) (passes : verifySourcePins subprocesses root = .ok ())
    (loaded : loadPlan json root.worktree = .ok outputs) {id file : String} {locator : Locator}
    {provenance : Provenance} (member : .pinnedReferenceTree id file locator provenance ∈ outputs) :
    ∃ pin ∈ pins, ∃ fresh, Publishes subprocesses root pin fresh ∧ locator.path = pin.subtreePrefix ∧
      readFile root.worktree file = some fresh.archive ∧
      ∃ publication, json fresh.provenance = some publication ∧ publication.name = pin.name ∧
        publication.provenance = provenance := by
  obtain ⟨published, -⟩ := (verifySourcePins_eq_ok_iff documented root).mp passes
  obtain ⟨identity, accepted, publication, imported, matched, same⟩ := tree_of_loaded loaded member
  obtain ⟨pin, listed, name, place⟩ := pin_of_accepted identity accepted
  obtain ⟨fresh, publishes, archive, onDisk⟩ := published pin listed
  obtain ⟨bytes, read, parsed⟩ := importJson_eq_ok.mp imported
  have sameFile : provenancePath pin = publicationPath identity.publicationName := congrArg publicationPath name
  have sameArchive : archivePath pin =
      "artifact-assets/effect/reference-archives/" ++ identity.publicationName ++ ".pta" :=
    congrArg (fun name => "artifact-assets/effect/reference-archives/" ++ name ++ ".pta") name
  have sameBytes : some bytes = some fresh.provenance := by
    rw [← read, ← sameFile, onDisk]
  rw [pinnedReferenceTree, PlanOutput.pinnedReferenceTree.injEq] at same
  obtain ⟨-, rfl, rfl, rfl⟩ := same
  refine ⟨pin, listed, fresh, publishes, place.symm, ?_, publication, ?_, matched.1.trans name.symm, rfl⟩
  · rw [← sameArchive]
    exact archive
  · rw [← Option.some.inj sameBytes]
    exact parsed

def publishedByName : Subprocesses :=
  { succeeding with
    pinPublish := fun _ pin _ => some { archive := [7], provenance := if pin.name = "effect" then [1] else [2] } }

theorem publishedByName_documented : publishedByName.Documented where
  clone := succeeding_documented.clone
  checkout := succeeding_documented.checkout
  diff := succeeding_documented.diff

def publishedTree : Tree := fun path =>
  if path = "artifact-assets/effect/reference-archives/effect.json" then some { mode := .regular, bytes := [1] }
  else if path = "artifact-assets/effect/reference-archives/tsgo.json" then some { mode := .regular, bytes := [2] }
  else neverCommitted.worktree path

def publishedRoot : Repository where
  head := publishedTree
  index := publishedTree
  worktree := publishedTree

def publicationJson (bytes : Bytes) : Option PinPublication :=
  if bytes = [1] then some effectPublication else if bytes = [2] then some tsgoPublication else none

theorem delivered_tree_current_of_published :
    ∃ pin ∈ pins, ∃ fresh, Publishes publishedByName publishedRoot pin fresh ∧ "repos/tsgo" = pin.subtreePrefix ∧
      readFile publishedTree "artifact-assets/effect/reference-archives/tsgo.pta" = some fresh.archive ∧
      ∃ publication, publicationJson fresh.provenance = some publication ∧ publication.name = pin.name ∧
        publication.provenance = tsgoPublication.provenance :=
  delivered_tree_current publishedByName_documented publicationJson publishedRoot rfl rfl
    (List.mem_append_right managedOutputs (List.mem_cons_of_mem _ List.mem_cons_self))

end EffectHarness
