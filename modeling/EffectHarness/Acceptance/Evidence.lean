import EffectHarness.Schema.Codec

namespace EffectHarness.Acceptance

open Schema

/-- One value for each of the four tarballs. -/
structure Packed (α : Type) where
  contractTarball : α
  partitaTarball : α
  harnessTarball : α
  preludeTarball : α

abbrev PackedInputs := Packed String

inductive ArtifactName
  | contractTarball
  | partitaTarball
  | harnessTarball
  | preludeTarball
  deriving DecidableEq

def ArtifactName.text : ArtifactName → String
  | contractTarball => "contractTarball"
  | partitaTarball => "partitaTarball"
  | harnessTarball => "harnessTarball"
  | preludeTarball => "preludeTarball"

namespace Packed

variable {α β : Type} {m : Type → Type} [Monad m]

def get (packed : Packed α) : ArtifactName → α
  | .contractTarball => packed.contractTarball
  | .partitaTarball => packed.partitaTarball
  | .harnessTarball => packed.harnessTarball
  | .preludeTarball => packed.preludeTarball

def ofFn (value : ArtifactName → α) : Packed α where
  contractTarball := value .contractTarball
  partitaTarball := value .partitaTarball
  harnessTarball := value .harnessTarball
  preludeTarball := value .preludeTarball

def collect (visit : ArtifactName → m α) : m (Packed α) := do
  let contractTarball ← visit .contractTarball
  let partitaTarball ← visit .partitaTarball
  let harnessTarball ← visit .harnessTarball
  let preludeTarball ← visit .preludeTarball
  return { contractTarball, partitaTarball, harnessTarball, preludeTarball }

@[simp] theorem get_ofFn (value : ArtifactName → α) (name : ArtifactName) :
    (ofFn value).get name = value name := by
  cases name <;> rfl

def schema (artifact : Codec α) : Codec (Packed α) :=
  let properties := (Properties.single "contractTarball" artifact).both <|
    (Properties.single "partitaTarball" artifact).both <|
      (Properties.single "harnessTarball" artifact).both (Properties.single "preludeTarball" artifact)
  (properties.strict (by decide)).map {
    toFun := fun (contractTarball, partitaTarball, harnessTarball, preludeTarball) =>
      { contractTarball, partitaTarball, harnessTarball, preludeTarball }
    invFun := fun packed =>
      (packed.contractTarball, packed.partitaTarball, packed.harnessTarball, packed.preludeTarball)
    left_inv := fun _ => rfl
    right_inv := fun _ => rfl }

end Packed

structure PackedArtifact where
  path : String
  sha256 : String

def packedArtifactSchema : Codec PackedArtifact :=
  let properties := (Properties.single "path" Codec.string).both (Properties.single "sha256" Codec.string)
  (properties.strict (by decide)).map {
    toFun := fun (path, sha256) => { path, sha256 }
    invFun := fun artifact => (artifact.path, artifact.sha256)
    left_inv := fun _ => rfl
    right_inv := fun _ => rfl }

/-- The content of `packed-inputs.prepare.json`, of which the schema fixes version and phase. -/
structure PackedInputsEvidence where
  runRoot : String
  artifacts : Packed PackedArtifact

def packedInputsEvidenceSchema : Codec PackedInputsEvidence :=
  let properties := (Properties.single "schemaVersion" (Codec.number.literal 1)).both <|
    (Properties.single "phase" (Codec.string.literal "PREPARE")).both <|
      (Properties.single "runRoot" Codec.string).both
        (Properties.single "artifacts" (Packed.schema packedArtifactSchema))
  (properties.strict (by decide)).map {
    toFun := fun (_, _, runRoot, artifacts) => { runRoot, artifacts }
    invFun := fun evidence => ((), (), evidence.runRoot, evidence.artifacts)
    left_inv := fun _ => rfl
    right_inv := fun _ => rfl }

end EffectHarness.Acceptance
