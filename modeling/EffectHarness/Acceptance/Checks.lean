import EffectHarness.Acceptance.RunRoot
import EffectHarness.Scripts.Guards

namespace EffectHarness.Acceptance

open Schema Scripts

inductive RunError
  | error (message : String)
  | assertion (message : Option String)
  | typeError
  | syntaxError
  | schemaError
  | notFound (path : String)
  | writeFailed (path : String)
  deriving DecidableEq

inductive Phase
  | prepare
  | apply
  deriving DecidableEq

def Phase.text : Phase → String
  | prepare => "prepare"
  | apply => "apply"

/-- A finished child process, whose status is missing where a signal ended it. -/
structure Spawned (Output : Type) where
  status : Option Nat
  stdout : Output
  stderr : String

abbrev SpawnResult := Spawned String

def Spawned.succeeds {Output : Type} (result : Spawned Output) : Bool := result.status == some 0

def run (command : String) (args : List String) (result : SpawnResult) : Except RunError Unit :=
  let status := match result.status with
    | some status => toString status
    | none => "unknown"
  require result.succeeds (.error (command ++ " " ++ " ".intercalate args ++ " failed with status " ++ status))

def assert (condition : Bool) (message : Option String) : Except RunError Unit :=
  require condition (.assertion message)

def output {Output : Type} (command : String) (result : Spawned Output) : Except RunError Output := do
  assert result.succeeds (some (if result.stderr = "" then command ++ " failed" else result.stderr))
  return result.stdout

def runText (command : String) (result : Spawned (List String)) : Except RunError (List String) :=
  output command result

def runBytes {Content : Type} (command : String) (result : Spawned Content) : Except RunError Content :=
  output command result

def parseJson (text : JsonText) : Except RunError Json := expect text .syntaxError

/-- A property of a parsed value, where reading it from `null` throws. -/
def property (json : Json) (key : String) : Except RunError (Option Json) :=
  match json with
  | .null => throw .typeError
  | .obj pairs => return pairs.lookup key
  | _ => return none

/-- `Object.keys`; the indices of texts and arrays play no part. -/
def objectKeys (json : Option Json) : Except RunError (List String) :=
  match json with
  | none | some .null => throw .typeError
  | some (.obj pairs) => return pairs.map Prod.fst
  | _ => return []

def isText (json : Option Json) (text : String) : Bool :=
  match json with
  | some (.str actual) => actual == text
  | _ => false

def isBool (json : Option Json) (value : Bool) : Bool :=
  match json with
  | some (.bool actual) => actual == value
  | _ => false

def isRecord (json : Option Json) (expected : List (String × String)) : Bool :=
  match json with
  | some (.obj pairs) =>
    pairs.length == expected.length && expected.all fun entry => isText (pairs.lookup entry.1) entry.2
  | _ => false

def assertRepository (root : Location) (expectedName : String) (manifest : Option JsonText) :
    Except RunError Unit := do
  let text ← expect manifest (.assertion (some ("Missing repository manifest: " ++ root.text ++ "/package.json")))
  let name ← property (← parseJson text) "name"
  assert (isText name expectedName) (some ("Unexpected package at " ++ root.text))

structure Verification where
  partitaCode : SpawnResult
  partitaAggregate : SpawnResult
  prelude : SpawnResult
  harness : SpawnResult

def verifyRepositories (phase : Phase) (verification : Verification) : Except RunError Unit := do
  run "pnpm" ["verify:code"] verification.partitaCode
  match phase with
  | .prepare =>
    let partitaAggregate := verification.partitaAggregate
    let output := partitaAggregate.stdout ++ "\n" ++ partitaAggregate.stderr
    let drifts := output.toList.tails.any fun rest => "Integration drift".toList.isPrefixOf rest
    assert (partitaAggregate.succeeds || drifts) none
  | .apply => run "pnpm" ["verify"] verification.partitaAggregate
  run "pnpm" ["verify"] verification.prelude
  run "pnpm" ["verify"] verification.harness

variable {Content : Type}

structure Publishing where
  pinVerify : SpawnResult
  pinPublish : SpawnResult

def relativeToHarness (site : Site) (path : String) : Except RunError String :=
  match site.harnessRoot.below path with
  | some relative => return String.ofList relative
  | none => throw (.assertion (some ("Path escapes Effect Harness: " ++ path)))

def publishFixture (site : Site) (partita : String) (publicationRoot : Location) (outputName : String)
    (publishing : Publishing) : Except RunError Unit := do
  let harnessRoot := site.harnessRoot.text
  run partita ["pin", "verify", "--root", harnessRoot, "--name", "tsgo"] publishing.pinVerify
  let archive ← relativeToHarness site (publicationRoot.text ++ "/" ++ outputName ++ ".pta")
  let provenance ← relativeToHarness site (publicationRoot.text ++ "/" ++ outputName ++ ".json")
  run partita
    ["pin", "publish", "--root", harnessRoot, "--name", "tsgo", "--archive", archive, "--provenance", provenance]
    publishing.pinPublish

abbrev Files (Content : Type) := String → Option Content

def readFileSync (files : Files Content) (path : String) : Except RunError Content :=
  expect (files path) (.notFound path)

def assertPublicationDeterminism [DecidableEq Content] (files : Files Content) (publicationRoot : Location) :
    Except RunError Unit := do
  let root := publicationRoot.text
  let firstArchive ← readFileSync files (root ++ "/first.pta")
  let secondArchive ← readFileSync files (root ++ "/second.pta")
  assert (firstArchive == secondArchive) (some "Partita archive publication must be byte-identical")
  let firstProvenance ← readFileSync files (root ++ "/first.json")
  let secondProvenance ← readFileSync files (root ++ "/second.json")
  assert (firstProvenance == secondProvenance) (some "Partita provenance publication must be byte-identical")

structure Tools (Content : Type) where
  sha256 : Content → String
  parse : Content → JsonText

/-- What `tar` shows of the packed Harness: its entries, line by line, and the bytes of each. -/
structure TarOutcomes (Content : Type) where
  list : Spawned (List String)
  extract : String → Spawned Content

def managedEntries : List String :=
  ["package/artifact-assets/effect/managed/data/baseline.json",
   "package/artifact-assets/effect/managed/data/tsgo-policy.json",
   "package/artifact-assets/effect/managed/skills/adapt-effect-target/SKILL.md",
   "package/artifact-assets/effect/managed/skills/adapt-effect-target/agents/openai.yaml"]

def referenceEntries : List String :=
  ["package/artifact-assets/effect/managed/docs/index.md",
   "package/artifact-assets/effect/reference-archives/effect.pta",
   "package/artifact-assets/effect/reference-archives/effect.json",
   "package/artifact-assets/effect/reference-archives/tsgo.pta",
   "package/artifact-assets/effect/reference-archives/tsgo.json"]

def assertEntries (entries : List String) : Except RunError Unit := do
  forM managedEntries fun path => assert (entries.contains path) (some ("Packed Harness is missing " ++ path))
  forM referenceEntries fun path => assert (entries.contains path) none
  assert (!entries.any fun entry => entry.startsWith "package/repos/") none
  assert (!entries.any fun entry => entry.startsWith "package/diagnostics/") none

def assertExports (manifest : Json) : Except RunError Unit := do
  let keys ← objectKeys (← property manifest "exports")
  assert (keys == ["./prelude", "./eslint"]) none

def assertBaseline (baseline : Json) : Except RunError Unit := do
  let versions ← property baseline "versions"
  assert (isRecord versions
    [("effect", "4.0.0-beta.97"), ("tsgo", "0.19.0"), ("typescript", "6.0.2"), ("nativeTypescript", "7.0.2")]) none
  let typescriptTopology ← property baseline "typescriptTopology"
  assert (isRecord typescriptTopology
    [("primaryCompiler", "nativeTypescript"), ("effectSemanticAuthority", "tsgo"),
     ("compilerApiCompatibility", "typescript")]) none

def assertPolicy (policy : Json) : Except RunError Unit := do
  assert (isText (← property policy "name") "@effect/language-service") none
  forM
    [("diagnostics", true), ("includeSuggestionsInTsc", true), ("ignoreEffectSuggestionsInTscExitCode", false),
     ("ignoreEffectWarningsInTscExitCode", false), ("ignoreEffectErrorsInTscExitCode", false)]
    fun setting => do assert (isBool (← property policy setting.1) setting.2) none

def assertHarnessArtifact [DecidableEq Content] (site : Site) (tools : Tools Content) (files : Files Content)
    (tar : TarOutcomes Content) (publicationRoot : Location) : Except RunError Unit := do
  let entries ← runText "tar" tar.list
  assertExports (← parseJson (tools.parse (← runBytes "tar" (tar.extract "package/package.json"))))
  assertEntries entries
  let baselinePath := "artifact-assets/effect/managed/data/baseline.json"
  let policyPath := "artifact-assets/effect/managed/data/tsgo-policy.json"
  let baselineBytes ← runBytes "tar" (tar.extract ("package/" ++ baselinePath))
  let policyBytes ← runBytes "tar" (tar.extract ("package/" ++ policyPath))
  assert (baselineBytes == (← readFileSync files (site.harnessRoot.text ++ "/" ++ baselinePath))) none
  assert (policyBytes == (← readFileSync files (site.harnessRoot.text ++ "/" ++ policyPath))) none
  assertBaseline (← parseJson (tools.parse baselineBytes))
  assertPolicy (← parseJson (tools.parse policyBytes))
  let skillPath := "artifact-assets/effect/managed/skills/adapt-effect-target/SKILL.md"
  let skillBytes ← runBytes "tar" (tar.extract ("package/" ++ skillPath))
  assert (skillBytes == (← readFileSync files (site.harnessRoot.text ++ "/" ++ skillPath))) none
  let archive ← runBytes "tar" (tar.extract "package/artifact-assets/effect/reference-archives/tsgo.pta")
  assert (archive == (← readFileSync files (publicationRoot.text ++ "/first.pta")))
    (some "Harness tarball must carry the archive published by packed Partita")
  let provenance ← runBytes "tar" (tar.extract "package/artifact-assets/effect/reference-archives/tsgo.json")
  assert (provenance == (← readFileSync files (publicationRoot.text ++ "/first.json")))
    (some "Harness tarball must carry the provenance published by packed Partita")

end EffectHarness.Acceptance
