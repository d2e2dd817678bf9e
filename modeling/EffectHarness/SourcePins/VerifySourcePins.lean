import EffectHarness.Git.Repository
import EffectHarness.Scripts.Guards

namespace EffectHarness.SourcePins

open Git Scripts

structure Pin where
  name : String
  subtreePrefix : String
  deriving DecidableEq

def pins : List Pin :=
  [{ name := "effect", subtreePrefix := "repos/effect" }, { name := "tsgo", subtreePrefix := "repos/tsgo" }]

def Pin.contract (pin : Pin) : String := pin.subtreePrefix ++ ".subtree.json"

structure Publication where
  archive : Bytes
  provenance : Bytes
  deriving DecidableEq

/-- The subprocesses of the script. Each of them may fail, for every pin on its own; a publication is a
    function of the tree it is made from. -/
structure Subprocesses where
  pinVerify : Repository → Pin → (contract : String) → Bool
  gitClone : Pin → Repository → Option Repository
  gitCheckout : Pin → Repository → Option Repository
  pinPublish : Tree → Pin → (contract : String) → Option Publication
  gitDiff : Repository → List String → Bool

/-- `git clone` and `git checkout --detach HEAD` reproduce the last commit, and `git diff --exit-code HEAD`
    exits with zero when it has nothing to show. -/
structure Subprocesses.Documented (subprocesses : Subprocesses) : Prop where
  clone : ∀ pin root clone, subprocesses.gitClone pin root = some clone → clone.head = root.head
  checkout : ∀ pin clone checkout, subprocesses.gitCheckout pin clone = some checkout →
    checkout.worktree = clone.head
  diff : ∀ root paths, subprocesses.gitDiff root paths = true ↔ ∀ path ∈ paths, shown root path = false

inductive GateError
  | commandFailed (command : String)
  | stale (message : String)
  deriving DecidableEq

def deepEqualFiles (actual expected : Option Bytes) : Bool :=
  match actual, expected with
  | some actual, some expected => actual == expected
  | _, _ => false

@[simp] theorem deepEqualFiles_iff {actual expected : Option Bytes} :
    deepEqualFiles actual expected = true ↔ ∃ bytes, actual = some bytes ∧ expected = some bytes := by
  cases actual with
  | none => simp [deepEqualFiles]
  | some actual =>
    cases expected with
    | none => simp [deepEqualFiles]
    | some expected => simpa [deepEqualFiles] using eq_comm

def archivePath (pin : Pin) : String := "artifact-assets/effect/reference-archives/" ++ pin.name ++ ".pta"

def provenancePath (pin : Pin) : String := "artifact-assets/effect/reference-archives/" ++ pin.name ++ ".json"

/-- One round of the loop, against a fresh clone that is thrown away afterwards. -/
def verifyPin (subprocesses : Subprocesses) (root : Repository) (pin : Pin) : Except GateError Unit := do
  require (subprocesses.pinVerify root pin pin.contract) (.commandFailed "partita pin verify")
  let clone ← expect (subprocesses.gitClone pin root) (.commandFailed "git clone")
  let clone ← expect (subprocesses.gitCheckout pin clone) (.commandFailed "git checkout")
  let archive := ".source-pin-verification/" ++ pin.name ++ ".pta"
  let provenance := ".source-pin-verification/" ++ pin.name ++ ".json"
  let publication ← expect (subprocesses.pinPublish clone.worktree pin pin.contract)
    (.commandFailed "partita pin publish")
  let output := writeFile (writeFile clone.worktree archive publication.archive) provenance publication.provenance
  require (deepEqualFiles (readFile output archive) (readFile root.worktree (archivePath pin)))
    (.stale ("Tracked " ++ pin.name ++ " Source Pin archive is stale"))
  require (deepEqualFiles (readFile output provenance) (readFile root.worktree (provenancePath pin)))
    (.stale ("Tracked " ++ pin.name ++ " Source Pin provenance is stale"))

def diffPaths : List String :=
  ["artifact-assets/effect/reference-archives/effect.pta",
   "artifact-assets/effect/reference-archives/effect.json",
   "artifact-assets/effect/reference-archives/tsgo.pta",
   "artifact-assets/effect/reference-archives/tsgo.json"]

def verifySourcePins (subprocesses : Subprocesses) (root : Repository) : Except GateError Unit := do
  forM pins (verifyPin subprocesses root)
  require (subprocesses.gitDiff root diffPaths) (.commandFailed "git diff")

theorem diffPaths_eq : diffPaths = pins.flatMap fun pin => [archivePath pin, provenancePath pin] := by
  decide

end EffectHarness.SourcePins
