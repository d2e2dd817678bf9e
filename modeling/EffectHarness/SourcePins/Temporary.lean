import EffectHarness.Scripts.Finally
import EffectHarness.SourcePins.Publishing

namespace EffectHarness.SourcePins

open Git Scripts

/-- The part of a round that works in the temporary directory. -/
def comparePin (subprocesses : Subprocesses) (root : Repository) (pin : Pin) : Except GateError Unit := do
  let clone ← expect (subprocesses.gitClone pin root) (.commandFailed "git clone")
  let clone ← expect (subprocesses.gitCheckout pin clone) (.commandFailed "git checkout")
  let archive := ".source-pin-verification/" ++ pin.name ++ ".pta"
  let provenance := ".source-pin-verification/" ++ pin.name ++ ".json"
  let publication ← expect (subprocesses.pinPublish clone.worktree pin pin.contract)
    (.commandFailed "partita pin publish")
  let output := writeFile (writeFile clone.worktree archive publication.archive) provenance publication.provenance
  require (deepEqualFiles (readFile output archive) (readFile root.worktree (archivePath pin)))
    (.stale ("Tracked " ++ pin.name ++ " Source Pin archive is stale"))
  require (deepEqualFiles (readFile output provenance) (readFile root.worktree (provenancePath pin)))
    (.stale ("Tracked " ++ pin.name ++ " Source Pin provenance is stale"))

/-- The temporary directory of a round, and whether it can be removed. -/
structure Temporary where
  made : Option String
  removes : Bool

def temporaryError : GateError := .commandFailed "mkdtempSync"

def removalError : GateError := .commandFailed "rmSync"

/-- A round of the loop on the temporary directories of the machine. -/
def verifyPinIn (subprocesses : Subprocesses) (root : Repository) (temporary : Temporary) (pin : Pin) :
    EStateM GateError (List String) Unit := do
  require (subprocesses.pinVerify root pin pin.contract) (GateError.commandFailed "partita pin verify")
  let temporaryRoot ← expect temporary.made temporaryError
  modify (temporaryRoot :: ·)
  tryFinally (lift (comparePin subprocesses root pin)) do
    require temporary.removes removalError
    modify (·.filter (· != temporaryRoot))

def verifySourcePinsIn (subprocesses : Subprocesses) (root : Repository) (temporary : Pin → Temporary) :
    EStateM GateError (List String) Unit := do
  forM pins fun pin => verifyPinIn subprocesses root (temporary pin) pin
  require (subprocesses.gitDiff root diffPaths) (GateError.commandFailed "git diff")

variable {subprocesses : Subprocesses} {root : Repository} {pin : Pin} {temporary : Temporary}
  {directories : List String} {name : String}

theorem verifyPin_eq_comparePin :
    verifyPin subprocesses root pin =
      (require (subprocesses.pinVerify root pin pin.contract) (.commandFailed "partita pin verify") >>= fun _ =>
        comparePin subprocesses root pin) := rfl

theorem filter_made (fresh : name ∉ directories) : (name :: directories).filter (· != name) = directories := by
  have others : directories.filter (· != name) = directories := by
    rw [List.filter_eq_self]
    intro other member
    have apart : other ≠ name := by
      intro same
      rw [same] at member
      exact fresh member
    simpa using apart
  simpa using others

/-- A round removes the directory that it made, whether or not the comparison gets to its end. -/
theorem verifyPinIn_eq (made : temporary.made = some name) (fresh : name ∉ directories)
    (removes : temporary.removes = true) :
    verifyPinIn subprocesses root temporary pin directories = lift (verifyPin subprocesses root pin) directories := by
  rw [verifyPin_eq_comparePin, lift_bind, lift_bind_apply, verifyPinIn]
  simp only [lift_eq, lift_bind_apply]
  cases require (subprocesses.pinVerify root pin pin.contract) (GateError.commandFailed "partita pin verify") with
  | error error => rfl
  | ok value =>
    have cleaned : (lift (require temporary.removes removalError) >>= fun _ =>
        modify (·.filter (· != name)) : EStateM GateError (List String) PUnit) (name :: directories) =
          .ok () directories := by
      rw [lift_bind_apply, removes]
      exact congrArg (EStateM.Result.ok ()) (filter_made fresh)
    dsimp only
    simp only [made, expect]
    rw [modify_bind_apply, tryFinally_apply, lift_apply]
    cases comparePin subprocesses root pin with
    | ok value =>
      dsimp only
      rw [cleaned]
      rfl
    | error error =>
      dsimp only
      rw [cleaned]
      rfl

/-- Where the temporary directories can be made and removed, the gate ends as the comparison of the pins says, and leaves
    none of them behind, also where it fails. -/
theorem temporaries_removed (subprocesses : Subprocesses) (root : Repository) (temporary : Pin → Temporary)
    (directories : List String) (removes : ∀ pin ∈ pins, (temporary pin).removes = true)
    (made : ∀ pin ∈ pins, ∃ name, (temporary pin).made = some name ∧ name ∉ directories) :
    verifySourcePinsIn subprocesses root temporary directories =
      lift (verifySourcePins subprocesses root) directories := by
  have loop : ∀ rest : List Pin, (∀ pin ∈ rest, pin ∈ pins) →
      forM rest (fun pin => verifyPinIn subprocesses root (temporary pin) pin) directories =
        lift (forM rest (verifyPin subprocesses root)) directories := by
    intro rest listed
    induction rest with
    | nil => rfl
    | cons pin rest ih =>
      obtain ⟨first, others⟩ := List.forall_mem_cons.mp listed
      obtain ⟨name, named, fresh⟩ := made pin first
      rw [List.forM_cons, List.forM_cons, lift_bind, bind_apply, bind_apply,
        verifyPinIn_eq named fresh (removes pin first), lift_apply]
      cases verifyPin subprocesses root pin with
      | error error => rfl
      | ok value => exact ih others
  rw [verifySourcePinsIn, verifySourcePins, lift_bind, bind_apply, bind_apply, loop pins fun _ member => member]
  rfl

def inTmpdir (pin : Pin) : Temporary where
  made := some ("/tmp/effect-harness-source-pins-" ++ pin.name)
  removes := true

theorem temporaries_removed_after_stale_provenance :
    verifySourcePinsIn succeeding staleProvenance inTmpdir [] =
      .error (.stale "Tracked tsgo Source Pin provenance is stale") [] :=
  (temporaries_removed succeeding staleProvenance inTmpdir [] (fun _ _ => rfl) fun _ _ =>
    ⟨_, rfl, List.not_mem_nil⟩).trans rfl

end EffectHarness.SourcePins
