import EffectHarness.SourcePins.Gate

namespace EffectHarness.SourcePins

open Git Scripts

variable {subprocesses : Subprocesses} {root published : Repository} {pin : Pin}

/-- What the comparison says about the tracked publication of a pin, next to a fresh one. -/
def staleness (tree : Tree) (pin : Pin) (fresh : Publication) : Option GateError :=
  if readFile tree (archivePath pin) ≠ some fresh.archive then
    some (.stale ("Tracked " ++ pin.name ++ " Source Pin archive is stale"))
  else if readFile tree (provenancePath pin) ≠ some fresh.provenance then
    some (.stale ("Tracked " ++ pin.name ++ " Source Pin provenance is stale"))
  else none

theorem deepEqualFiles_some (bytes : Bytes) (file : Option Bytes) :
    deepEqualFiles (some bytes) file = decide (file = some bytes) := by
  cases file with
  | none => rfl
  | some other => simp [deepEqualFiles, eq_comm, Bool.beq_eq_decide_eq]

theorem verifyPin_eq {fresh : Publication} (documented : subprocesses.Documented)
    (publishes : Publishes subprocesses root pin fresh) :
    verifyPin subprocesses root pin = report (staleness root.worktree pin fresh) := by
  rcases publishes with ⟨accepted, ⟨clone, checkout, cloned, checkedOut⟩, made⟩
  rw [← documented.clone pin root clone cloned, ← documented.checkout pin clone checkout checkedOut] at made
  have apart := archive_ne_provenance ".source-pin-verification/" pin.name
  simp only [verifyPin, accepted, cloned, checkedOut, made, require, expect, ↓reduceIte, bind, Except.bind,
    readFile_writeFile, readFile_writeFile_of_ne _ _ apart, deepEqualFiles_some, decide_eq_true_eq, staleness]
  by_cases archive : readFile root.worktree (archivePath pin) = some fresh.archive
  · by_cases provenance : readFile root.worktree (provenancePath pin) = some fresh.provenance
    · simp [archive, provenance, report]
    · simp [archive, provenance, report]
  · simp [archive, report]

/-- Once every command succeeds, the gate ends with the first pin whose tracked archive or provenance is stale, then with
    what `git diff` has to show. -/
theorem gate_diagnosis (documented : subprocesses.Documented) (root : Repository) (fresh : Pin → Publication)
    (publishes : ∀ pin ∈ pins, Publishes subprocesses root pin (fresh pin)) :
    verifySourcePins subprocesses root =
      match pins.findSome? fun pin => staleness root.worktree pin (fresh pin) with
      | some error => .error error
      | none => if diffPaths.any (shown root) then .error (.commandFailed "git diff") else .ok () := by
  have loop := forM_eq_findSome fun pin member => verifyPin_eq documented (publishes pin member)
  rw [verifySourcePins, loop]
  cases pins.findSome? fun pin => staleness root.worktree pin (fresh pin) with
  | some error => rfl
  | none =>
    have same : subprocesses.gitDiff root diffPaths = !diffPaths.any (shown root) := by
      rw [Bool.eq_iff_iff, documented.diff]
      simp
    simp only [bind, Except.bind, same, require]
    cases diffPaths.any (shown root) <;> rfl

def staleProvenance : Repository :=
  { committedClean with
    worktree := writeFile committedClean.worktree "artifact-assets/effect/reference-archives/tsgo.json" [8] }

theorem gate_diagnosis_of_stale_provenance :
    verifySourcePins succeeding staleProvenance = .error (.stale "Tracked tsgo Source Pin provenance is stale") :=
  gate_diagnosis succeeding_documented staleProvenance (fun _ => { archive := [7], provenance := [7] }) fun _ _ =>
    ⟨rfl, ⟨_, _, rfl, rfl⟩, rfl⟩

end EffectHarness.SourcePins
