import EffectHarness.SourcePins.VerifySourcePins
import Mathlib.Tactic.ByContra

namespace EffectHarness.SourcePins

open Git Scripts

def Publishes (subprocesses : Subprocesses) (root : Repository) (pin : Pin) (publication : Publication) : Prop :=
  subprocesses.pinVerify root pin pin.contract = true ∧
    (∃ clone checkout, subprocesses.gitClone pin root = some clone ∧
      subprocesses.gitCheckout pin clone = some checkout) ∧
    subprocesses.pinPublish root.head pin pin.contract = some publication

def Carries (tree : Tree) (pin : Pin) (publication : Publication) : Prop :=
  readFile tree (archivePath pin) = some publication.archive ∧
    readFile tree (provenancePath pin) = some publication.provenance

/-- What the gate stands for: the last commit and the disk both carry what a clean checkout of the last
    commit publishes. -/
def Committed (subprocesses : Subprocesses) (root : Repository) : Prop :=
  ∀ pin ∈ pins, ∃ publication, Publishes subprocesses root pin publication ∧
    Carries root.head pin publication ∧ Carries root.worktree pin publication

def WorktreePublished (subprocesses : Subprocesses) (root : Repository) : Prop :=
  ∀ pin ∈ pins, ∃ publication, Publishes subprocesses root pin publication ∧ Carries root.worktree pin publication

theorem archive_ne_provenance (directory name : String) :
    directory ++ name ++ ".pta" ≠ directory ++ name ++ ".json" := by
  intro same
  have characters := congrArg String.toList same
  simp only [String.toList_append] at characters
  exact absurd (List.append_cancel_left characters) (by decide)

theorem verifyPin_eq_ok_iff {subprocesses : Subprocesses} (documented : subprocesses.Documented)
    (root : Repository) (pin : Pin) :
    verifyPin subprocesses root pin = .ok () ↔
      ∃ publication, Publishes subprocesses root pin publication ∧ Carries root.worktree pin publication := by
  have apart := archive_ne_provenance ".source-pin-verification/" pin.name
  simp only [verifyPin, bind_eq_ok, require_eq_ok, expect_eq_ok, deepEqualFiles_iff, readFile_writeFile,
    readFile_writeFile_of_ne _ _ apart]
  apply Iff.intro
  · intro passed
    obtain ⟨_, accepted, clone, cloned, checkout, checkedOut, publication, published, _,
      ⟨archive, freshArchive, onDisk⟩, provenance, freshProvenance, onDisk'⟩ := passed
    rw [documented.checkout pin clone checkout checkedOut, documented.clone pin root clone cloned] at published
    rw [← freshArchive] at onDisk
    rw [← freshProvenance] at onDisk'
    exact ⟨publication, ⟨accepted, ⟨clone, checkout, cloned, checkedOut⟩, published⟩, onDisk, onDisk'⟩
  · intro publishes
    rcases publishes with
      ⟨publication, ⟨accepted, ⟨clone, checkout, cloned, checkedOut⟩, published⟩, onDisk, onDisk'⟩
    rw [← documented.clone pin root clone cloned, ← documented.checkout pin clone checkout checkedOut] at published
    exact ⟨(), accepted, clone, cloned, checkout, checkedOut, publication, published, (),
      ⟨publication.archive, rfl, onDisk⟩, publication.provenance, rfl, onDisk'⟩

theorem verifySourcePins_eq_ok_iff {subprocesses : Subprocesses} (documented : subprocesses.Documented)
    (root : Repository) :
    verifySourcePins subprocesses root = .ok () ↔
      WorktreePublished subprocesses root ∧ ∀ path ∈ diffPaths, shown root path = false := by
  rw [verifySourcePins, bind_eq_ok]
  simp only [require_eq_ok, documented.diff]
  have loop : forM pins (verifyPin subprocesses root) = .ok () ↔ WorktreePublished subprocesses root := by
    rw [forM_eq_ok]
    exact forall₂_congr fun pin _ => verifyPin_eq_ok_iff documented root pin
  apply Iff.intro
  · intro passes
    rcases passes with ⟨_, passed, quiet⟩
    exact ⟨loop.mp passed, quiet⟩
  · intro passes
    rcases passes with ⟨passed, quiet⟩
    exact ⟨(), loop.mpr passed, quiet⟩

theorem mem_diffPaths {path : String} :
    path ∈ diffPaths ↔ ∃ pin ∈ pins, path = archivePath pin ∨ path = provenancePath pin := by
  simp [diffPaths_eq]

theorem WorktreePublished.present {subprocesses : Subprocesses} {root : Repository}
    (published : WorktreePublished subprocesses root) {path : String} (listed : path ∈ diffPaths) :
    ∃ entry, root.worktree path = some entry := by
  obtain ⟨pin, member, file⟩ := mem_diffPaths.mp listed
  obtain ⟨publication, -, archive, provenance⟩ := published pin member
  rcases file with rfl | rfl
  · obtain ⟨entry, present, -⟩ := Option.map_eq_some_iff.mp archive
    exact ⟨entry, present⟩
  · obtain ⟨entry, present, -⟩ := Option.map_eq_some_iff.mp provenance
    exact ⟨entry, present⟩

theorem committed_iff (subprocesses : Subprocesses) (root : Repository) :
    Committed subprocesses root ↔ WorktreePublished subprocesses root ∧
      ∀ path ∈ diffPaths, readFile root.head path = readFile root.worktree path := by
  apply Iff.intro
  · intro committed
    apply And.intro
    · intro pin member
      obtain ⟨publication, publishes, -, onDisk⟩ := committed pin member
      exact ⟨publication, publishes, onDisk⟩
    · intro path listed
      obtain ⟨pin, member, file⟩ := mem_diffPaths.mp listed
      obtain ⟨publication, -, inHead, onDisk⟩ := committed pin member
      rcases file with rfl | rfl
      · rw [inHead.1, onDisk.1]
      · rw [inHead.2, onDisk.2]
  · intro checked pin member
    rcases checked with ⟨published, same⟩
    obtain ⟨publication, publishes, archive, provenance⟩ := published pin member
    have sameArchive := same (archivePath pin) (mem_diffPaths.mpr ⟨pin, member, .inl rfl⟩)
    have sameProvenance := same (provenancePath pin) (mem_diffPaths.mpr ⟨pin, member, .inr rfl⟩)
    have inHead : Carries root.head pin publication :=
      ⟨sameArchive.trans archive, sameProvenance.trans provenance⟩
    exact ⟨publication, publishes, inHead, archive, provenance⟩

/-- The publication files that no commit and no index entry accounts for slip past the comparison when the
    others are clean. -/
def PassesUntracked (root : Repository) : Prop :=
  (∀ path ∈ diffPaths, Untracked root path ∨ Clean root path) ∧ ∃ path ∈ diffPaths, Untracked root path

/-- A committed publication is turned down when a file of it left the index or changed its mode. -/
def RejectsCommitted (root : Repository) : Prop :=
  (∀ path ∈ diffPaths, readFile root.head path = readFile root.worktree path) ∧
    ∃ path ∈ diffPaths, root.index path = none ∨ root.head path ≠ root.worktree path

/-- The gate stands for what it is meant to stand for outside these two states. -/
theorem gate_exact_iff {subprocesses : Subprocesses} (documented : subprocesses.Documented) (root : Repository) :
    (verifySourcePins subprocesses root = .ok () ↔ Committed subprocesses root) ↔
      (WorktreePublished subprocesses root → ¬ PassesUntracked root ∧ ¬ RejectsCommitted root) := by
  rw [verifySourcePins_eq_ok_iff documented, committed_iff]
  by_cases published : WorktreePublished subprocesses root
  -- The loop has found every file on disk, so only untracked and clean files leave nothing to show.
  · have quiet : (∀ path ∈ diffPaths, shown root path = false) ↔
        ∀ path ∈ diffPaths, Untracked root path ∨ Clean root path := by
      refine forall₂_congr fun path listed => ?_
      obtain ⟨entry, present⟩ := published.present listed
      exact shown_eq_false_iff present
    simp only [published, true_and, forall_const, quiet]
    apply Iff.intro
    · intro agree
      apply And.intro
      · intro slips
        rcases slips with ⟨silent, path, listed, untracked⟩
        obtain ⟨entry, present⟩ := published.present listed
        have same := agree.mp silent path listed
        rw [untracked.readFile_head, readFile, present] at same
        exact absurd same (by simp)
      · intro turnedDown
        rcases turnedDown with ⟨same, path, listed, moved⟩
        obtain ⟨entry, present⟩ := published.present listed
        rcases agree.mpr same path listed with untracked | clean
        · have equal := same path listed
          rw [untracked.readFile_head, readFile, present] at equal
          exact absurd equal (by simp)
        · exact moved.elim clean.1 fun changed => changed clean.2
    · intro exact
      rcases exact with ⟨noSlip, noRejection⟩
      apply Iff.intro
      · intro silent path listed
        rcases silent path listed with untracked | clean
        · exact absurd ⟨silent, path, listed, untracked⟩ noSlip
        · exact clean.sameBytes
      · intro same path listed
        by_contra loud
        rw [not_or] at loud
        have moved : root.index path = none ∨ root.head path ≠ root.worktree path := by
          by_contra settled
          rw [not_or, not_not] at settled
          exact loud.2 ⟨settled.1, settled.2⟩
        exact noRejection ⟨same, path, listed, moved⟩
  · simp [published]

def emptyTree : Tree := fun _ => none

def neverCommitted : Repository where
  head := emptyTree
  index := emptyTree
  worktree path := if path ∈ diffPaths then some { mode := .regular, bytes := [7] } else none

def committedClean : Repository where
  head := neverCommitted.worktree
  index := neverCommitted.worktree
  worktree := neverCommitted.worktree

def succeeding : Subprocesses where
  pinVerify _ _ _ := true
  gitClone _ root := some { root with index := emptyTree, worktree := emptyTree }
  gitCheckout _ clone := some { clone with index := clone.head, worktree := clone.head }
  pinPublish _ _ _ := some { archive := [7], provenance := [7] }
  gitDiff root paths := paths.all fun path => !shown root path

theorem succeeding_documented : succeeding.Documented where
  clone pin root clone cloned := by
    cases cloned
    rfl
  checkout pin clone checkout checkedOut := by
    cases checkedOut
    rfl
  diff root paths := by simp [succeeding]

theorem gate_exact_of_committed :
    verifySourcePins succeeding committedClean = .ok () ↔ Committed succeeding committedClean :=
  (gate_exact_iff succeeding_documented committedClean).mpr fun _ =>
    ⟨fun slips => by simp [PassesUntracked, Untracked, committedClean, neverCommitted, diffPaths] at slips,
      fun turnedDown => by simp [RejectsCommitted, committedClean, neverCommitted, diffPaths] at turnedDown⟩

/-- The gate passes although no commit holds any of the four files. -/
theorem gate_passes_never_committed :
    succeeding.Documented ∧ verifySourcePins succeeding neverCommitted = .ok () ∧
      ¬ Committed succeeding neverCommitted := by
  have uncommitted : ¬ Committed succeeding neverCommitted := by
    intro committed
    obtain ⟨publication, -, inHead, -⟩ :=
      committed { name := "effect", subtreePrefix := "repos/effect" } (by decide)
    exact absurd inHead.1 (by simp [neverCommitted, emptyTree, readFile])
  exact ⟨succeeding_documented, rfl, uncommitted⟩

end EffectHarness.SourcePins
