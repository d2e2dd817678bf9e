import EffectHarness.Acceptance.Evidence
import EffectHarness.Paths.Posix
import EffectHarness.Scripts.Performs

namespace EffectHarness.Acceptance

open Paths Schema Scripts

abbrev FileName := { segment : Segment // IsName segment }

def FileName.isTarball (entry : FileName) : Bool := ".tgz".toList.isSuffixOf entry.1

/-- An absolute path as `realpathSync`, `resolve` and `join` produce it. -/
structure Location where
  path : List Segment
  named : ∀ segment ∈ path, IsName segment

namespace Location

def text (location : Location) : String := absolute location.path

def join (location : Location) (name : FileName) : Location where
  path := location.path ++ [name.1]
  named := by
    intro segment member
    rcases List.mem_append.mp member with above | last
    · exact location.named segment above
    · rw [List.mem_singleton.mp last]
      exact name.2

def joinAll (location : Location) (names : List FileName) : Location := names.foldl join location

def resolve (cwd : Location) (path : String) : String :=
  if path.toList.head? = some '/' then Paths.resolve path else Paths.resolve (cwd.text ++ "/" ++ path)

def below (location : Location) (path : String) : Option (List Char) :=
  path.toList.dropPrefix? (location.text.toList ++ ['/'])

variable {location : Location} {name : FileName}

theorem join_path_ne_nil : (location.join name).path ≠ [] := by
  simp [join]

theorem resolve_join (cwd : Location) : cwd.resolve (location.join name).text = (location.join name).text := by
  have slash : (location.join name).text.toList.head? = some '/' := by
    rw [text, absolute, if_neg join_path_ne_nil]
    cases location with
    | mk path named => cases path <;> simp [join]
  rw [resolve, if_pos slash]
  exact resolve_absolute join_path_ne_nil (location.join name).named

theorem below_join (nonempty : location.path ≠ []) : location.below (location.join name).text = some name.1 := by
  have text : (location.join name).text.toList = location.text.toList ++ '/' :: name.1 :=
    absolute_append nonempty name.1
  rw [below, List.dropPrefix?_eq_some_iff]
  exact ⟨location.text.toList ++ ['/'], by simp [text], by simp⟩

theorem join_text_injective {other : FileName} (nonempty : location.path ≠ [])
    (same : (location.join name).text = (location.join other).text) : name = other := by
  have below : some name.1 = some other.1 := by
    rw [← below_join nonempty, ← below_join nonempty, same]
  exact Subtype.ext (Option.some.inj below)

end Location

/-- What `JSON.parse` makes of a text: its value, or nothing where the text is malformed. -/
abbrev JsonText := Option Json

structure PartitaRunner where
  manifest : Json
  workspace : String

structure Approval where
  planHash : String
  targetRoot : String
  observedStateBinding : Json
  commands : List Json

structure ApprovalCommand where
  cwd : String
  crossRepoRoot : String
  crossRepoApprovals : List (String × Approval)

/-- The shared workspace of the attempts, with the environments in which Prelude was started from it. -/
structure RunRoot (Content : Type) where
  packs : Directory FileName Content
  packedInputs : Option JsonText
  partitaRunner : Option PartitaRunner
  gitInvocations : Bool
  approvalCommand : Option ApprovalCommand
  handed : List (List (String × String))

/-- Where a run is started, and where it finds the three repositories. -/
structure Checkouts where
  cwd : Location
  harnessRoot : Location
  partitaRoot : Location
  preludeRoot : Location

structure Site extends Checkouts where
  runRoot : Location

def Checkouts.site (checkouts : Checkouts) (runRoot : Location) : Site := { checkouts with runRoot := runRoot }

def Location.packsRoot (runRoot : Location) : Location := runRoot.join ⟨"packs".toList, by decide⟩

def Location.packedInputsPath (runRoot : Location) : Location :=
  runRoot.join ⟨"packed-inputs.prepare.json".toList, by decide⟩

namespace RunRoot

variable {Content : Type} {runRoot : Location} {root : RunRoot Content} {name : FileName}

/-- The tarball at a path below the packs directory. -/
def tarball (runRoot : Location) (root : RunRoot Content) (path : String) : Option Content :=
  (runRoot.packsRoot.below path).bind fun entry =>
    if named : IsName entry then root.packs.lookup ⟨entry, named⟩ else none

theorem tarball_join : root.tarball runRoot (runRoot.packsRoot.join name).text = root.packs.lookup name := by
  have nonempty : runRoot.packsRoot.path ≠ [] := Location.join_path_ne_nil
  rw [tarball, Location.below_join nonempty, Option.bind_some, dif_pos name.2]

end RunRoot

end EffectHarness.Acceptance
