import EffectHarness.Harness.ImportBoundary

namespace EffectHarness

open Paths Gitignore Eslint

variable {Scope : Type}

/-- The last two components are the root of a delivered tree, and the specifier goes no deeper. -/
def EndsAtTreeRoot (specifier : String) : Prop :=
  InReferenceTree ((pathSegments (trim specifier)).drop ((pathSegments (trim specifier)).length - 2))

instance (specifier : String) : Decidable (EndsAtTreeRoot specifier) :=
  inferInstanceAs (Decidable (InReferenceTree _))

def isDot (segment : Segment) : Bool := isSkip segment || isUp segment

def leadingDots (specifier : String) : List Segment := (segments specifier).takeWhile isDot

def namedSegments (specifier : String) : List Segment := (segments specifier).dropWhile isDot

/-- No white space around the text, and no dot or empty component once a component has a name. -/
def PlainlyWritten (specifier : String) : Prop :=
  trim specifier = specifier ∧ ∀ segment ∈ namedSegments specifier, Plain isSkip isUp segment

instance (specifier : String) : Decidable (PlainlyWritten specifier) :=
  inferInstanceAs (Decidable (_ ∧ _))

/-- The directory that the leading dots reach is a `repos`, and the specifier names a tree in it. -/
def CompletedByDirectory (file specifier : String) : Prop :=
  ∃ upper ∈ (normalize isSkip isUp (origin file specifier ++ leadingDots specifier)).getLast?,
    ∃ lower ∈ (namedSegments specifier).head?, ReferencePair upper lower

theorem isDot_cases {segment : Segment} (dot : isDot segment = true) :
    isSkip segment = true ∨ isUp segment = true := by
  simpa [isDot] using dot

theorem leadingDots_dot (specifier : String) (segment : Segment) (member : segment ∈ leadingDots specifier) :
    isSkip segment = true ∨ isUp segment = true :=
  isDot_cases (List.all_eq_true.mp List.all_takeWhile segment member)

theorem segments_split (specifier : String) :
    segments specifier = leadingDots specifier ++ namedSegments specifier :=
  List.takeWhile_append_dropWhile.symm

theorem unrelated_of_dot {upper : Segment} (dot : isSkip upper = true ∨ isUp upper = true) (lower : Segment) :
    ¬ ReferencePair upper lower := by
  intro pair
  have plain := pair.plain_left
  rcases dot with dot | dot
  · simp [plain.1] at dot
  · simp [plain.2] at dot

theorem written_named_iff (specifier : String) :
    InReferenceTree (segments specifier) ↔ InReferenceTree (namedSegments specifier) := by
  rw [segments_split]
  exact adjacent_append_of_unrelated_left
    fun upper member lower => unrelated_of_dot (leadingDots_dot specifier upper member) lower

theorem pathSegments_tree_iff (path : String) :
    InReferenceTree (pathSegments path) ↔ InReferenceTree (segments path) := by
  unfold pathSegments
  split
  · rename_i directory
    have split : segments path = (segments path).dropLast ++ [[]] :=
      (List.dropLast_append_getLast? [] directory).symm
    rw [split, List.dropLast_concat]
    have apart : ∀ lower ∈ [[]], ∀ upper, ¬ ReferencePair upper lower := by
      intro lower member upper pair
      rw [List.mem_singleton.mp member] at pair
      exact absurd pair.2 (by decide)
    exact (adjacent_append_of_unrelated_right apart).symm
  · rfl

theorem below_tree_iff {specifier : String} (belowRoot : ¬ EndsAtTreeRoot specifier) :
    InReferenceTree (pathSegments (trim specifier)).dropLast ↔ InReferenceTree (writtenSegments specifier) := by
  rw [writtenSegments, ← pathSegments_tree_iff]
  apply Iff.intro
  · intro inside
    exact inside.of_infix (List.dropLast_prefix _).isInfix
  · intro names
    apply names.inside_of_not_last
    intro before upper lower pair ends
    have twoLast : (before ++ [upper, lower]).drop ((before ++ [upper, lower]).length - 2) = [upper, lower] := by
      simp
    have endsAtRoot : EndsAtTreeRoot specifier := by
      rw [EndsAtTreeRoot, ends, twoLast]
      exact ⟨[], upper, lower, [], rfl, pair⟩
    exact belowRoot endsAtRoot

theorem origin_outside {file : String} (outside : ¬ InsideDeliveredTree file) (specifier : String) :
    ¬ InReferenceTree (normalize isSkip isUp (origin file specifier)) := by
  unfold origin
  split
  · exact outside
  · exact not_adjacent_nil

theorem resolvedPath_tree_iff {file specifier : String} (outside : ¬ InsideDeliveredTree file)
    (plain : ∀ segment ∈ namedSegments specifier, Plain isSkip isUp segment) :
    InReferenceTree (resolvedPath file specifier) ↔
      InReferenceTree (namedSegments specifier) ∨ CompletedByDirectory file specifier := by
  have split : resolvedPath file specifier =
      normalize isSkip isUp (origin file specifier ++ leadingDots specifier) ++ namedSegments specifier := by
    rw [resolvedPath, segments_split, ← List.append_assoc, normalize_append_plain plain]
  have climbed : ¬ InReferenceTree (normalize isSkip isUp (origin file specifier ++ leadingDots specifier)) := by
    intro inside
    have apart : ∀ lower, isUp lower = true → ∀ upper, ¬ ReferencePair upper lower := by
      intro lower goesUp upper pair
      simp [pair.plain_right.2] at goesUp
    have started : InReferenceTree (normalize isSkip isUp (origin file specifier)) :=
      adjacent_normalize_dots apart (leadingDots_dot specifier) inside
    exact origin_outside outside specifier started
  -- What the leading dots reach holds no tree of its own; a pair is in the names or across the junction.
  rw [split, InReferenceTree, adjacent_append]
  exact or_iff_right climbed

/-- What the boundary reports lies in a tree, unless the specifier has white space around it or climbs again
    after a name. -/
theorem reported_resolves_inside {linter : Linter Scope String} (documented : linter.Documented) {file : String}
    {declaration : ImportDeclaration} (untrimmed : trim declaration.source = declaration.source)
    (level : ∀ segment ∈ namedSegments declaration.source, isUp segment = false)
    (reported : linter.reports effectHarnessEslintConfig file declaration = true) :
    InReferenceTree (resolvedPath file declaration.source) := by
  have below : InReferenceTree (pathSegments declaration.source).dropLast := by
    have byText := (effectHarness_reports_iff documented file declaration).mp reported
    rwa [untrimmed] at byText
  have written : InReferenceTree (namedSegments declaration.source) := by
    rw [← written_named_iff, ← pathSegments_tree_iff]
    exact below.of_infix (List.dropLast_prefix _).isInfix
  rcases written with ⟨before, upper, lower, after, split, pair⟩
  have rest : ∀ segment ∈ after, isUp segment = false :=
    fun segment member => level segment (by simp [split, member])
  have path : origin file declaration.source ++ segments declaration.source =
      (origin file declaration.source ++ leadingDots declaration.source ++ before) ++
        upper :: lower :: after := by
    rw [segments_split declaration.source, split]
    simp
  rw [resolvedPath, path]
  exact adjacent_normalize_of_level pair pair.plain_left pair.plain_right rest

def importOfReference : ImportDeclaration where
  source := "../../../repos/tsgo/./internal//checker.ts"

theorem importOfReference_resolves_inside :
    InReferenceTree (resolvedPath "apps/api/src/main.ts" importOfReference.source) :=
  reported_resolves_inside (reference_documented fun (_ : Unit) (_ : String) => true) (by decide) (by decide)
    (by decide)

/-- What the boundary does with a specifier that does not end at a tree root: it goes by the text, and
    the text agrees with resolution for plainly written specifiers whose tree the directory does not
    complete. -/
theorem boundary_follows_spelling {linter : Linter Scope String} (documented : linter.Documented) (file : String)
    (declaration : ImportDeclaration) (belowRoot : ¬ EndsAtTreeRoot declaration.source) :
    (linter.reports effectHarnessEslintConfig file declaration = true ↔
        InReferenceTree (writtenSegments declaration.source)) ∧
      (¬ InsideDeliveredTree file → PlainlyWritten declaration.source →
        ¬ CompletedByDirectory file declaration.source →
        BlocksExactly linter file declaration) := by
  have byText : linter.reports effectHarnessEslintConfig file declaration = true ↔
      InReferenceTree (writtenSegments declaration.source) :=
    (effectHarness_reports_iff documented file declaration).trans (below_tree_iff belowRoot)
  apply And.intro byText
  intro outside plain apart
  have written : InReferenceTree (writtenSegments declaration.source) ↔
      InReferenceTree (namedSegments declaration.source) := by
    rw [writtenSegments, plain.1, written_named_iff]
  have resolved : InReferenceTree (resolvedPath file declaration.source) ↔
      InReferenceTree (namedSegments declaration.source) := by
    rw [resolvedPath_tree_iff outside plain.2]
    exact or_iff_left apart
  rw [BlocksExactly, byText, written, resolved]

def documentedLinter : Linter Unit String := reference fun _ _ => true

theorem boundary_follows_spelling_of_application_import :
    BlocksExactly documentedLinter "apps/api/src/main.ts"
      { source := "../../../repos/Effect/packages/effect/src/Effect.ts" } :=
  (boundary_follows_spelling (reference_documented _) "apps/api/src/main.ts"
    { source := "../../../repos/Effect/packages/effect/src/Effect.ts" } (by decide)).2
    (by decide) (by decide) (by unfold CompletedByDirectory; decide)

/-- Text and resolution part at a dot component inside the path, at a directory that completes the name
    of a tree, and at a component that climbs out of the tree again. -/
theorem boundary_not_exact :
    documentedLinter.Documented ∧
      (¬ InsideDeliveredTree "src/main.ts" ∧
        ¬ BlocksExactly documentedLinter "src/main.ts" { source := "../repos/./effect/index.ts" }) ∧
      (¬ InsideDeliveredTree "repos/index.ts" ∧
        ¬ BlocksExactly documentedLinter "repos/index.ts" { source := "./effect/index.ts" }) ∧
      (¬ InsideDeliveredTree "src/main.ts" ∧
        ¬ BlocksExactly documentedLinter "src/main.ts" { source := "../repos/effect/../../src/index.ts" }) :=
  ⟨reference_documented _, by decide⟩

end EffectHarness
