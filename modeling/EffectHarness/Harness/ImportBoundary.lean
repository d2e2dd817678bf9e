import EffectHarness.Eslint.Reference
import EffectHarness.Harness.EslintPolicy
import EffectHarness.Paths.Lexical

namespace EffectHarness

open Paths Gitignore Eslint

variable {Scope File : Type}

/-- A directory `repos` and, directly in it, one of the two delivered trees. -/
def ReferencePair (upper lower : Segment) : Prop :=
  fitsFolded "repos".toList upper = true ∧
    (fitsFolded "effect".toList lower = true ∨ fitsFolded "tsgo".toList lower = true)

instance : DecidableRel ReferencePair :=
  fun _ _ => inferInstanceAs (Decidable (_ ∧ _))

def InReferenceTree (path : List Segment) : Prop := Adjacent ReferencePair path

instance (path : List Segment) : Decidable (InReferenceTree path) :=
  inferInstanceAs (Decidable (Adjacent _ _))

def writtenSegments (specifier : String) : List Segment := segments (trim specifier)

def isRelative (specifier : String) : Bool :=
  (segments specifier).head?.any fun first => first == ['.'] || first == ['.', '.']

def directory (file : String) : List Segment := (segments file).dropLast

def origin (file specifier : String) : List Segment :=
  if isRelative specifier then directory file else []

def resolvedPath (file specifier : String) : List Segment :=
  normalize isSkip isUp (origin file specifier ++ segments specifier)

def InsideDeliveredTree (file : String) : Prop :=
  InReferenceTree (normalize isSkip isUp (directory file))

instance (file : String) : Decidable (InsideDeliveredTree file) :=
  inferInstanceAs (Decidable (InReferenceTree _))

/-- What the boundary is for, at one import: the report agrees with the resolved path. -/
def BlocksExactly (linter : Linter Scope String) (file : String) (declaration : ImportDeclaration) : Prop :=
  linter.reports effectHarnessEslintConfig file declaration = true ↔
    InReferenceTree (resolvedPath file declaration.source)

instance (linter : Linter Scope String) (file : String) (declaration : ImportDeclaration) :
    Decidable (BlocksExactly linter file declaration) :=
  inferInstanceAs (Decidable (_ ↔ _))

theorem ReferencePair.plain_left {upper lower : Segment} (pair : ReferencePair upper lower) :
    Plain isSkip isUp upper := by
  by_contra notPlain
  have dots : upper = [] ∨ upper = ['.'] ∨ upper = ['.', '.'] := by
    simp only [Plain, isSkip, isUp, not_and_or, Bool.not_eq_false, Bool.or_eq_true, beq_iff_eq, or_assoc] at notPlain
    exact notPlain
  rcases dots with rfl | rfl | rfl
  all_goals exact absurd pair.1 (by decide)

theorem ReferencePair.plain_right {upper lower : Segment} (pair : ReferencePair upper lower) :
    Plain isSkip isUp lower := by
  by_contra notPlain
  have dots : lower = [] ∨ lower = ['.'] ∨ lower = ['.', '.'] := by
    simp only [Plain, isSkip, isUp, not_and_or, Bool.not_eq_false, Bool.or_eq_true, beq_iff_eq, or_assoc] at notPlain
    exact notPlain
  rcases dots with rfl | rfl | rfl
  all_goals exact absurd pair.2 (by decide)

theorem group_ignores_iff {linter : Linter Scope File} (documented : linter.Documented) (path : String) :
    (linter.ignores ["repos/effect/**", "**/repos/effect/**"] path = true ∨
        linter.ignores ["repos/tsgo/**", "**/repos/tsgo/**"] path = true) ↔
      InReferenceTree (pathSegments path).dropLast := by
  have effect := documented.gitignore ["repos/effect/**", "**/repos/effect/**"]
    [[.name "repos".toList, .name "effect".toList, .globstar],
     [.globstar, .name "repos".toList, .name "effect".toList, .globstar]] path rfl
  have tsgo := documented.gitignore ["repos/tsgo/**", "**/repos/tsgo/**"]
    [[.name "repos".toList, .name "tsgo".toList, .globstar],
     [.globstar, .name "repos".toList, .name "tsgo".toList, .globstar]] path rfl
  rw [effect, tsgo, ignored_pair_iff, ignored_pair_iff]
  apply Iff.intro
  · intro inside
    rcases inside with ⟨before, upper, lower, after, split, fitUpper, fitLower⟩ |
      ⟨before, upper, lower, after, split, fitUpper, fitLower⟩
    · exact ⟨before, upper, lower, after, split, fitUpper, .inl fitLower⟩
    · exact ⟨before, upper, lower, after, split, fitUpper, .inr fitLower⟩
  · intro inside
    rcases inside with ⟨before, upper, lower, after, split, fitUpper, fitLower⟩
    rcases fitLower with fitLower | fitLower
    · exact .inl ⟨before, upper, lower, after, split, fitUpper, fitLower⟩
    · exact .inr ⟨before, upper, lower, after, split, fitUpper, fitLower⟩

theorem effectHarness_rulesFor (linter : Linter Scope File) (file : File) :
    linter.rulesFor effectHarnessEslintConfig file =
      [.configured .error sharedEffectEslintPolicy.restrictedImports] := rfl

theorem restrictedImports_restricts_iff {linter : Linter Scope File} (documented : linter.Documented)
    (declaration : ImportDeclaration) :
    linter.restricts sharedEffectEslintPolicy.restrictedImports declaration = true ↔
      InReferenceTree (pathSegments (trim declaration.source)).dropLast := by
  rw [← group_ignores_iff documented]
  have groups := documented.groups _ _ declaration restrictedImports_plain
  change linter.restricts sharedEffectEslintPolicy.restrictedImports declaration = _ at groups
  rw [groups]
  simp

theorem effectHarness_reports_iff {linter : Linter Scope File} (documented : linter.Documented) (file : File)
    (declaration : ImportDeclaration) :
    linter.reports effectHarnessEslintConfig file declaration = true ↔
      InReferenceTree (pathSegments (trim declaration.source)).dropLast := by
  rw [documented.reports_iff, effectHarness_rulesFor, ← restrictedImports_restricts_iff documented]
  simp

end EffectHarness
