import EffectHarness.Harness.ImportBoundary

namespace EffectHarness

open Paths Gitignore Eslint

variable {Scope File : Type}

/-- What the Target itself says about the declaration in the file: the last options in scope restrict it,
    and the last severity in scope is not off. -/
def TargetRestricts (linter : Linter Scope File) (host : List (ConfigEntry Scope)) (file : File)
    (declaration : ImportDeclaration) : Prop :=
  ∃ last ∈ (linter.rulesFor host file).getLast?, last.severity ≠ .off ∧
    ∃ options ∈ ((linter.rulesFor host file).filterMap RuleConfig.options).getLast?,
      linter.restricts options declaration = true

def NamesTreeContent (specifier : String) : Prop :=
  InReferenceTree (pathSegments (trim specifier)).dropLast

instance (specifier : String) : Decidable (NamesTreeContent specifier) :=
  inferInstanceAs (Decidable (InReferenceTree _))

/-- The composed config reports exactly what either part reports alone. -/
def ComposesConservatively (linter : Linter Scope File) (host : List (ConfigEntry Scope)) (file : File)
    (declaration : ImportDeclaration) : Prop :=
  linter.reports (host ++ effectHarnessEslintConfig) file declaration = true ↔
    linter.reports host file declaration = true ∨
      linter.reports effectHarnessEslintConfig file declaration = true

theorem composed_rulesFor (linter : Linter Scope File) (host : List (ConfigEntry Scope)) (file : File) :
    linter.rulesFor (host ++ effectHarnessEslintConfig) file =
      linter.rulesFor host file ++ [.configured .error sharedEffectEslintPolicy.restrictedImports] := by
  have exported := effectHarness_rulesFor linter file
  unfold Linter.rulesFor at exported ⊢
  rw [List.filter_append, List.filterMap_append, exported]

theorem composed_reports_iff {linter : Linter Scope File} (documented : linter.Documented)
    (host : List (ConfigEntry Scope)) (file : File) (declaration : ImportDeclaration) :
    linter.reports (host ++ effectHarnessEslintConfig) file declaration = true ↔
      NamesTreeContent declaration.source := by
  rw [documented.reports_iff, composed_rulesFor, List.filterMap_append]
  simp [restrictedImports_restricts_iff documented, NamesTreeContent]

/-- Composition is conservative exactly for the declarations that the Target's own options leave alone or
    that lie behind a boundary anyway. -/
theorem composes_conservatively_iff {linter : Linter Scope File} (documented : linter.Documented)
    (host : List (ConfigEntry Scope)) (file : File) (declaration : ImportDeclaration) :
    ComposesConservatively linter host file declaration ↔
      ¬ TargetRestricts linter host file declaration ∨ NamesTreeContent declaration.source := by
  have hostReports : linter.reports host file declaration = true ↔ TargetRestricts linter host file declaration :=
    documented.reports_iff host file declaration
  have exportReports : linter.reports effectHarnessEslintConfig file declaration = true ↔
      NamesTreeContent declaration.source := effectHarness_reports_iff documented file declaration
  rw [ComposesConservatively, composed_reports_iff documented, hostReports, exportReports]
  by_cases names : NamesTreeContent declaration.source
  · simp [names]
  · simp [names]

def targetBansLodash : List (ConfigEntry Unit) :=
  [{ name := some "target/custom",
     noRestrictedImports := some (.configured .error { paths := [{ name := "lodash" }] }) }]

theorem composes_conservatively_of_boundary_import :
    ComposesConservatively (reference fun _ _ => true) targetBansLodash "src/main.ts"
      { source := "../repos/tsgo/internal/rules/index.ts" } :=
  (composes_conservatively_iff (reference_documented fun _ _ => true) targetBansLodash "src/main.ts"
    { source := "../repos/tsgo/internal/rules/index.ts" }).mpr (.inr (by decide))

theorem composition_drops_target_ban :
    (reference fun _ _ => true : Linter Unit String).Documented ∧
      ¬ ComposesConservatively (reference fun _ _ => true) targetBansLodash "src/main.ts"
        { source := "lodash" } := by
  have dropped : ¬ ComposesConservatively (reference fun _ _ => true) targetBansLodash "src/main.ts"
      { source := "lodash" } := by
    unfold ComposesConservatively
    decide
  exact ⟨reference_documented _, dropped⟩

end EffectHarness
