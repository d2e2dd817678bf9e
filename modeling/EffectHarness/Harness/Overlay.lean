import EffectHarness.Harness.Composition

namespace EffectHarness

open Paths Gitignore Eslint

variable {Scope File : Type}

/-- The Target's array with the export in it, what comes before the export and what comes after. -/
def overlaid (before after : List (ConfigEntry Scope)) : List (ConfigEntry Scope) :=
  before ++ effectHarnessEslintConfig ++ after

/-- The severity that later entries leave to the rule. -/
def laterSeverity (later : List RuleConfig) : Severity :=
  (later.getLast?.map RuleConfig.severity).getD .error

/-- The options that later entries leave to the rule. -/
def laterOptions (later : List RuleConfig) : RestrictedImports :=
  (later.filterMap RuleConfig.options).getLast?.getD sharedEffectEslintPolicy.restrictedImports

theorem overlaid_rulesFor (linter : Linter Scope File) (before after : List (ConfigEntry Scope)) (file : File) :
    linter.rulesFor (overlaid before after) file =
      linter.rulesFor before file ++
        [.configured .error sharedEffectEslintPolicy.restrictedImports] ++ linter.rulesFor after file := by
  have composed := composed_rulesFor linter before file
  unfold Linter.rulesFor at composed ⊢
  rw [overlaid, List.filter_append, List.filterMap_append, composed]

theorem getLast?_around {α : Type} (before : List α) (middle : α) (after : List α) :
    (before ++ [middle] ++ after).getLast? = some (after.getLast?.getD middle) := by
  rw [List.getLast?_append, List.getLast?_concat]
  cases after.getLast? <;> rfl

/-- What stands before the export does not matter. What stands after it decides on its own where it speaks. -/
theorem overlaid_reports_iff {linter : Linter Scope File} (documented : linter.Documented)
    (before after : List (ConfigEntry Scope)) (file : File) (declaration : ImportDeclaration) :
    linter.reports (overlaid before after) file declaration = true ↔
      laterSeverity (linter.rulesFor after file) ≠ .off ∧
        linter.restricts (laterOptions (linter.rulesFor after file)) declaration = true := by
  have severity : ∀ later : List RuleConfig,
      (later.getLast?.getD (.configured .error sharedEffectEslintPolicy.restrictedImports)).severity =
        laterSeverity later := by
    intro later
    rw [laterSeverity]
    cases later.getLast? <;> rfl
  rw [documented.reports_iff, overlaid_rulesFor, getLast?_around, List.filterMap_append, List.filterMap_append]
  have options : [RuleConfig.configured .error sharedEffectEslintPolicy.restrictedImports].filterMap
      RuleConfig.options = [sharedEffectEslintPolicy.restrictedImports] := rfl
  rw [options, getLast?_around]
  simp only [Option.mem_some_iff, exists_eq_left', severity, laterOptions]

theorem namesTreeContent_of_effect : NamesTreeContent "repos/effect/index.ts" := by
  decide

/-- Every import of tree content stays reported exactly where the later entries do not turn the rule off, and where the
    last options among them, if there are any, restrict all of this content again. -/
theorem boundary_survives_iff {linter : Linter Scope File} (documented : linter.Documented)
    (before after : List (ConfigEntry Scope)) (file : File) :
    (∀ declaration : ImportDeclaration, NamesTreeContent declaration.source →
        linter.reports (overlaid before after) file declaration = true) ↔
      laterSeverity (linter.rulesFor after file) ≠ .off ∧
        ∀ options ∈ ((linter.rulesFor after file).filterMap RuleConfig.options).getLast?,
          ∀ declaration : ImportDeclaration, NamesTreeContent declaration.source →
            linter.restricts options declaration = true := by
  apply Iff.intro
  · intro reported
    have first := (overlaid_reports_iff documented before after file _).mp
      (reported { source := "repos/effect/index.ts" } namesTreeContent_of_effect)
    apply And.intro first.1
    intro options last declaration names
    have reports := (overlaid_reports_iff documented before after file declaration).mp (reported declaration names)
    have restricted := reports.2
    rw [laterOptions, Option.mem_def.mp last] at restricted
    exact restricted
  · intro kept declaration names
    rcases kept with ⟨on, restricted⟩
    apply (overlaid_reports_iff documented before after file declaration).mpr
    apply And.intro on
    rw [laterOptions]
    cases last : ((linter.rulesFor after file).filterMap RuleConfig.options).getLast? with
    | none => exact (restrictedImports_restricts_iff documented declaration).mpr names
    | some options => exact restricted options last declaration names

def testOverlay : List (ConfigEntry Unit) := [{ name := some "target/test-overlay", scope := some () }]

theorem boundary_survives_test_overlay :
    (reference fun _ _ => true : Linter Unit String).reports (overlaid targetBansLodash testOverlay)
      "tests/shared.test.js" { source := "repos/tsgo/internal/rules/index.ts" } = true :=
  (boundary_survives_iff (reference_documented fun _ _ => true) targetBansLodash testOverlay
    "tests/shared.test.js").mpr ⟨by decide, fun options last => absurd last (Option.not_mem_none options)⟩
      { source := "repos/tsgo/internal/rules/index.ts" } (by decide)

/-- The repository's own configuration: the entries of the composition framework, and one for its sources. -/
def selfConfig (base : List (ConfigEntry Scope)) (files : Scope) : List (ConfigEntry Scope) :=
  base ++ [{ name := some "effect-harness/source", scope := some files,
             noRestrictedImports := some (.configured .error sharedEffectEslintPolicy.restrictedImports) }]

theorem selfConfig_rulesFor (linter : Linter Scope File) (base : List (ConfigEntry Scope)) (files : Scope)
    (file : File) :
    linter.rulesFor (selfConfig base files) file =
      linter.rulesFor base file ++
        if linter.scopeMatches files file then
          [.configured .error sharedEffectEslintPolicy.restrictedImports]
        else [] := by
  rw [Linter.rulesFor, selfConfig, List.filter_append, List.filterMap_append]
  cases within : linter.scopeMatches files file <;> simp [Linter.rulesFor, Linter.applies, within]

/-- On its own sources the repository reports what a Target reports whose later entries leave the rule alone; on other
    files it has no boundary, and reports what the framework makes it report. -/
theorem self_agrees_with_target {linter : Linter Scope File} (documented : linter.Documented)
    (base before after : List (ConfigEntry Scope)) (files : Scope) (file : File)
    (silent : ∀ entry ∈ after, linter.applies file entry = true → entry.noRestrictedImports = none)
    (declaration : ImportDeclaration) :
    linter.reports (selfConfig base files) file declaration =
      if linter.scopeMatches files file then linter.reports (overlaid before after) file declaration
      else linter.reports base file declaration := by
  have unspoken : linter.rulesFor after file = [] := by
    rw [Linter.rulesFor, List.filterMap_eq_nil_iff]
    intro entry member
    obtain ⟨listed, applies⟩ := List.mem_filter.mp member
    exact silent entry listed applies
  have rules := selfConfig_rulesFor linter base files file
  cases within : linter.scopeMatches files file with
  | true =>
    rw [within, if_pos rfl, ← composed_rulesFor] at rules
    rw [if_pos rfl, Bool.eq_iff_iff, overlaid_reports_iff documented, unspoken, documented.reports_iff, rules,
      ← documented.reports_iff, composed_reports_iff documented]
    simp [laterSeverity, laterOptions, restrictedImports_restricts_iff documented, NamesTreeContent]
  | false =>
    rw [within, if_neg Bool.false_ne_true, List.append_nil] at rules
    rw [if_neg Bool.false_ne_true, Bool.eq_iff_iff, documented.reports_iff, documented.reports_iff, rules]

def inSources (_ : Unit) (file : String) : Bool := (segments file).head? == some "src".toList

theorem self_agrees_with_target_on_sources :
    (reference inSources).reports (selfConfig targetBansLodash ()) "src/shared.js"
        { source := "../repos/effect/packages/effect/src/Effect.ts" } =
      (reference inSources).reports (overlaid targetBansLodash testOverlay) "src/shared.js"
        { source := "../repos/effect/packages/effect/src/Effect.ts" } :=
  (self_agrees_with_target (reference_documented inSources) targetBansLodash targetBansLodash testOverlay ()
    "src/shared.js" (fun entry member _ => by rw [List.mem_singleton.mp member])
    { source := "../repos/effect/packages/effect/src/Effect.ts" }).trans (if_pos (by decide))

end EffectHarness
