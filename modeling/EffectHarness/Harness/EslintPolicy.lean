import EffectHarness.Eslint.FlatConfig
import EffectHarness.Harness.Baseline

namespace EffectHarness

open Eslint

def sharedEffectEslintPolicy.restrictedImports : RestrictedImports where
  patterns := [
    { group := some ["repos/effect/**", "**/repos/effect/**"],
      message := some "Import installed packages, never pinned Effect reference trees." },
    { group := some ["repos/tsgo/**", "**/repos/tsgo/**"],
      message := some "Use tsgo through its installed package, never its pinned reference tree." }]

def effectHarnessEslintConfig {Scope : Type} : List (ConfigEntry Scope) :=
  [{ name := some "effect-harness/guardrails",
     noRestrictedImports := some (.configured .error sharedEffectEslintPolicy.restrictedImports) }]

/-- The groups are the two spellings of every delivered tree, and nothing else. -/
theorem restrictedImports_groups :
    sharedEffectEslintPolicy.restrictedImports.patterns.map RestrictedPattern.group =
      acceptedEffectBaseline.pins.map fun pin =>
        some [pin.targetPath ++ "/**", "**/" ++ pin.targetPath ++ "/**"] := by
  decide

theorem restrictedImports_plain :
    List.Forall₂ RestrictedPattern.PlainGroup sharedEffectEslintPolicy.restrictedImports.patterns
      [["repos/effect/**", "**/repos/effect/**"], ["repos/tsgo/**", "**/repos/tsgo/**"]] := by
  simp [sharedEffectEslintPolicy.restrictedImports, RestrictedPattern.PlainGroup]

end EffectHarness
