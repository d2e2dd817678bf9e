import EffectHarness.Gitignore.Text
import Mathlib.Data.List.Induction

namespace Eslint

inductive Severity
  | off
  | warn
  | error
  deriving DecidableEq

structure RestrictedPath where
  name : String
  message : Option String := none
  importNames : Option (List String) := none

structure RestrictedPattern where
  group : Option (List String) := none
  regex : Option String := none
  message : Option String := none
  importNames : Option (List String) := none
  caseSensitive : Bool := false

structure RestrictedImports where
  paths : List RestrictedPath := []
  patterns : List RestrictedPattern := []

inductive RuleConfig
  | severityOnly (severity : Severity)
  | configured (severity : Severity) (options : RestrictedImports)

@[simp] def RuleConfig.severity : RuleConfig → Severity
  | .severityOnly severity => severity
  | .configured severity _ => severity

@[simp] def RuleConfig.options : RuleConfig → Option RestrictedImports
  | .severityOnly _ => none
  | .configured _ options => some options

/-- A flat-config entry, read at the rule key `no-restricted-imports`. Without a scope it applies to
    every linted file. -/
structure ConfigEntry (Scope : Type) where
  name : Option String := none
  scope : Option Scope := none
  noRestrictedImports : Option RuleConfig := none

structure ImportDeclaration where
  source : String
  importNames : List String := []

def isWhitespace (character : Char) : Bool :=
  character.toNat ∈ [0x09, 0x0A, 0x0B, 0x0C, 0x0D, 0x20, 0xA0, 0x1680, 0x2028, 0x2029, 0x202F, 0x205F,
    0x3000, 0xFEFF] ∨ (0x2000 ≤ character.toNat ∧ character.toNat ≤ 0x200A)

def trim (text : String) : String :=
  String.ofList ((text.toList.dropWhile isWhitespace).reverse.dropWhile isWhitespace).reverse

/-- The linter's own functions: scope matching, the merge of a config array for a file, the
    case-insensitive matcher of a pattern group, and the check of the rule. -/
structure Linter (Scope File : Type) where
  scopeMatches : Scope → File → Bool
  calculateConfig : List (ConfigEntry Scope) → File → Option (Severity × Option RestrictedImports)
  ignores : List String → String → Bool
  restricts : RestrictedImports → ImportDeclaration → Bool

variable {Scope File : Type}

def Linter.applies (linter : Linter Scope File) (file : File) (entry : ConfigEntry Scope) : Bool :=
  match entry.scope with
  | none => true
  | some scope => linter.scopeMatches scope file

def RestrictedPattern.PlainGroup (pattern : RestrictedPattern) (group : List String) : Prop :=
  pattern.group = some group ∧ pattern.regex = none ∧ pattern.importNames = none ∧ pattern.caseSensitive = false

/-- The documented behaviour the results rest on. Entries in scope are merged in array order, a later
    value of the rule replaces an earlier one, and a bare severity keeps the earlier options. -/
structure Linter.Documented (linter : Linter Scope File) : Prop where
  empty : ∀ file, linter.calculateConfig [] file = none
  outOfScope : ∀ configs entry file, linter.applies file entry = false →
    linter.calculateConfig (configs ++ [entry]) file = linter.calculateConfig configs file
  silent : ∀ configs entry file, entry.noRestrictedImports = none →
    linter.calculateConfig (configs ++ [entry]) file = linter.calculateConfig configs file
  severityOnly : ∀ configs entry file severity, linter.applies file entry = true →
    entry.noRestrictedImports = some (.severityOnly severity) →
    linter.calculateConfig (configs ++ [entry]) file =
      some (severity, (linter.calculateConfig configs file).bind Prod.snd)
  configured : ∀ configs entry file severity options, linter.applies file entry = true →
    entry.noRestrictedImports = some (.configured severity options) →
    linter.calculateConfig (configs ++ [entry]) file = some (severity, some options)
  groups : ∀ patterns groups declaration, List.Forall₂ RestrictedPattern.PlainGroup patterns groups →
    linter.restricts { patterns := patterns } declaration =
      groups.any fun group => linter.ignores group (trim declaration.source)
  gitignore : ∀ group patterns path, group.mapM Gitignore.parse = some patterns →
    (linter.ignores group path = true ↔
      Gitignore.Ignored Gitignore.fitsFolded patterns (Gitignore.pathSegments path))

def Linter.reports (linter : Linter Scope File) (configs : List (ConfigEntry Scope)) (file : File)
    (declaration : ImportDeclaration) : Bool :=
  match linter.calculateConfig configs file with
  | some (severity, some options) => severity != .off && linter.restricts options declaration
  | _ => false

def Linter.rulesFor (linter : Linter Scope File) (configs : List (ConfigEntry Scope)) (file : File) :
    List RuleConfig :=
  (configs.filter (linter.applies file)).filterMap ConfigEntry.noRestrictedImports

/-- The severity is the last one in scope, the options are the last ones in scope, and the two need
    not come from the same entry. -/
theorem Linter.Documented.calculateConfig_eq {linter : Linter Scope File} (documented : linter.Documented)
    (configs : List (ConfigEntry Scope)) (file : File) :
    linter.calculateConfig configs file = (linter.rulesFor configs file).getLast?.map fun last =>
      (last.severity, ((linter.rulesFor configs file).filterMap RuleConfig.options).getLast?) := by
  -- The last entry decides, so the array is taken from its end.
  induction configs using List.reverseRecOn with
  | nil => simp [documented.empty, Linter.rulesFor]
  | append_singleton configs entry ih =>
    by_cases inScope : linter.applies file entry = true
    · cases rule : entry.noRestrictedImports with
      | none =>
        rw [documented.silent configs entry file rule, ih]
        simp [Linter.rulesFor, List.filter_append, List.filterMap_append, inScope, rule]
      | some config =>
        have added : linter.rulesFor (configs ++ [entry]) file = linter.rulesFor configs file ++ [config] := by
          simp [Linter.rulesFor, List.filter_append, List.filterMap_append, inScope, rule]
        rw [added]
        cases config with
        | severityOnly severity =>
          rw [documented.severityOnly configs entry file severity inScope rule, ih]
          cases last : (linter.rulesFor configs file).getLast? with
          | none => simp [List.getLast?_eq_none_iff.mp last]
          | some config => simp [List.filterMap_append]
        | configured severity options =>
          rw [documented.configured configs entry file severity options inScope rule]
          simp [List.filterMap_append]
    · rw [Bool.not_eq_true] at inScope
      rw [documented.outOfScope configs entry file inScope, ih]
      simp [Linter.rulesFor, List.filter_append, inScope]

theorem Linter.Documented.reports_iff {linter : Linter Scope File} (documented : linter.Documented)
    (configs : List (ConfigEntry Scope)) (file : File) (declaration : ImportDeclaration) :
    linter.reports configs file declaration = true ↔
      ∃ last ∈ (linter.rulesFor configs file).getLast?, last.severity ≠ .off ∧
        ∃ options ∈ ((linter.rulesFor configs file).filterMap RuleConfig.options).getLast?,
          linter.restricts options declaration = true := by
  rw [Linter.reports, documented.calculateConfig_eq]
  cases (linter.rulesFor configs file).getLast? with
  | none => simp
  | some last =>
    cases ((linter.rulesFor configs file).filterMap RuleConfig.options).getLast? with
    | none => simp
    | some options => simp

end Eslint
