import EffectHarness.Eslint.FlatConfig

namespace Eslint

variable {Scope File : Type}

def mergeRule (state : Option (Severity × Option RestrictedImports)) :
    Option RuleConfig → Option (Severity × Option RestrictedImports)
  | none => state
  | some (.severityOnly severity) => some (severity, state.bind Prod.snd)
  | some (.configured severity options) => some (severity, some options)

def restrictsNames (importNames : Option (List String)) (declaration : ImportDeclaration) : Bool :=
  match importNames with
  | none => true
  | some names => declaration.importNames.any fun name => name ∈ names

def groupIgnores (group : List String) (path : String) : Bool :=
  match group.mapM Gitignore.parse with
  | some patterns => Gitignore.ignores Gitignore.fitsFolded patterns (Gitignore.pathSegments path)
  | none => false

/-- An executable linter with the documented behaviour. It leaves regular expressions and
    case-sensitive groups out. -/
def reference (scopeMatches : Scope → File → Bool) : Linter Scope File where
  scopeMatches := scopeMatches
  calculateConfig configs file := configs.foldl (fun state entry =>
    if (entry.scope.map fun scope => scopeMatches scope file).getD true then
      mergeRule state entry.noRestrictedImports
    else state) none
  ignores := groupIgnores
  restricts options declaration :=
    (options.paths.any fun path =>
      path.name == trim declaration.source && restrictsNames path.importNames declaration) ||
    options.patterns.any fun pattern =>
      (pattern.group.map fun group => groupIgnores group (trim declaration.source)).getD false &&
        restrictsNames pattern.importNames declaration

theorem reference_calculateConfig_append (scopeMatches : Scope → File → Bool)
    (configs : List (ConfigEntry Scope)) (entry : ConfigEntry Scope) (file : File) :
    (reference scopeMatches).calculateConfig (configs ++ [entry]) file =
      if (reference scopeMatches).applies file entry then
        mergeRule ((reference scopeMatches).calculateConfig configs file) entry.noRestrictedImports
      else (reference scopeMatches).calculateConfig configs file := by
  have scope : (entry.scope.map fun scope => scopeMatches scope file).getD true =
      (reference scopeMatches).applies file entry := by
    cases equal : entry.scope <;> simp [Linter.applies, reference, equal]
  simp only [← scope]
  simp [reference, List.foldl_append]

theorem reference_documented (scopeMatches : Scope → File → Bool) :
    (reference scopeMatches : Linter Scope File).Documented where
  empty _ := rfl
  outOfScope configs entry file inScope := by
    simp [reference_calculateConfig_append, inScope]
  silent configs entry file rule := by
    simp [reference_calculateConfig_append, rule, mergeRule]
  severityOnly configs entry file severity inScope rule := by
    simp [reference_calculateConfig_append, inScope, rule, mergeRule]
  configured configs entry file severity options inScope rule := by
    simp [reference_calculateConfig_append, inScope, rule, mergeRule]
  groups patterns groups declaration plain := by
    induction plain with
    | nil => rfl
    | cons plainGroup _ ih =>
      rcases plainGroup with ⟨group, -, names, -⟩
      have unnamed : restrictsNames none declaration = true := rfl
      simp only [reference, List.any_nil, Bool.false_or] at ih ⊢
      simp [ih, group, names, unnamed]
  gitignore group patterns path parsed := by
    change groupIgnores group path = true ↔ _
    rw [groupIgnores, parsed]
    exact Gitignore.ignores_iff

end Eslint
