import EffectHarness.Paths.Adjacent
import Mathlib.Data.List.Infix

namespace Gitignore

inductive Atom (α : Type*)
  | globstar
  | name (name : α)

/-- The documented reading of one pattern line. A leading or inner `**` stands for any number of
    directories, a trailing one for everything inside. -/
inductive Matches {α : Type*} (fits : α → α → Bool) : List (Atom α) → List α → Prop
  | nil : Matches fits [] []
  | name {name segment : α} {rest : List (Atom α)} {below : List α} (fit : fits name segment = true)
      (matched : Matches fits rest below) : Matches fits (.name name :: rest) (segment :: below)
  | directories {rest : List (Atom α)} {skipped below : List α} (inner : rest ≠ [])
      (matched : Matches fits rest below) : Matches fits (.globstar :: rest) (skipped ++ below)
  | inside {path : List α} (nonempty : path ≠ []) : Matches fits [.globstar] path

variable {α : Type*} {fits : α → α → Bool} {pattern rest : List (Atom α)} {path parent : List α}

theorem matches_name_iff {name : α} :
    Matches fits (.name name :: rest) path ↔
      ∃ segment below, path = segment :: below ∧ fits name segment = true ∧ Matches fits rest below := by
  apply Iff.intro
  · intro matched
    cases matched with
    | name fit matched => exact ⟨_, _, rfl, fit, matched⟩
  · intro matched
    rcases matched with ⟨segment, below, rfl, fit, matched⟩
    exact .name fit matched

theorem matches_directories_iff (inner : rest ≠ []) :
    Matches fits (.globstar :: rest) path ↔
      ∃ skipped below, path = skipped ++ below ∧ Matches fits rest below := by
  apply Iff.intro
  · intro matched
    cases matched with
    | directories _ matched => exact ⟨_, _, rfl, matched⟩
    | inside nonempty => exact absurd rfl inner
  · intro matched
    rcases matched with ⟨skipped, below, rfl, matched⟩
    exact .directories inner matched

theorem matches_inside_iff : Matches fits [.globstar] path ↔ path ≠ [] := by
  apply Iff.intro
  · intro matched
    cases matched with
    | directories inner _ => exact absurd rfl inner
    | inside nonempty => exact nonempty
  · exact .inside

def accepts (fits : α → α → Bool) : List (Atom α) → List α → Bool
  | [], path => path.isEmpty
  | .name _ :: _, [] => false
  | .name name :: rest, segment :: below => fits name segment && accepts fits rest below
  | .globstar :: rest, path => if rest.isEmpty then !path.isEmpty else path.tails.any (accepts fits rest)

theorem accepts_iff : accepts fits pattern path = true ↔ Matches fits pattern path := by
  induction pattern generalizing path with
  | nil =>
    rw [accepts, List.isEmpty_iff]
    apply Iff.intro
    · intro empty
      subst empty
      exact .nil
    · intro matched
      cases matched
      rfl
  | cons atom rest ih =>
    cases atom with
    | name name =>
      rw [matches_name_iff]
      cases path with
      | nil => simp [accepts]
      | cons segment below => simp [accepts, ih]
    | globstar =>
      rw [accepts]
      by_cases inner : rest = []
      · subst inner
        simp [matches_inside_iff]
      · rw [if_neg (by simpa using inner), matches_directories_iff inner, List.any_eq_true]
        apply Iff.intro
        · intro accepted
          rcases accepted with ⟨below, member, accepted⟩
          obtain ⟨skipped, split⟩ := (List.mem_tails _ _).mp member
          exact ⟨skipped, below, split.symm, ih.mp accepted⟩
        · intro matched
          rcases matched with ⟨skipped, below, split, matched⟩
          have member : below ∈ path.tails := (List.mem_tails _ _).mpr ⟨skipped, split.symm⟩
          exact ⟨below, member, ih.mpr matched⟩

instance : Decidable (Matches fits pattern path) :=
  decidable_of_iff _ accepts_iff

/-- A path is ignored once a pattern of the list matches it or a directory above it. -/
def Ignored (fits : α → α → Bool) (patterns : List (List (Atom α))) (path : List α) : Prop :=
  ∃ pattern ∈ patterns, ∃ parent, parent <+: path ∧ Matches fits pattern parent

def ignores (fits : α → α → Bool) (patterns : List (List (Atom α))) (path : List α) : Bool :=
  patterns.any fun pattern => path.inits.any (accepts fits pattern)

theorem ignores_iff {patterns : List (List (Atom α))} :
    ignores fits patterns path = true ↔ Ignored fits patterns path := by
  simp only [ignores, Ignored, List.any_eq_true, List.mem_inits, accepts_iff]

theorem Matches.descend (matched : Matches fits pattern parent) (trailing : pattern.getLast? = some .globstar)
    (above : parent <+: path) : Matches fits pattern path := by
  -- The atoms before the trailing globstar match what they matched; it takes up the rest of the longer path.
  induction matched generalizing path with
  | nil => simp at trailing
  | @name name segment rest below fit matched ih =>
    rcases above with ⟨tail, rfl⟩
    have inner : rest ≠ [] := by
      intro nothing
      simp [nothing] at trailing
    rw [List.getLast?_cons_of_ne_nil inner] at trailing
    exact .name fit (ih trailing (List.prefix_append below tail))
  | @directories rest skipped below inner matched ih =>
    rcases above with ⟨tail, rfl⟩
    rw [List.getLast?_cons_of_ne_nil inner] at trailing
    rw [List.append_assoc]
    exact .directories inner (ih trailing (List.prefix_append below tail))
  | inside nonempty =>
    apply Matches.inside
    intro nothing
    subst nothing
    exact nonempty (List.prefix_nil.mp above)

theorem ignored_iff_of_trailing {patterns : List (List (Atom α))}
    (trailing : ∀ pattern ∈ patterns, pattern.getLast? = some .globstar) :
    Ignored fits patterns path ↔ ∃ pattern ∈ patterns, Matches fits pattern path := by
  apply Iff.intro
  · intro ignored
    rcases ignored with ⟨pattern, member, parent, above, matched⟩
    exact ⟨pattern, member, matched.descend (trailing pattern member) above⟩
  · intro matching
    rcases matching with ⟨pattern, member, matched⟩
    exact ⟨pattern, member, path, List.prefix_rfl, matched⟩

/-- `first/second/**` and its floating form together reach what lies inside a `second` directory
    that stands directly in a `first` directory. -/
theorem ignored_pair_iff {first second : α} :
    Ignored fits [[.name first, .name second, .globstar],
        [.globstar, .name first, .name second, .globstar]] path ↔
      Paths.Adjacent (fun upper lower => fits first upper = true ∧ fits second lower = true) path.dropLast := by
  rw [ignored_iff_of_trailing (by simp), Paths.adjacent_dropLast]
  simp only [List.mem_cons, List.not_mem_nil, or_false, exists_eq_or_imp, exists_eq_left, matches_name_iff,
    matches_inside_iff, matches_directories_iff (List.cons_ne_nil _ _)]
  apply Iff.intro
  · intro matched
    rcases matched with ⟨upper, _, rfl, fitUpper, lower, inside, rfl, fitLower, nonempty⟩ |
      ⟨skipped, _, rfl, upper, _, rfl, fitUpper, lower, inside, rfl, fitLower, nonempty⟩
    · exact ⟨[], upper, lower, inside, rfl, ⟨fitUpper, fitLower⟩, nonempty⟩
    · exact ⟨skipped, upper, lower, inside, rfl, ⟨fitUpper, fitLower⟩, nonempty⟩
  · intro followed
    rcases followed with ⟨skipped, upper, lower, inside, rfl, ⟨fitUpper, fitLower⟩, nonempty⟩
    exact .inr ⟨skipped, _, rfl, upper, _, rfl, fitUpper, lower, inside, rfl, fitLower, nonempty⟩

end Gitignore
