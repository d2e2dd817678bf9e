import Mathlib.Data.List.Chain

namespace Paths

variable {α : Type*} {related : α → α → Prop} {left right path : List α}

def Adjacent (related : α → α → Prop) (path : List α) : Prop :=
  ∃ before first second after, path = before ++ first :: second :: after ∧ related first second

theorem adjacent_iff_not_isChain :
    Adjacent related path ↔ ¬ path.IsChain (fun first second => ¬ related first second) := by
  rw [List.isChain_iff_forall_rel_of_append_cons_cons]
  apply Iff.intro
  · intro adjacent chain
    rcases adjacent with ⟨before, first, second, after, split, pair⟩
    exact chain split pair
  · intro broken
    push Not at broken
    rcases broken with ⟨first, second, before, after, split, pair⟩
    exact ⟨before, first, second, after, split, pair⟩

instance [DecidableRel related] : Decidable (Adjacent related path) :=
  decidable_of_iff _ adjacent_iff_not_isChain.symm

theorem not_adjacent_nil : ¬ Adjacent related [] := by
  rw [adjacent_iff_not_isChain, not_not]
  exact .nil

theorem Adjacent.of_infix (adjacent : Adjacent related left) (inside : left <:+: path) :
    Adjacent related path := by
  rw [adjacent_iff_not_isChain] at adjacent ⊢
  intro chain
  rcases inside with ⟨before, after, rfl⟩
  exact adjacent chain.left_of_append.right_of_append

theorem adjacent_append :
    Adjacent related (left ++ right) ↔ Adjacent related left ∨ Adjacent related right ∨
      ∃ first ∈ left.getLast?, ∃ second ∈ right.head?, related first second := by
  simp only [adjacent_iff_not_isChain, List.isChain_append]
  push Not
  by_cases chain : left.IsChain (fun first second => ¬ related first second)
  · by_cases rest : right.IsChain (fun first second => ¬ related first second)
    · simp [chain, rest]
    · simp [rest]
  · simp [chain]

theorem not_adjacent_of_unrelated_left (apart : ∀ first ∈ left, ∀ second, ¬ related first second) :
    ¬ Adjacent related left := by
  intro adjacent
  rcases adjacent with ⟨before, first, second, after, split, pair⟩
  have member : first ∈ left := by simp [split]
  exact apart first member second pair

theorem not_adjacent_of_unrelated_right (apart : ∀ second ∈ right, ∀ first, ¬ related first second) :
    ¬ Adjacent related right := by
  intro adjacent
  rcases adjacent with ⟨before, first, second, after, split, pair⟩
  have member : second ∈ right := by simp [split]
  exact apart second member first pair

theorem adjacent_append_of_unrelated_left (apart : ∀ first ∈ left, ∀ second, ¬ related first second) :
    Adjacent related (left ++ right) ↔ Adjacent related right := by
  have junction : ¬ ∃ first ∈ left.getLast?, ∃ second ∈ right.head?, related first second := by
    intro across
    rcases across with ⟨first, last, second, -, pair⟩
    exact apart first (List.mem_of_getLast? last) second pair
  rw [adjacent_append, or_iff_right (not_adjacent_of_unrelated_left apart), or_iff_left junction]

theorem adjacent_append_of_unrelated_right (apart : ∀ second ∈ right, ∀ first, ¬ related first second) :
    Adjacent related (left ++ right) ↔ Adjacent related left := by
  have junction : ¬ ∃ first ∈ left.getLast?, ∃ second ∈ right.head?, related first second := by
    intro across
    rcases across with ⟨first, -, second, head, pair⟩
    exact apart second (List.mem_of_head? head) first pair
  rw [adjacent_append, or_iff_left (not_or.mpr ⟨not_adjacent_of_unrelated_right apart, junction⟩)]

theorem adjacent_dropLast :
    Adjacent related path.dropLast ↔ ∃ before first second after,
      path = before ++ first :: second :: after ∧ related first second ∧ after ≠ [] := by
  apply Iff.intro
  · intro adjacent
    rcases adjacent with ⟨before, first, second, after, split, pair⟩
    have nonempty : path ≠ [] := by
      intro nothing
      simp [nothing] at split
    have whole : path = before ++ first :: second :: (after ++ [path.getLast nonempty]) := by
      calc path = path.dropLast ++ [path.getLast nonempty] := (List.dropLast_append_getLast nonempty).symm
        _ = before ++ first :: second :: (after ++ [path.getLast nonempty]) := by rw [split]; simp
    exact ⟨before, first, second, after ++ [path.getLast nonempty], whole, pair, by simp⟩
  · intro followed
    rcases followed with ⟨before, first, second, after, split, pair, follows⟩
    have shorter : path.dropLast = before ++ first :: second :: after.dropLast := by
      rw [split, List.dropLast_append_of_ne_nil (by simp), List.dropLast_cons_of_ne_nil (by simp),
        List.dropLast_cons_of_ne_nil follows]
    exact ⟨before, first, second, after.dropLast, shorter, pair⟩

theorem Adjacent.inside_of_not_last (adjacent : Adjacent related path)
    (notLast : ∀ before first second, related first second → path ≠ before ++ [first, second]) :
    Adjacent related path.dropLast := by
  rcases adjacent with ⟨before, first, second, after, split, pair⟩
  have follows : after ≠ [] := by
    intro nothing
    rw [nothing] at split
    exact notLast before first second pair split
  exact adjacent_dropLast.mpr ⟨before, first, second, after, split, pair, follows⟩

end Paths
