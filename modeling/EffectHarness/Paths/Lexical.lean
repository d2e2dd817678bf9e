import EffectHarness.Paths.Adjacent

namespace Paths

variable {α : Type*}

/-- One component acting on the stack of components kept so far, the innermost one on top.
    Nothing is cancelled against a component that itself goes up. -/
def push (skip up : α → Bool) (stack : List α) (segment : α) : List α :=
  if skip segment then stack
  else if up segment then
    match stack with
    | [] => [segment]
    | top :: rest => if up top then segment :: top :: rest else rest
  else segment :: stack

/-- Lexical resolution: no file system is consulted. -/
def normalize (skip up : α → Bool) (path : List α) : List α :=
  (path.foldl (push skip up) []).reverse

def Plain (skip up : α → Bool) (segment : α) : Prop :=
  skip segment = false ∧ up segment = false

instance (skip up : α → Bool) (segment : α) : Decidable (Plain skip up segment) :=
  inferInstanceAs (Decidable (_ ∧ _))

section Resolution

variable {skip up : α → Bool} {path stack names dots : List α}

theorem push_plain {segment : α} (plain : Plain skip up segment) :
    push skip up stack segment = segment :: stack := by
  simp [push, plain.1, plain.2]

theorem foldl_push_plain (plain : ∀ segment ∈ names, Plain skip up segment) :
    names.foldl (push skip up) stack = names.reverse ++ stack := by
  induction names generalizing stack with
  | nil => rfl
  | cons name names ih =>
    rw [List.foldl_cons, push_plain (plain name (by simp)), ih fun _ member => plain _ (by simp [member])]
    simp

theorem normalize_append_plain (plain : ∀ segment ∈ names, Plain skip up segment) :
    normalize skip up (path ++ names) = normalize skip up path ++ names := by
  simp [normalize, List.foldl_append, foldl_push_plain plain]

theorem normalize_plain (plain : ∀ segment ∈ names, Plain skip up segment) :
    normalize skip up names = names := by
  rw [normalize, foldl_push_plain plain, List.append_nil, List.reverse_reverse]

/-- Dot components only take components off the stack, or pile up once it is used up. -/
theorem foldl_push_dots (stack : List α) (dot : ∀ segment ∈ dots, skip segment = true ∨ up segment = true)
    (ups : List α) (climbs : ∀ segment ∈ ups, up segment = true) (depth : Nat) :
    ∃ ups' depth', dots.foldl (push skip up) (ups ++ stack.drop depth) = ups' ++ stack.drop depth' ∧
      ∀ segment ∈ ups', up segment = true := by
  -- The stack stays a pile of dots over what is left of the old one; each dot lengthens the pile or digs deeper.
  induction dots generalizing ups depth with
  | nil => exact ⟨ups, depth, rfl, climbs⟩
  | cons segment dots ih =>
    have rest := fun ups climbs depth => ih (fun _ member => dot _ (by simp [member])) ups climbs depth
    rw [List.foldl_cons]
    by_cases skipped : skip segment = true
    · simpa [push, skipped] using rest ups climbs depth
    · have goesUp : up segment = true := (dot segment (by simp)).resolve_left skipped
      have piled : ∀ above ∈ segment :: ups, up above = true := by
        simpa [goesUp] using climbs
      cases ups with
      | cons top ups =>
        have topUp : up top = true := climbs top (by simp)
        simpa [push, skipped, goesUp, topUp] using rest (segment :: top :: ups) piled depth
      | nil =>
        cases below : stack.drop depth with
        | nil => simpa [push, skipped, goesUp, below] using rest [segment] piled depth
        | cons top lower =>
          by_cases topUp : up top = true
          · simpa [push, skipped, goesUp, below, topUp] using rest [segment] piled depth
          · have next : lower = stack.drop (depth + 1) := by
              rw [← List.tail_drop, below, List.tail_cons]
            simpa [push, skipped, goesUp, topUp, next] using rest [] (by simp) (depth + 1)

theorem adjacent_normalize_dots {related : α → α → Prop}
    (apart : ∀ second, up second = true → ∀ first, ¬ related first second)
    (dot : ∀ segment ∈ dots, skip segment = true ∨ up segment = true)
    (adjacent : Adjacent related (normalize skip up (path ++ dots))) :
    Adjacent related (normalize skip up path) := by
  obtain ⟨ups, depth, folded, climbs⟩ :=
    foldl_push_dots (path.foldl (push skip up) []) dot [] (by simp) 0
  rw [List.nil_append, List.drop_zero] at folded
  rw [normalize, List.foldl_append, folded, List.reverse_append,
    adjacent_append_of_unrelated_right
      (fun second member => apart second (climbs second (List.mem_reverse.mp member)))] at adjacent
  exact adjacent.of_infix (List.reverse_infix.mpr (List.drop_suffix _ _).isInfix)

theorem foldl_push_level (level : ∀ segment ∈ names, up segment = false) :
    names.foldl (push skip up) stack = (names.filter fun segment => !skip segment).reverse ++ stack := by
  induction names generalizing stack with
  | nil => rfl
  | cons name names ih =>
    rw [List.foldl_cons, ih fun _ member => level _ (by simp [member])]
    by_cases skipped : skip name = true
    · simp [push, skipped]
    · simp [push, skipped, level name (by simp)]

theorem adjacent_normalize_of_level {related : α → α → Prop} {first second : α}
    (pair : related first second) (plainFirst : Plain skip up first) (plainSecond : Plain skip up second)
    (level : ∀ segment ∈ names, up segment = false) :
    Adjacent related (normalize skip up (path ++ first :: second :: names)) := by
  have split : normalize skip up (path ++ first :: second :: names) =
      (path.foldl (push skip up) []).reverse ++ first :: second :: names.filter fun segment => !skip segment := by
    rw [normalize, List.foldl_append, List.foldl_cons, List.foldl_cons, push_plain plainFirst,
      push_plain plainSecond, foldl_push_level level]
    simp
  exact ⟨_, first, second, _, split, pair⟩

end Resolution

end Paths
