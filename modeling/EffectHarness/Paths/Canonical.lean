import EffectHarness.Paths.Posix

namespace Paths

section Resolution

variable {α : Type*} {skip up : α → Bool} {path stack ups names : List α}

/-- Nothing is left to resolve: the path goes up first, and only then down. -/
def Canonical (skip up : α → Bool) (path : List α) : Prop :=
  ∃ ups names, path = ups ++ names ∧ (∀ segment ∈ ups, up segment = true) ∧
    ∀ segment ∈ names, Plain skip up segment

theorem Canonical.concat_plain (canonical : Canonical skip up path) {segment : α} (level : Plain skip up segment) :
    Canonical skip up (path ++ [segment]) := by
  rcases canonical with ⟨ups, names, shape, climbs, plain⟩
  have longer : ∀ other ∈ names ++ [segment], Plain skip up other :=
    List.forall_mem_append.mpr ⟨plain, by simpa using level⟩
  exact ⟨ups, names ++ [segment], by simp [shape], climbs, longer⟩

theorem canonical_ups (climbs : ∀ segment ∈ path, up segment = true) : Canonical skip up path :=
  ⟨path, [], by simp, climbs, by simp⟩

theorem canonical_push (canonical : Canonical skip up stack.reverse) (segment : α) :
    Canonical skip up (push skip up stack segment).reverse := by
  rw [push.eq_def]
  by_cases skipped : skip segment = true
  · rw [if_pos skipped]
    exact canonical
  · by_cases goesUp : up segment = true
    · rcases canonical with ⟨ups, names, shape, climbs, plain⟩
      rw [if_neg skipped, if_pos goesUp]
      -- The last component of the path is on top of the stack.
      rcases List.eq_nil_or_concat names with nothing | ⟨front, last, names_eq⟩
      · have higher : ∀ other ∈ ups ++ [segment], up other = true :=
          List.forall_mem_append.mpr ⟨climbs, by simpa using goesUp⟩
        subst nothing
        rw [List.append_nil] at shape
        cases stack with
        | nil => exact canonical_ups (by simpa using goesUp)
        | cons top rest =>
          have topUp : up top = true := climbs top (by rw [← shape]; simp)
          have piled : (segment :: top :: rest).reverse = ups ++ [segment] := by
            rw [List.reverse_cons, shape]
          simp only [topUp, ↓reduceIte, piled]
          exact canonical_ups higher
      · subst names_eq
        have level : up last = false := (plain last (by simp)).2
        have stacked : stack = last :: (ups ++ front).reverse := by
          rw [← List.reverse_reverse stack, shape]
          simp
        rw [stacked]
        simp only [level, Bool.false_eq_true, ↓reduceIte, List.reverse_reverse]
        exact ⟨ups, front, rfl, climbs, fun other member => plain other (by simp [member])⟩
    · have level : Plain skip up segment := ⟨Bool.not_eq_true _ ▸ skipped, Bool.not_eq_true _ ▸ goesUp⟩
      rw [if_neg skipped, if_neg goesUp, List.reverse_cons]
      exact canonical.concat_plain level

theorem canonical_normalize (skip up : α → Bool) (path : List α) : Canonical skip up (normalize skip up path) := by
  rw [normalize]
  induction path using List.reverseRecOn with
  | nil => exact ⟨[], [], rfl, by simp, by simp⟩
  | append_singleton path segment ih =>
    rw [List.foldl_append, List.foldl_cons, List.foldl_nil]
    exact canonical_push ih segment

theorem mem_push {segment other : α} (member : other ∈ push skip up stack segment) :
    other = segment ∨ other ∈ stack := by
  rw [push.eq_def] at member
  split at member
  · exact .inr member
  · split at member
    · split at member
      · exact .inl (List.mem_singleton.mp member)
      · split at member
        · exact List.mem_cons.mp member
        · exact .inr (List.mem_cons_of_mem _ member)
    · exact List.mem_cons.mp member

theorem mem_of_mem_normalize {segment : α} (member : segment ∈ normalize skip up path) : segment ∈ path := by
  rw [normalize, List.mem_reverse] at member
  induction path using List.reverseRecOn with
  | nil => simp at member
  | append_singleton path last ih =>
    rw [List.foldl_append, List.foldl_cons, List.foldl_nil] at member
    rcases mem_push member with rfl | earlier
    · simp
    · simp [ih earlier]

theorem Canonical.dropWhile (canonical : Canonical skip up path) :
    ∀ segment ∈ path.dropWhile up, Plain skip up segment := by
  rcases canonical with ⟨ups, names, rfl, climbs, plain⟩
  rw [List.dropWhile_append_of_pos climbs]
  intro segment member
  exact plain segment (List.dropWhile_sublist _ |>.subset member)

end Resolution

theorem not_mem_of_mem_segments {text : String} {segment : Segment} (member : segment ∈ segments text) :
    '/' ∉ segment := by
  rw [segments] at member
  generalize text.toList = characters at member
  induction characters generalizing segment with
  | nil => simp_all
  | cons first rest ih =>
    rw [List.splitOn_cons_eq_if_modifyHead] at member
    split at member
    · rcases List.mem_cons.mp member with rfl | later
      · simp
      · exact ih later
    · rename_i differs
      cases split : rest.splitOn '/' with
      | nil => exact absurd split (List.splitOn_ne_nil _ _)
      | cons head tail =>
        rw [split, List.modifyHead_cons] at member
        rcases List.mem_cons.mp member with rfl | later
        · have apart : '/' ∉ head := ih (by rw [split]; simp)
          simpa [apart] using Ne.symm (by simpa using differs)
        · exact ih (by rw [split]; simp [later])

end Paths
