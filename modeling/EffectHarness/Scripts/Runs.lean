import Mathlib.Data.List.Basic

namespace Scripts

variable {State Event : Type} {step : State → Event → State} {property condition : State → Event → Prop}
  {invariant : State → Prop} {state : State} {event : Event} {events : List Event}

/-- The property holds of every event of the run, in the state in which it happens. -/
def AtEach (step : State → Event → State) (property : State → Event → Prop) (state : State)
    (events : List Event) : Prop :=
  ∀ before event after, events = before ++ event :: after → property (before.foldl step state) event

theorem atEach_nil : AtEach step property state [] := by
  intro before event after split
  cases before <;> simp at split

theorem atEach_cons :
    AtEach step property state (event :: events) ↔
      property state event ∧ AtEach step property (step state event) events := by
  apply Iff.intro
  · intro each
    have first : property state event := each [] event events rfl
    have rest : AtEach step property (step state event) events := by
      intro before other after split
      have earlier : event :: events = (event :: before) ++ other :: after := by rw [split, List.cons_append]
      exact each (event :: before) other after earlier
    exact ⟨first, rest⟩
  · intro each before other after split
    rcases each with ⟨first, rest⟩
    cases before with
    | nil =>
      obtain ⟨same, -⟩ := List.cons.inj split
      rw [← same]
      exact first
    | cons head before =>
      obtain ⟨same, tail⟩ := List.cons.inj split
      rw [List.foldl_cons, ← same]
      exact rest before other after tail

theorem invariant_foldl (initial : invariant state)
    (preserved : ∀ state event, invariant state → condition state event → invariant (step state event))
    (each : AtEach step condition state events) : invariant (events.foldl step state) := by
  induction events generalizing state with
  | nil => exact initial
  | cons event events ih =>
    obtain ⟨first, rest⟩ := atEach_cons.mp each
    exact ih (preserved state event initial first) rest

/-- What each event either keeps or adds holds at the end of a run if it held before, or if an event added it. -/
theorem foldl_accumulates (holds : State → Prop) {adds : State → Event → Prop}
    (each : ∀ state event, holds (step state event) ↔ holds state ∨ adds state event)
    (state : State) (events : List Event) :
    holds (events.foldl step state) ↔
      holds state ∨ ∃ before event after, events = before ++ event :: after ∧ adds (before.foldl step state) event := by
  induction events generalizing state with
  | nil => simp
  | cons event events ih =>
    rw [List.foldl_cons, ih, each, or_assoc]
    apply or_congr_right
    apply Iff.intro
    · intro added
      rcases added with now | ⟨before, later, after, split, adds⟩
      · exact ⟨[], event, events, rfl, now⟩
      · exact ⟨event :: before, later, after, by rw [split, List.cons_append], adds⟩
    · intro added
      rcases added with ⟨before, adder, after, split, adds⟩
      cases before with
      | nil =>
        obtain ⟨same, -⟩ := List.cons.inj split
        rw [same]
        exact .inl adds
      | cons first before =>
        obtain ⟨same, rest⟩ := List.cons.inj split
        subst same
        exact .inr ⟨before, adder, after, rest, adds⟩

end Scripts
