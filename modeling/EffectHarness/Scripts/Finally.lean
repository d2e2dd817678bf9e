import EffectHarness.Scripts.Script

namespace Scripts

variable {ε σ α β : Type} {script body : EStateM ε σ α} {cleanup : EStateM ε σ β} {state : σ}

/-- The error that a script ended in. -/
def thrown (result : EStateM.Result ε σ α) : Option ε :=
  match result with
  | .ok _ _ => none
  | .error error _ => some error

theorem tryFinally_apply :
    tryFinally body cleanup state =
      match body state with
      | .ok value middle =>
        match cleanup middle with
        | .ok _ after => .ok value after
        | .error error after => .error error after
      | .error error middle =>
        match cleanup middle with
        | .ok _ after => .error error after
        | .error later after => .error later after := by
  simp only [tryFinally, tryFinally', Functor.map, EStateM.map]
  cases body state with
  | ok value middle =>
    dsimp only
    cases cleanup middle <;> rfl
  | error error middle =>
    dsimp only
    cases cleanup middle <;> rfl

/-- The cleanup runs on whatever the body leaves. -/
theorem finalState_tryFinally :
    finalState (tryFinally body cleanup state) = finalState (cleanup (finalState (body state))) := by
  rw [tryFinally_apply]
  cases body state with
  | ok value middle =>
    dsimp only [finalState]
    cases cleanup middle <;> rfl
  | error error middle =>
    dsimp only [finalState]
    cases cleanup middle <;> rfl

/-- An error of the cleanup takes the place of the error of the body. -/
theorem thrown_tryFinally :
    thrown (tryFinally body cleanup state) = (thrown (cleanup (finalState (body state)))).or (thrown (body state)) := by
  rw [tryFinally_apply]
  cases body state with
  | ok value middle =>
    dsimp only [finalState]
    cases cleanup middle <;> rfl
  | error error middle =>
    dsimp only [finalState]
    cases cleanup middle <;> rfl

end Scripts
