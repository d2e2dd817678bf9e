import EffectHarness.Scripts.Attempt
import EffectHarness.Scripts.Script

namespace Scripts

variable {Name Content ε σ φ α β : Type} [DecidableEq Name]

/-- The script packs exactly as the attempt does, ends as it ends, and leaves the framed part of the state
    alone. -/
def Performs (wanted : Name → Bool) (files : σ → Directory Name Content) (frame : σ → φ)
    (script : EStateM ε σ α) (steps : List (Step Name Content)) (returns : α → Prop) : Prop :=
  ∀ state, match script state with
    | .ok value after =>
      returns value ∧ runSteps wanted steps (files state) = (true, files after) ∧ frame after = frame state
    | .error _ after => runSteps wanted steps (files state) = (false, files after) ∧ frame after = frame state

variable {wanted : Name → Bool} {files : σ → Directory Name Content} {frame : σ → φ}
  {script : EStateM ε σ α} {steps more : List (Step Name Content)} {returns : α → Prop}

theorem Performs.bind {rest : α → EStateM ε σ β} {result : β → Prop}
    (first : Performs wanted files frame script steps returns)
    (second : ∀ value, returns value → Performs wanted files frame (rest value) more result) :
    Performs wanted files frame (script >>= rest) (steps ++ more) result := by
  intro state
  have start := first state
  rw [runSteps_append, bind_apply]
  cases ran : script state with
  | error error after =>
    rw [ran] at start
    rcases start with ⟨fails, framed⟩
    dsimp only
    rw [fails]
    exact ⟨rfl, framed⟩
  | ok value middle =>
    rw [ran] at start
    rcases start with ⟨returned, passes, framed⟩
    have finish := second value returned middle
    dsimp only
    rw [passes]
    cases continued : rest value middle with
    | error error after =>
      rw [continued] at finish
      exact ⟨finish.1, finish.2.trans framed⟩
    | ok output after =>
      rw [continued] at finish
      exact ⟨finish.1, finish.2.1, finish.2.2.trans framed⟩

theorem Performs.pure {value : α} (returned : returns value) :
    Performs wanted files frame (Pure.pure value : EStateM ε σ α) [] returns :=
  fun _ => ⟨returned, rfl, rfl⟩

theorem Performs.check {result : Except ε α} {passes : Bool} (same : result.isOk = passes)
    (returned : ∀ value, result = .ok value → returns value) :
    Performs wanted files frame (lift result) [.check passes] returns := by
  intro state
  cases result with
  | ok value =>
    rw [← same]
    exact ⟨returned value rfl, rfl, rfl⟩
  | error error =>
    rw [← same]
    exact ⟨rfl, rfl⟩

theorem Performs.modify {change : σ → σ} (sameFiles : ∀ state, files (change state) = files state)
    (sameFrame : ∀ state, frame (change state) = frame state) :
    Performs wanted files frame (modify change : EStateM ε σ Unit) [] fun _ => True :=
  fun state => ⟨trivial, by rw [sameFiles]; rfl, sameFrame state⟩

theorem Performs.bind_step {step : Step Name Content} {rest : α → EStateM ε σ β} {result : β → Prop}
    (first : Performs wanted files frame script [step] returns)
    (second : ∀ value, returns value → Performs wanted files frame (rest value) more result) :
    Performs wanted files frame (script >>= rest) (step :: more) result :=
  first.bind second

theorem Performs.bind_idle {rest : α → EStateM ε σ β} {result : β → Prop}
    (first : Performs wanted files frame script [] returns)
    (second : ∀ value, returns value → Performs wanted files frame (rest value) more result) :
    Performs wanted files frame (script >>= rest) more result :=
  first.bind second

end Scripts
