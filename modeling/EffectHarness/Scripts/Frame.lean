import EffectHarness.Scripts.Script

namespace Scripts

variable {ε σ φ α β : Type}

def Keeps (view : σ → φ) (script : EStateM ε σ α) : Prop :=
  ∀ state, view (finalState (script state)) = view state

variable {view : σ → φ} {script : EStateM ε σ α}

theorem Keeps.bind {rest : α → EStateM ε σ β} (first : Keeps view script)
    (second : ∀ value, Keeps view (rest value)) : Keeps view (script >>= rest) := by
  intro state
  have start := first state
  rw [finalState_bind]
  cases ran : script state with
  | error error middle =>
    rw [ran] at start
    exact start
  | ok value middle =>
    rw [ran] at start
    exact (second value middle).trans start

theorem Keeps.pure {value : α} : Keeps view (Pure.pure value : EStateM ε σ α) := fun _ => rfl

theorem Keeps.get : Keeps view (get : EStateM ε σ σ) := fun _ => rfl

theorem Keeps.lift {result : Except ε α} : Keeps view (lift result) := by
  intro state
  cases result <;> rfl

theorem Keeps.modify {change : σ → σ} (same : ∀ state, view (change state) = view state) :
    Keeps view (modify change : EStateM ε σ Unit) := same

theorem Keeps.mapM {items : List α} {visit : α → EStateM ε σ β}
    (each : ∀ item, Keeps view (visit item)) : Keeps view (items.mapM visit) := by
  induction items with
  | nil => exact Keeps.pure
  | cons item items ih =>
    rw [List.mapM_cons]
    exact Keeps.bind (each item) fun _ => Keeps.bind ih fun _ => Keeps.pure

theorem Keeps.forM {items : List α} {visit : α → EStateM ε σ Unit} (each : ∀ item ∈ items, Keeps view (visit item)) :
    Keeps view (ForM.forM items visit) := by
  induction items with
  | nil => exact Keeps.pure
  | cons item items ih =>
    obtain ⟨first, rest⟩ := List.forall_mem_cons.mp each
    rw [List.forM_cons]
    exact Keeps.bind first fun _ => ih rest

end Scripts
