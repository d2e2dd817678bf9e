namespace Scripts

variable {ε σ α β : Type} {script : EStateM ε σ α} {state : σ}

def lift (result : Except ε α) : EStateM ε σ α :=
  match result with
  | .ok value => pure value
  | .error error => throw error

instance monadLiftExcept : MonadLift (Except ε) (EStateM ε σ) where
  monadLift := lift

theorem lift_eq (result : Except ε α) : (monadLift result : EStateM ε σ α) = lift result := rfl

theorem bind_apply {rest : α → EStateM ε σ β} :
    (script >>= rest) state =
      match script state with
      | .ok value middle => rest value middle
      | .error error middle => .error error middle := rfl

theorem get_bind_apply {rest : σ → EStateM ε σ α} : (get >>= rest) state = rest state state := rfl

theorem modify_bind_apply {change : σ → σ} {rest : Unit → EStateM ε σ α} :
    (modify change >>= rest) state = rest () (change state) := rfl

theorem lift_apply {result : Except ε α} :
    (lift result : EStateM ε σ α) state =
      match result with
      | .ok value => .ok value state
      | .error error => .error error state := by
  cases result <;> rfl

theorem lift_bind_apply {result : Except ε α} {rest : α → EStateM ε σ β} :
    (lift result >>= rest) state =
      match result with
      | .ok value => rest value state
      | .error error => .error error state := by
  cases result <;> rfl

theorem lift_bind {result : Except ε α} {rest : α → Except ε β} :
    (lift (result >>= rest) : EStateM ε σ β) = lift result >>= fun value => lift (rest value) := by
  cases result <;> rfl

theorem mapM_lift {visit : α → Except ε β} (items : List α) :
    items.mapM (fun item => (lift (visit item) : EStateM ε σ β)) = lift (items.mapM visit) := by
  induction items with
  | nil => rfl
  | cons item items ih =>
    simp only [List.mapM_cons, ih, lift_bind]
    rfl

def finalState (result : EStateM.Result ε σ α) : σ :=
  match result with
  | .ok _ state => state
  | .error _ state => state

theorem finalState_bind {rest : α → EStateM ε σ β} :
    finalState ((script >>= rest) state) =
      match script state with
      | .ok value middle => finalState (rest value middle)
      | .error _ middle => middle := by
  rw [bind_apply]
  cases script state <;> rfl

def passes (result : EStateM.Result ε σ α) : Bool :=
  match result with
  | .ok _ _ => true
  | .error _ _ => false

theorem passes_iff {result : EStateM.Result ε σ α} :
    passes result = true ↔ ∃ value after, result = .ok value after := by
  cases result <;> simp [passes]

end Scripts
