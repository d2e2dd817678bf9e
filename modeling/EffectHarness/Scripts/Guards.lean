namespace Scripts

variable {ε α β : Type}

def require (condition : Bool) (error : ε) : Except ε Unit :=
  if condition then .ok () else .error error

def expect (result : Option α) (error : ε) : Except ε α :=
  match result with
  | some value => .ok value
  | none => .error error

@[simp] theorem bind_eq_ok {step : Except ε α} {rest : α → Except ε β} {result : β} :
    (step >>= rest) = .ok result ↔ ∃ value, step = .ok value ∧ rest value = .ok result := by
  cases step <;> simp [Bind.bind, Except.bind]

@[simp] theorem pure_eq_ok {value result : α} : (pure value : Except ε α) = .ok result ↔ value = result := by
  simp [pure, Except.pure]

@[simp] theorem require_eq_ok {condition : Bool} {error : ε} {result : Unit} :
    require condition error = .ok result ↔ condition = true := by
  cases condition <;> simp [require]

@[simp] theorem expect_eq_ok {result : Option α} {error : ε} {value : α} :
    expect result error = .ok value ↔ result = some value := by
  cases result <;> simp [expect]

theorem forM_eq_ok {items : List α} {step : α → Except ε Unit} :
    forM items step = .ok () ↔ ∀ item ∈ items, step item = .ok () := by
  induction items with
  | nil => simp [Pure.pure, Except.pure]
  | cons item items ih =>
    rw [List.forM_cons, bind_eq_ok, List.forall_mem_cons, ← ih]
    apply Iff.intro
    · intro passed
      rcases passed with ⟨_, first, rest⟩
      exact ⟨first, rest⟩
    · intro passed
      rcases passed with ⟨first, rest⟩
      exact ⟨(), first, rest⟩

def report (problem : Option ε) : Except ε Unit :=
  match problem with
  | none => .ok ()
  | some error => .error error

/-- A loop of checks ends in the first problem that one of them has. -/
theorem forM_eq_findSome {items : List α} {step : α → Except ε Unit} {problem : α → Option ε}
    (each : ∀ item ∈ items, step item = report (problem item)) :
    forM items step = report (items.findSome? problem) := by
  induction items with
  | nil => rfl
  | cons item items ih =>
    obtain ⟨first, rest⟩ := List.forall_mem_cons.mp each
    rw [List.forM_cons, first, List.findSome?_cons]
    cases problem item with
    | none => exact ih rest
    | some error => rfl

end Scripts
