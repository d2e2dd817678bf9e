import EffectHarness.Scripts.Runs
import EffectHarness.Scripts.Script

namespace Scripts

variable {Command ε σ : Type}

section

variable (invoked : Command → Option (List Command)) (perform : Command → EStateM ε σ Unit)

/-- A list of commands joined by `&&`. A command is a tool, or it invokes another such list. -/
inductive Runs : List Command → σ → EStateM.Result ε σ Unit → Prop
  | done (state : σ) : Runs [] state (.ok () state)
  | tool {command : Command} {rest : List Command} {state middle : σ} {result : EStateM.Result ε σ Unit}
      (isTool : invoked command = none) (performed : perform command state = .ok () middle)
      (continued : Runs rest middle result) : Runs (command :: rest) state result
  | toolFails {command : Command} {rest : List Command} {state after : σ} {error : ε}
      (isTool : invoked command = none) (failed : perform command state = .error error after) :
      Runs (command :: rest) state (.error error after)
  | script {command : Command} {body rest : List Command} {state middle : σ} {result : EStateM.Result ε σ Unit}
      (isScript : invoked command = some body) (ran : Runs body state (.ok () middle))
      (continued : Runs rest middle result) : Runs (command :: rest) state result
  | scriptFails {command : Command} {body rest : List Command} {state after : σ} {error : ε}
      (isScript : invoked command = some body) (failed : Runs body state (.error error after)) :
      Runs (command :: rest) state (.error error after)

/-- The tools that a list comes down to, unless its scripts are nested deeper than that. -/
def expand : Nat → List Command → Option (List Command)
  | 0, _ => none
  | depth + 1, commands =>
    (commands.mapM fun command =>
      match invoked command with
      | none => some [command]
      | some body => expand depth body).map List.flatten

end

variable {invoked : Command → Option (List Command)} {perform : Command → EStateM ε σ Unit} {command : Command}
  {commands rest body tools : List Command} {depth : Nat} {state : σ} {result : EStateM.Result ε σ Unit}

theorem expand_cons (expanded : expand invoked (depth + 1) (command :: rest) = some tools) :
    ∃ front back, tools = front ++ back ∧ expand invoked (depth + 1) rest = some back ∧
      match invoked command with
      | none => front = [command]
      | some body => expand invoked depth body = some front := by
  simp only [expand, List.mapM_cons, Option.map_eq_some_iff] at expanded ⊢
  obtain ⟨parts, mapped, flat⟩ := expanded
  simp only [bind, Option.bind_eq_some_iff, pure, Option.some.injEq] at mapped
  obtain ⟨front, first, others, second, together⟩ := mapped
  subst together
  refine ⟨front, others.flatten, flat.symm, ⟨others, second, rfl⟩, ?_⟩
  cases kind : invoked command with
  | none =>
    rw [kind] at first
    exact (Option.some.inj first).symm
  | some body =>
    rw [kind] at first
    exact first

theorem forM_append_apply (front back : List Command) (state : σ) :
    forM (front ++ back) perform state =
      match forM front perform state with
      | .ok _ middle => forM back perform middle
      | .error error after => .error error after := by
  rw [List.forM_append, bind_apply]
  cases forM front perform state <;> rfl

theorem runs_tool_iff (isTool : invoked command = none) :
    Runs invoked perform (command :: rest) state result ↔
      match perform command state with
      | .ok _ middle => Runs invoked perform rest middle result
      | .error error after => result = .error error after := by
  apply Iff.intro
  · intro ran
    cases ran with
    | tool _ performed continued => simpa [performed] using continued
    | toolFails _ failed => simp [failed]
    | script isScript _ _ => simp [isTool] at isScript
    | scriptFails isScript _ => simp [isTool] at isScript
  · intro ran
    cases performed : perform command state with
    | ok value middle =>
      rw [performed] at ran
      exact .tool isTool performed ran
    | error error after =>
      rw [performed] at ran
      rw [ran]
      exact .toolFails isTool performed

theorem runs_script_iff (isScript : invoked command = some body) :
    Runs invoked perform (command :: rest) state result ↔
      (∃ middle, Runs invoked perform body state (.ok () middle) ∧ Runs invoked perform rest middle result) ∨
        ∃ error after, Runs invoked perform body state (.error error after) ∧ result = .error error after := by
  apply Iff.intro
  · intro ran
    cases ran with
    | tool isTool _ _ => simp [isScript] at isTool
    | toolFails isTool _ => simp [isScript] at isTool
    | script same ran continued =>
      cases isScript.symm.trans same
      exact .inl ⟨_, ran, continued⟩
    | scriptFails same failed =>
      cases isScript.symm.trans same
      exact .inr ⟨_, _, failed, rfl⟩
  · intro ran
    rcases ran with ⟨middle, ran, continued⟩ | ⟨error, after, failed, same⟩
    · exact .script isScript ran continued
    · rw [same]
      exact .scriptFails isScript failed

/-- Nested scripts do what their tools do one after the other: with the same state, and up to the same failure. -/
theorem runs_iff_of_expand (expanded : expand invoked depth commands = some tools) :
    Runs invoked perform commands state result ↔ forM tools perform state = result := by
  induction depth generalizing commands tools state result with
  | zero => cases expanded
  | succ depth deeper =>
    induction commands generalizing tools state with
    | nil =>
      cases expanded
      apply Iff.intro
      · intro ran
        cases ran
        rfl
      · intro same
        rw [← same]
        exact .done state
    | cons command rest ih =>
      obtain ⟨front, back, split, later, first⟩ := expand_cons expanded
      rw [split, forM_append_apply]
      cases kind : invoked command with
      | none =>
        rw [kind] at first
        subst first
        rw [runs_tool_iff kind]
        have single : forM [command] perform state = perform command state := by
          rw [List.forM_cons, bind_apply]
          cases perform command state <;> rfl
        rw [single]
        cases perform command state with
        | ok value middle => exact ih later
        | error error after => exact eq_comm
      | some body =>
        rw [kind] at first
        rw [runs_script_iff kind]
        simp only [deeper first, ih later]
        cases forM front perform state with
        | ok value middle => simp
        | error error after =>
          simp only [EStateM.Result.error.injEq, reduceCtorEq, false_and, exists_false, false_or]
          apply Iff.intro
          · intro failed
            rcases failed with ⟨_, _, ⟨sameError, sameState⟩, same⟩
            rw [same, sameError, sameState]
          · intro same
            exact ⟨error, after, ⟨rfl, rfl⟩, same.symm⟩

end Scripts
