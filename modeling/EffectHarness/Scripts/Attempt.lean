import Mathlib.Data.List.AList

namespace Scripts

variable {Name Content : Type} [DecidableEq Name]

abbrev Directory (Name Content : Type) := AList fun _ : Name => Content

/-- What an external packing command did: the file it left behind, also when it failed afterwards. -/
structure Output (Name Content : Type) where
  written : Option (Name × Content)
  succeeds : Bool

def Output.write (output : Output Name Content) (directory : Directory Name Content) : Directory Name Content :=
  match output.written with
  | none => directory
  | some (name, content) => directory.insert name content

def Output.fresh (wanted : Name → Bool) (output : Output Name Content) (directory : Directory Name Content) :
    Bool :=
  output.succeeds && output.written.any fun file => wanted file.1 && decide (file.1 ∉ directory)

def created (wanted : Name → Bool) (before after : List Name) : List Name :=
  after.filter fun name => wanted name && decide (name ∉ before)

/-- An attempt is a list of steps, and the first one that fails ends it. -/
inductive Step (Name Content : Type)
  | check (passes : Bool)
  | pack (output : Output Name Content)

def runSteps (wanted : Name → Bool) :
    List (Step Name Content) → Directory Name Content → Bool × Directory Name Content
  | [], directory => (true, directory)
  | .check passes :: steps, directory => if passes then runSteps wanted steps directory else (false, directory)
  | .pack output :: steps, directory =>
    if output.fresh wanted directory then runSteps wanted steps (output.write directory)
    else (false, output.write directory)

/-- The file that the attempt writes over an existing one, if it gets that far. -/
def collision (wanted : Name → Bool) :
    List (Step Name Content) → Directory Name Content → Option (Name × Content)
  | [], _ => none
  | .check passes :: steps, directory => if passes then collision wanted steps directory else none
  | .pack output :: steps, directory =>
    match output.written with
    | none => none
    | some (name, content) =>
      if name ∈ directory then some (name, content)
      else if output.fresh wanted directory then collision wanted steps (output.write directory)
      else none

variable {wanted : Name → Bool} {steps rest : List (Step Name Content)} {directory : Directory Name Content}
  {output : Output Name Content} {name : Name} {content : Content}

theorem created_of_subset {before after : List Name} (listed : after ⊆ before) :
    created wanted before after = [] := by
  rw [created, List.filter_eq_nil_iff]
  intro entry member
  have present : entry ∈ before := listed member
  simp [present]

theorem created_write :
    created wanted directory.keys (output.write directory).keys =
      match output.written with
      | none => []
      | some (name, _) => if wanted name = true ∧ name ∉ directory then [name] else [] := by
  rw [Output.write]
  cases output.written with
  | none => exact created_of_subset (List.Subset.refl _)
  | some file =>
    rcases file with ⟨name, content⟩
    have older : created wanted directory.keys (directory.keys.erase name) = [] :=
      created_of_subset List.erase_subset
    rw [created] at older ⊢
    dsimp only
    rw [AList.keys_insert, List.filter_cons, older]
    simp [AList.mem_keys]

theorem fresh_iff :
    output.fresh wanted directory = true ↔ output.succeeds = true ∧
      ∃ name content, output.written = some (name, content) ∧ wanted name = true ∧ name ∉ directory := by
  rw [Output.fresh]
  cases output.written with
  | none => simp
  | some file =>
    rcases file with ⟨name, content⟩
    simp

theorem created_of_succeeds (succeeds : output.succeeds = true) :
    created wanted directory.keys (output.write directory).keys =
      if output.fresh wanted directory then (output.written.map Prod.fst).toList else [] := by
  rw [created_write, Output.fresh, succeeds]
  cases output.written <;> simp

theorem runSteps_append :
    runSteps wanted (steps ++ rest) directory =
      if (runSteps wanted steps directory).1 then runSteps wanted rest (runSteps wanted steps directory).2
      else runSteps wanted steps directory := by
  induction steps generalizing directory with
  | nil => simp [runSteps]
  | cons step steps ih =>
    cases step with
    | check passes => cases passes <;> simp [runSteps, ih]
    | pack output =>
      by_cases fresh : output.fresh wanted directory = true
      · simp [runSteps, fresh, ih]
      · simp [runSteps, fresh]

/-- Files that were there before keep their content, except the one that the attempt writes over. -/
theorem lookup_runSteps (present : name ∈ directory) :
    (runSteps wanted steps directory).2.lookup name =
      match collision wanted steps directory with
      | none => directory.lookup name
      | some (hit, content) => if name = hit then some content else directory.lookup name := by
  induction steps generalizing directory with
  | nil => rfl
  | cons step steps ih =>
    cases step with
    | check passes =>
      cases passes with
      | true => simpa [runSteps, collision] using ih present
      | false => simp [runSteps, collision]
    | pack output =>
      cases written : output.written with
      | none => simp [runSteps, collision, Output.fresh, Output.write, written]
      | some file =>
        rcases file with ⟨hit, content⟩
        -- A pack onto an existing file ends the attempt, so there is at most one collision.
        by_cases taken : hit ∈ directory
        · have stale : output.fresh wanted directory = false := by simp [Output.fresh, written, taken]
          simp only [runSteps, collision, stale, Output.write, written, taken, ↓reduceIte, Bool.false_eq_true]
          by_cases same : name = hit
          · rw [if_pos same, same, AList.lookup_insert]
          · rw [if_neg same, AList.lookup_insert_ne same]
        · have apart : name ≠ hit := fun same => taken (same ▸ present)
          have kept : (output.write directory).lookup name = directory.lookup name := by
            rw [Output.write, written]
            exact AList.lookup_insert_ne apart
          by_cases fresh : output.fresh wanted directory = true
          · have still : name ∈ output.write directory := by
              rw [Output.write, written]
              exact (AList.mem_insert directory).mpr (.inr present)
            have rest := ih still
            rw [kept] at rest
            simpa only [runSteps, collision, written, taken, fresh, ↓reduceIte] using rest
          · simp [runSteps, collision, written, taken, fresh, kept]

theorem collision_eq_none_of_passes (passes : (runSteps wanted steps directory).1 = true) :
    collision wanted steps directory = none := by
  induction steps generalizing directory with
  | nil => rfl
  | cons step steps ih =>
    cases step with
    | check condition =>
      cases condition with
      | true => exact ih passes
      | false => simp [runSteps] at passes
    | pack output =>
      by_cases fresh : output.fresh wanted directory = true
      · obtain ⟨-, name, content, written, -, new⟩ := fresh_iff.mp fresh
        simp only [runSteps, fresh, ↓reduceIte] at passes
        simp [collision, written, new, fresh, ih passes]
      · simp [runSteps, fresh] at passes

/-- A passing attempt leaves every file it packed, with the content it packed. -/
theorem lookup_packed (passes : (runSteps wanted steps directory).1 = true) (packed : .pack output ∈ steps) :
    ∃ name content, output.written = some (name, content) ∧ wanted name = true ∧
      (runSteps wanted steps directory).2.lookup name = some content := by
  induction steps generalizing directory with
  | nil => simp at packed
  | cons step steps ih =>
    cases step with
    | check condition =>
      have later : Step.pack output ∈ steps := by simpa using packed
      cases condition with
      | true => exact ih passes later
      | false => simp [runSteps] at passes
    | pack first =>
      by_cases fresh : first.fresh wanted directory = true
      · simp only [runSteps, fresh, ↓reduceIte] at passes ⊢
        rcases List.mem_cons.mp packed with same | later
        · cases same
          obtain ⟨-, name, content, written, kind, new⟩ := fresh_iff.mp fresh
          have there : name ∈ output.write directory := by
            rw [Output.write, written]
            exact (AList.mem_insert directory).mpr (.inl rfl)
          have kept : (runSteps wanted steps (output.write directory)).2.lookup name = some content := by
            rw [lookup_runSteps there, collision_eq_none_of_passes passes, Output.write, written]
            exact AList.lookup_insert directory
          exact ⟨name, content, written, kind, kept⟩
        · exact ih passes later
      · simp [runSteps, fresh] at passes

theorem mem_write (present : name ∈ directory) : name ∈ output.write directory := by
  rw [Output.write]
  cases output.written with
  | none => exact present
  | some file => exact (AList.mem_insert directory).mpr (.inr present)

theorem mem_runSteps (present : name ∈ directory) : name ∈ (runSteps wanted steps directory).2 := by
  induction steps generalizing directory with
  | nil => exact present
  | cons step steps ih =>
    cases step with
    | check passes =>
      cases passes with
      | true => exact ih present
      | false => exact present
    | pack output =>
      by_cases fresh : output.fresh wanted directory = true
      · simpa [runSteps, fresh] using ih (mem_write present)
      · simpa [runSteps, fresh] using mem_write present

def Step.packed : Step Name Content → Option Name
  | .check _ => none
  | .pack output => output.written.map Prod.fst

/-- The step passes if it comes first. -/
def Step.Sound (wanted : Name → Bool) (directory : Directory Name Content) : Step Name Content → Prop
  | .check passes => passes = true
  | .pack output => output.fresh wanted directory = true

theorem sound_write_iff (written : output.written = some (name, content)) (step : Step Name Content) :
    step.Sound wanted (output.write directory) ↔ step.Sound wanted directory ∧ step.packed ≠ some name := by
  cases step with
  | check passes => simp [Step.Sound, Step.packed]
  | pack other =>
    simp only [Step.Sound, Step.packed, fresh_iff, Output.write, written, AList.mem_insert, not_or]
    apply Iff.intro
    · intro fresh
      rcases fresh with ⟨succeeds, hit, packed, found, kind, apart, new⟩
      have differs : other.written.map Prod.fst ≠ some name := by
        simpa [found] using apart
      exact ⟨⟨succeeds, hit, packed, found, kind, new⟩, differs⟩
    · intro fresh
      rcases fresh with ⟨⟨succeeds, hit, packed, found, kind, new⟩, differs⟩
      have apart : hit ≠ name := by
        simpa [found] using differs
      exact ⟨succeeds, hit, packed, found, kind, apart, new⟩

/-- An attempt passes exactly if every step of it would pass on its own and no name is packed twice. -/
theorem runSteps_passes_iff :
    (runSteps wanted steps directory).1 = true ↔
      (∀ step ∈ steps, step.Sound wanted directory) ∧ (steps.filterMap Step.packed).Nodup := by
  induction steps generalizing directory with
  | nil => simp [runSteps]
  | cons step steps ih =>
    cases step with
    | check passes =>
      have unnamed : (Step.check passes : Step Name Content).packed = none := rfl
      have own : (Step.check passes).Sound wanted directory ↔ passes = true := Iff.rfl
      rw [List.filterMap_cons_none unnamed, List.forall_mem_cons, own]
      cases passes <;> simp [runSteps, ih]
    | pack output =>
      by_cases fresh : output.fresh wanted directory = true
      · obtain ⟨-, name, content, written, -, -⟩ := fresh_iff.mp fresh
        have later : (∀ step ∈ steps, step.Sound wanted (output.write directory)) ↔
            (∀ step ∈ steps, step.Sound wanted directory) ∧ name ∉ steps.filterMap Step.packed := by
          simp only [sound_write_iff written, List.mem_filterMap, not_exists, not_and, ← forall₂_and]
        have named : (Step.pack output).packed = some name := by simp [Step.packed, written]
        have own : (Step.pack output).Sound wanted directory := fresh
        rw [List.filterMap_cons_some named, List.nodup_cons, List.forall_mem_cons]
        simp only [runSteps, fresh, ↓reduceIte, ih, later, own, true_and, and_assoc]
      · have unsound : ¬ (Step.pack output).Sound wanted directory := fresh
        simp [runSteps, fresh, unsound]

end Scripts
