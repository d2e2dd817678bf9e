namespace Git

abbrev Bytes := List UInt8

inductive FileMode
  | regular
  | executable
  deriving DecidableEq

structure FileEntry where
  mode : FileMode
  bytes : Bytes
  deriving DecidableEq

abbrev Tree := String → Option FileEntry

/-- The three views of a file: the last commit, what is staged, and what is on disk. -/
structure Repository where
  head : Tree
  index : Tree
  worktree : Tree

def readFile (tree : Tree) (path : String) : Option Bytes := (tree path).map FileEntry.bytes

def writeFile (tree : Tree) (path : String) (bytes : Bytes) : Tree :=
  fun other => if other = path then some { mode := .regular, bytes := bytes } else tree other

@[simp] theorem readFile_writeFile (tree : Tree) (path : String) (bytes : Bytes) :
    readFile (writeFile tree path bytes) path = some bytes := by
  simp [readFile, writeFile]

theorem readFile_writeFile_of_ne (tree : Tree) {path other : String} (bytes : Bytes) (apart : other ≠ path) :
    readFile (writeFile tree path bytes) other = readFile tree other := by
  simp [readFile, writeFile, apart]

variable {repository : Repository} {path : String} {entry : FileEntry}

def Untracked (repository : Repository) (path : String) : Prop :=
  repository.head path = none ∧ repository.index path = none

def Clean (repository : Repository) (path : String) : Prop :=
  repository.index path ≠ none ∧ repository.head path = repository.worktree path

/-- `git diff HEAD` compares the last commit with the disk for the files of the two trees it knows. A file
    that left the index counts as deleted, and one that is nowhere tracked is not looked at. -/
def shown (repository : Repository) (path : String) : Bool :=
  match repository.head path, repository.index path with
  | none, none => false
  | some _, none => true
  | none, some _ => (repository.worktree path).isSome
  | some committed, some _ => repository.worktree path != some committed

theorem shown_eq_false_iff (present : repository.worktree path = some entry) :
    shown repository path = false ↔ Untracked repository path ∨ Clean repository path := by
  unfold shown Untracked Clean
  cases repository.head path with
  | none => cases repository.index path <;> simp [present]
  | some committed =>
    cases repository.index path with
    | none => simp
    | some staged => simpa [present] using eq_comm

theorem Clean.sameBytes (clean : Clean repository path) :
    readFile repository.head path = readFile repository.worktree path := by
  rw [readFile, readFile, clean.2]

theorem Untracked.readFile_head (untracked : Untracked repository path) :
    readFile repository.head path = none := by
  rw [readFile, untracked.1, Option.map_none]

end Git
