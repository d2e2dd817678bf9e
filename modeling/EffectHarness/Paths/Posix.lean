import EffectHarness.Paths.Lexical

namespace Paths

abbrev Segment := List Char

def segments (text : String) : List Segment := text.toList.splitOn '/'

def isSkip (segment : Segment) : Bool := segment == [] || segment == ['.']

def isUp (segment : Segment) : Bool := segment == ['.', '.']

def absolute (path : List Segment) : String :=
  String.ofList (if path = [] then ['/'] else (path.map fun segment => '/' :: segment).flatten)

/-- The absolute path that an absolute path text stands for; nothing lies above the root. -/
def resolve (text : String) : String :=
  absolute ((normalize isSkip isUp (segments text)).dropWhile isUp)

/-- A component that can name a file or a directory. -/
def IsName (segment : Segment) : Prop :=
  Plain isSkip isUp segment ∧ '/' ∉ segment

instance (segment : Segment) : Decidable (IsName segment) :=
  inferInstanceAs (Decidable (_ ∧ _))

variable {path : List Segment} {name : Segment}

theorem splitOn_append_of_not_mem {separator : Char} {front : List Char} (absent : separator ∉ front)
    (back : List Char) :
    (front ++ back).splitOn separator = (back.splitOn separator).modifyHead (front ++ ·) := by
  induction front with
  | nil =>
    have unchanged : (fun text : List Char => [] ++ text) = id := rfl
    rw [List.nil_append, unchanged, List.modifyHead_id, id]
  | cons first front ih =>
    have differs : (first == separator) = false := by
      rw [beq_eq_false_iff_ne]
      exact fun same => absent (by simp [same])
    rw [List.cons_append, List.splitOn_cons_eq_if_modifyHead, differs, if_neg (by simp),
      ih fun member => absent (by simp [member]), List.modifyHead_modifyHead]
    rfl

theorem segments_absolute (nonempty : path ≠ []) (named : ∀ segment ∈ path, IsName segment) :
    segments (absolute path) = [] :: path := by
  rw [segments, absolute, if_neg nonempty, String.toList_ofList]
  clear nonempty
  induction path with
  | nil => rfl
  | cons segment path ih =>
    have rest := ih fun other member => named other (by simp [member])
    have noSlash : '/' ∉ segment := (named segment (by simp)).2
    rw [List.map_cons, List.flatten_cons, List.cons_append, List.splitOn_cons_eq_if_modifyHead, if_pos (by simp),
      splitOn_append_of_not_mem noSlash, rest]
    simp

theorem resolve_absolute (nonempty : path ≠ []) (named : ∀ segment ∈ path, IsName segment) :
    resolve (absolute path) = absolute path := by
  have kept : normalize isSkip isUp ([] :: path) = path :=
    normalize_plain fun segment member => (named segment member).1
  have level : path.dropWhile isUp = path := by
    cases path with
    | nil => rfl
    | cons first path => simp [(named first (by simp)).1.2]
  rw [resolve, segments_absolute nonempty named, kept, level]

theorem absolute_append (nonempty : path ≠ []) (name : Segment) :
    (absolute (path ++ [name])).toList = (absolute path).toList ++ '/' :: name := by
  simp [absolute, nonempty]

end Paths
