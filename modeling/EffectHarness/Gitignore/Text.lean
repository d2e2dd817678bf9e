import EffectHarness.Gitignore.Pattern
import EffectHarness.Paths.Posix

namespace Gitignore

open Paths

def foldCase (segment : Segment) : Segment := segment.map Char.toLower

def fitsFolded (name segment : Segment) : Bool := foldCase name == foldCase segment

/-- The components of a path. A final slash only marks a directory. -/
def pathSegments (text : String) : List Segment :=
  if (segments text).getLast? = some [] then (segments text).dropLast else segments text

def isSpecial (character : Char) : Bool :=
  character ∈ ['*', '?', '[', ']', '\\', '!', '#', ' ']

def parseSegment (segment : Segment) : Option (Atom Segment) :=
  if segment = ['*', '*'] then some .globstar
  else if segment = [] ∨ segment.any isSpecial then none
  else some (.name segment)

/-- The patterns made of literal names and `**`; every other line is outside this reading. A slash
    at the beginning or in the middle anchors the pattern, without one it floats. -/
def parse (pattern : String) : Option (List (Atom Segment)) :=
  match segments pattern with
  | [segment] => do return [.globstar, ← parseSegment segment]
  | [] :: rest => rest.mapM parseSegment
  | anchored => anchored.mapM parseSegment

end Gitignore
