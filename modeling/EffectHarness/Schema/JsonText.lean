import EffectHarness.Schema.Codec
import Mathlib.Algebra.Ring.Rat

namespace Schema

theorem Json.ind {motive : Json → Prop} (null : motive .null) (bool : ∀ value, motive (.bool value))
    (num : ∀ value, motive (.num value)) (str : ∀ text, motive (.str text))
    (arr : ∀ items, (∀ item ∈ items, motive item) → motive (.arr items))
    (obj : ∀ properties, (∀ pair ∈ properties, motive pair.2) → motive (.obj properties)) (json : Json) :
    motive json := by
  refine @Json.rec motive (fun items => ∀ item ∈ items, motive item)
    (fun properties => ∀ pair ∈ properties, motive pair.2) (fun pair => motive pair.2)
    null bool num str arr obj ?_ ?_ ?_ ?_ ?_ json
  · simp
  · intro item items first rest
    exact List.forall_mem_cons.mpr ⟨first, rest⟩
  · simp
  · intro pair properties first rest
    exact List.forall_mem_cons.mpr ⟨first, rest⟩
  · intro key value holds
    exact holds

abbrev Text := List Char

namespace Text

def escape (character : Char) : Text :=
  match character with
  | '"' => ['\\', '"']
  | '\\' => ['\\', '\\']
  | '\x08' => ['\\', 'b']
  | '\x0c' => ['\\', 'f']
  | '\n' => ['\\', 'n']
  | '\r' => ['\\', 'r']
  | '\t' => ['\\', 't']
  | _ =>
    if character.toNat < 32 then
      ['\\', 'u', '0', '0', Nat.digitChar (character.toNat / 16), Nat.digitChar (character.toNat % 16)]
    else [character]

def quote (text : String) : Text := '"' :: text.toList.flatMap escape ++ ['"']

def integer : Int → Text
  | .ofNat value => Nat.toDigits 10 value
  | .negSucc value => '-' :: Nat.toDigits 10 (value + 1)

/-- A line break and the indentation after it; without a gap everything stands on one line. -/
def newline (gap : Text) (depth : Nat) : Text :=
  if gap = [] then [] else '\n' :: (List.replicate depth gap).flatten

/-- What follows the first part of a container. -/
def trailing (inner outer : Text) (closing : Char) (parts : List Text) : Text :=
  (parts.flatMap fun part => ',' :: (inner ++ part)) ++ (outer ++ [closing])

def wrap (gap : Text) (depth : Nat) (opening closing : Char) : List Text → Text
  | [] => [opening, closing]
  | part :: parts =>
    opening :: (newline gap (depth + 1) ++
      (part ++ trailing (newline gap (depth + 1)) (newline gap depth) closing parts))

def colon (gap : Text) : Text := if gap = [] then [':'] else [':', ' ']

mutual

/-- `JSON.stringify` with an indentation. Numbers are written as the integers that they are in everything the
    scripts write. -/
def stringify (gap : Text) (depth : Nat) : Json → Text
  | .null => "null".toList
  | .bool true => "true".toList
  | .bool false => "false".toList
  | .num value => integer value.num
  | .str text => quote text
  | .arr items => wrap gap depth '[' ']' (stringifyItems gap (depth + 1) items)
  | .obj properties => wrap gap depth '{' '}' (stringifyMembers gap (depth + 1) properties)

def stringifyItems (gap : Text) (depth : Nat) : List Json → List Text
  | [] => []
  | item :: items => stringify gap depth item :: stringifyItems gap depth items

def stringifyMembers (gap : Text) (depth : Nat) : List (String × Json) → List Text
  | [] => []
  | (key, value) :: properties =>
    (quote key ++ (colon gap ++ stringify gap depth value)) :: stringifyMembers gap depth properties

end

abbrev Parser (α : Type) := Text → Option (α × Text)

def isWhitespace (character : Char) : Bool :=
  character == ' ' || character == '\n' || character == '\r' || character == '\t'

def skip (text : Text) : Text := text.dropWhile isWhitespace

def hexValue (character : Char) : Option Nat :=
  if '0' ≤ character ∧ character ≤ '9' then some (character.toNat - '0'.toNat)
  else if 'a' ≤ character ∧ character ≤ 'f' then some (character.toNat - 'a'.toNat + 10)
  else if 'A' ≤ character ∧ character ≤ 'F' then some (character.toNat - 'A'.toNat + 10)
  else none

/-- The character of a `\u` escape; surrogates do not stand for one on their own. -/
def unicode (digits : Text) : Option Char := do
  let values ← digits.mapM hexValue
  let code := values.foldl (fun code value => 16 * code + value) 0
  if 0xd800 ≤ code ∧ code < 0xe000 then none else some (Char.ofNat code)

def unescape (character : Char) : Option Char :=
  match character with
  | '"' => some '"'
  | '\\' => some '\\'
  | '/' => some '/'
  | 'b' => some '\x08'
  | 'f' => some '\x0c'
  | 'n' => some '\n'
  | 'r' => some '\r'
  | 't' => some '\t'
  | _ => none

/-- The rest of a string literal, behind its opening quote. -/
def parseString : Parser Text
  | '"' :: text => some ([], text)
  | '\\' :: 'u' :: first :: second :: third :: fourth :: text => do
    let character ← unicode [first, second, third, fourth]
    let (characters, rest) ← parseString text
    return (character :: characters, rest)
  | '\\' :: escaped :: text => do
    let character ← unescape escaped
    let (characters, rest) ← parseString text
    return (character :: characters, rest)
  | character :: text =>
    if character ≠ '\\' ∧ 32 ≤ character.toNat then
      (parseString text).map fun (characters, rest) => (character :: characters, rest)
    else none
  | [] => none

def parseDigits (text : Text) : Option (Text × Text) :=
  match text.takeWhile Char.isDigit with
  | [] => none
  | digits => some (digits, text.dropWhile Char.isDigit)

def parseFraction : Parser Text
  | '.' :: text => parseDigits text
  | text => some ([], text)

def parseSigned : Parser Int
  | '-' :: text => (parseDigits text).map fun (digits, rest) => (-Nat.ofDigitChars 10 digits 0, rest)
  | '+' :: text => (parseDigits text).map fun (digits, rest) => (Nat.ofDigitChars 10 digits 0, rest)
  | text => (parseDigits text).map fun (digits, rest) => (Nat.ofDigitChars 10 digits 0, rest)

def parseExponent : Parser Int
  | [] => some (0, [])
  | marker :: text => if marker = 'e' ∨ marker = 'E' then parseSigned text else some (0, marker :: text)

def parseUnsigned (text : Text) : Option (Rat × Text) := do
  let (whole, text) ← parseDigits text
  if whole = ['0'] ∨ whole.head? ≠ some '0' then
    let (fraction, text) ← parseFraction text
    let (exponent, text) ← parseExponent text
    return (Nat.ofDigitChars 10 (whole ++ fraction) 0 * 10 ^ (exponent - fraction.length), text)
  else none

def parseNumber : Parser Rat
  | '-' :: text => (parseUnsigned text).map fun (value, rest) => (-value, rest)
  | text => parseUnsigned text

variable {α : Type}

/-- What follows an opening bracket: values between commas, up to the closing one. -/
def parseList (item : Parser α) (closing : Char) : Nat → Parser (List α)
  | 0, _ => none
  | fuel + 1, text => do
    let (value, text) ← item text
    match skip text with
    | [] => none
    | next :: text =>
      if next = closing then return ([value], text)
      else if next = ',' then
        (parseList item closing fuel (skip text)).map fun (values, rest) => (value :: values, rest)
      else none

def parseContainer (item : Parser α) (closing : Char) (fuel : Nat) (text : Text) : Option (List α × Text) :=
  match skip text with
  | [] => none
  | next :: text =>
    if next = closing then some ([], text) else parseList item closing fuel (next :: text)

def parseMember (value : Parser Json) : Parser (String × Json)
  | '"' :: text => do
    let (key, text) ← parseString text
    match skip text with
    | ':' :: text =>
      let (value, rest) ← value (skip text)
      return ((String.ofList key, value), rest)
    | _ => none
  | _ => none

/-- Of several properties with one key the last value counts. -/
def assign (properties : List (String × Json)) (pair : String × Json) : List (String × Json) :=
  if properties.any fun other => other.1 == pair.1 then
    properties.map fun other => if other.1 = pair.1 then pair else other
  else properties ++ [pair]

def parseValue : Nat → Parser Json
  | 0, _ => none
  | fuel + 1, text =>
    match text with
    | '"' :: text => (parseString text).map fun (characters, rest) => (.str (String.ofList characters), rest)
    | '[' :: text =>
      (parseContainer (parseValue fuel) ']' fuel text).map fun (items, rest) => (.arr items, rest)
    | '{' :: text =>
      (parseContainer (parseMember (parseValue fuel)) '}' fuel text).map fun (pairs, rest) =>
        (.obj (pairs.foldl assign []), rest)
    | 'n' :: 'u' :: 'l' :: 'l' :: text => some (.null, text)
    | 't' :: 'r' :: 'u' :: 'e' :: text => some (.bool true, text)
    | 'f' :: 'a' :: 'l' :: 's' :: 'e' :: text => some (.bool false, text)
    | text => (parseNumber text).map fun (value, rest) => (.num value, rest)

/-- `JSON.parse`. No value nests deeper than its text is long. -/
def parse (text : Text) : Option Json := do
  let (value, rest) ← parseValue (text.length + 1) (skip text)
  if skip rest = [] then some value else none

end Text

end Schema
