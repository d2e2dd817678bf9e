import Mathlib.Data.List.Nodup
import Mathlib.Logic.Equiv.Defs

namespace Schema

inductive Json
  | null
  | bool (value : Bool)
  | num (value : Rat)
  | str (text : String)
  | arr (items : List Json)
  | obj (properties : List (String × Json))

theorem lookup_of_mem {pairs : List (String × Json)} {pair : String × Json}
    (distinct : (pairs.map Prod.fst).Nodup) (member : pair ∈ pairs) : pairs.lookup pair.1 = some pair.2 := by
  obtain ⟨before, after, split⟩ := List.append_of_mem member
  have absent : ∀ other ∈ before, (pair.1 == other.1) = false := by
    intro other earlier
    rw [split, List.map_append, List.map_cons, List.nodup_append] at distinct
    have apart := distinct.2.2 other.1 (List.mem_map_of_mem earlier) pair.1 (by simp)
    exact beq_eq_false_iff_ne.mpr (Ne.symm apart)
  have skipped : before.lookup pair.1 = none := by
    rw [List.lookup_eq_none_iff]
    simpa using absent
  rw [split, List.lookup_append, skipped, Option.none_or]
  exact List.lookup_cons_self

/-- A schema whose decoder recovers everything that its encoder writes. -/
structure Codec (α : Type) where
  encode : α → Json
  decode : Json → Option α
  decode_encode (value : α) : decode (encode value) = some value

namespace Codec

variable {α β : Type}

def string : Codec String where
  encode := .str
  decode
    | .str text => some text
    | _ => none
  decode_encode _ := rfl

def number : Codec Rat where
  encode := .num
  decode
    | .num value => some value
    | _ => none
  decode_encode _ := rfl

def literal [DecidableEq α] (codec : Codec α) (only : α) : Codec Unit where
  encode _ := codec.encode only
  decode json := (codec.decode json).bind fun value => if value = only then some () else none
  decode_encode _ := by simp [codec.decode_encode]

def map (codec : Codec α) (equiv : α ≃ β) : Codec β where
  encode value := codec.encode (equiv.symm value)
  decode json := (codec.decode json).map equiv
  decode_encode value := by simp [codec.decode_encode]

end Codec

structure Properties (keys : List String) (α : Type) where
  encode : α → List (String × Json)
  decode : (String → Option Json) → Option α
  encode_keys (value : α) : (encode value).map Prod.fst = keys
  decode_encode (value : α) (property : String → Option Json)
    (present : ∀ pair ∈ encode value, property pair.1 = some pair.2) : decode property = some value

namespace Properties

variable {keys more : List String} {α β : Type}

def single (key : String) (codec : Codec α) : Properties [key] α where
  encode value := [(key, codec.encode value)]
  decode property := (property key).bind codec.decode
  encode_keys _ := rfl
  decode_encode value property present := by
    have found : property key = some (codec.encode value) := present (key, codec.encode value) (by simp)
    rw [found]
    exact codec.decode_encode value

def both (first : Properties keys α) (second : Properties more β) : Properties (keys ++ more) (α × β) where
  encode value := first.encode value.1 ++ second.encode value.2
  decode property :=
    (first.decode property).bind fun left => (second.decode property).map fun right => (left, right)
  encode_keys value := by rw [List.map_append, first.encode_keys, second.encode_keys]
  decode_encode value property present := by
    have left := first.decode_encode value.1 property fun pair member => present pair (by simp [member])
    have right := second.decode_encode value.2 property fun pair member => present pair (by simp [member])
    rw [left, right]
    rfl

/-- An object schema that refuses excess properties. -/
def strict (properties : Properties keys α) (distinct : keys.Nodup) : Codec α where
  encode value := .obj (properties.encode value)
  decode
    | .obj pairs =>
      if pairs.all fun pair => pair.1 ∈ keys then properties.decode fun key => pairs.lookup key else none
    | _ => none
  decode_encode value := by
    have written := properties.encode_keys value
    have known : ((properties.encode value).all fun pair => pair.1 ∈ keys) = true := by
      simp only [List.all_eq_true, decide_eq_true_eq, ← written]
      exact fun pair member => List.mem_map_of_mem member
    have unrepeated : ((properties.encode value).map Prod.fst).Nodup := by
      rw [written]
      exact distinct
    dsimp only
    rw [if_pos known]
    exact properties.decode_encode value _ fun pair member => lookup_of_mem unrepeated member

end Properties

end Schema
