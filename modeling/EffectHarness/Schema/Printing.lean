import EffectHarness.Schema.Codec
import EffectHarness.Schema.Truncation

namespace Schema

open Text

variable {α β : Type}

/-- The codec writes nothing that `JSON.stringify` would lose. -/
def Codec.Prints (codec : Codec α) : Prop :=
  ∀ value, Printable (codec.encode value)

def Properties.Prints {keys : List String} (properties : Properties keys α) : Prop :=
  ∀ value, ∀ pair ∈ properties.encode value, Printable pair.2

namespace Codec

variable {codec : Codec α}

theorem string_prints : string.Prints := fun text => Printable.str text

theorem literal_prints [DecidableEq α] {only : α} (printable : Printable (codec.encode only)) :
    (codec.literal only).Prints := fun _ => printable

theorem Prints.map (prints : codec.Prints) (equiv : α ≃ β) : (codec.map equiv).Prints :=
  fun value => prints (equiv.symm value)

/-- However much of an object's text is there, it decodes to nothing or to all of the value. -/
theorem Prints.parse_cut (prints : codec.Prints) (value : α) {properties : List (String × Json)}
    (isObject : codec.encode value = .obj properties) {gap blank : Text} (isGap : Blank gap) (isBlank : Blank blank)
    (kept : Nat) :
    parse ((stringify gap 0 (codec.encode value) ++ blank).take kept) =
      if kept < (stringify gap 0 (codec.encode value)).length then none else some (codec.encode value) := by
  have printable := prints value
  rw [isObject] at printable ⊢
  exact Text.parse_cut isGap printable isBlank kept

end Codec

namespace Properties

variable {keys more : List String} {properties : Properties keys α} {codec : Codec α}

theorem single_prints {key : String} (prints : codec.Prints) : (single key codec).Prints := by
  intro value pair member
  rw [List.mem_singleton.mp member]
  exact prints value

theorem Prints.both {second : Properties more β} (first : properties.Prints) (rest : second.Prints) :
    (properties.both second).Prints := by
  intro value pair member
  rcases List.mem_append.mp member with left | right
  · exact first value.1 pair left
  · exact rest value.2 pair right

theorem Prints.strict {distinct : keys.Nodup} (prints : properties.Prints) : (properties.strict distinct).Prints := by
  intro value
  apply Printable.obj
  · rw [properties.encode_keys]
    exact distinct
  · exact prints value

end Properties

end Schema
