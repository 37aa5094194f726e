/-
Messages in a stream.

A stream keeps no boundaries. A receiver that knows the length of each message finds the messages
again by counting, however the stream is cut into pieces on the way.
-/

import Mathlib.Tactic

namespace RocmXio.Lib

variable {Symbol : Type*} {messages : List (List Symbol)} {message stream : List Symbol}

def offset (messages : List (List Symbol)) (index : Nat) : Nat :=
  (messages.take index).flatten.length

theorem flatten_take_succ {index : Nat} (there : messages[index]? = some message) :
    (messages.take (index + 1)).flatten = (messages.take index).flatten ++ message := by
  rw [List.take_add_one, there, Option.toList_some, List.flatten_append, List.flatten_singleton]

theorem offset_succ {index : Nat} (there : messages[index]? = some message) :
    offset messages (index + 1) = offset messages index + message.length := by
  rw [offset, flatten_take_succ there, List.length_append, offset]

theorem offset_mono {first last : Nat} (order : first ≤ last) :
    offset messages first ≤ offset messages last :=
  (List.take_prefix_take_left order).flatten.length_le

theorem le_of_offset_le (nonempty : ∀ message ∈ messages, message ≠ []) {first last : Nat}
    (within : first ≤ messages.length) (order : offset messages first ≤ offset messages last) :
    first ≤ last := by
  by_contra later
  have inside : last < messages.length := by omega
  have next := offset_succ (List.getElem?_eq_getElem inside)
  have some := List.length_pos_of_ne_nil (nonempty _ (List.getElem_mem inside))
  have before : offset messages (last + 1) ≤ offset messages first := offset_mono (by omega)
  omega

theorem drop_offset {index : Nat} (there : messages[index]? = some message) :
    messages.flatten.drop (offset messages index) =
      message ++ (messages.drop (index + 1)).flatten := by
  have split : messages.drop index = message :: messages.drop (index + 1) := by
    obtain ⟨inside, rfl⟩ := List.getElem?_eq_some_iff.mp there
    exact List.drop_eq_getElem_cons inside
  have whole : messages.flatten =
      (messages.take index).flatten ++ (messages.drop index).flatten := by
    rw [← List.flatten_append, List.take_append_drop]
  rw [whole, offset, List.drop_left, split, List.flatten_cons]

/-- What a receiver reads next continues the message that it is reading, as far as the
message goes. -/
theorem append_drop_take_prefix {index count : Nat} {buffer : List Symbol}
    (sent : stream <+: messages.flatten) (there : messages[index]? = some message)
    (started : buffer <+: message) (fits : buffer.length + count ≤ message.length) :
    buffer ++ (stream.drop (offset messages index + buffer.length)).take count <+: message := by
  obtain ⟨missing, rfl⟩ := started
  rw [List.length_append] at fits
  have behind : messages.flatten.drop (offset messages index + buffer.length) =
      missing ++ (messages.drop (index + 1)).flatten := by
    rw [← List.drop_drop, drop_offset there, List.append_assoc, List.drop_left]
  have next : (stream.drop (offset messages index + buffer.length)).take count <+:
      (missing ++ (messages.drop (index + 1)).flatten).take count :=
    behind ▸ (sent.drop _).take _
  rw [List.take_append_of_le_length (by omega)] at next
  have taken := List.take_prefix count missing
  exact (List.prefix_append_right_inj buffer).mpr (next.trans taken)

end RocmXio.Lib
