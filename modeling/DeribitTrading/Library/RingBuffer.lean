import Mathlib.Data.List.Basic
import Mathlib.Data.Nat.Init

/-!
A bounded FIFO kept in a buffer whose indices wrap round. One slot is always
left free, so that the two indices are equal on an empty queue only; the next
item goes to the slot behind the last one, `(head + items.length) % buffer.length`.
-/
namespace RingBuffer

variable {α : Type*} {buffer : List α} {head : ℕ} {item : α} {items : List α}

/-- From `head` on the buffer holds these items, and at least one slot more. -/
structure Holds (buffer : List α) (head : ℕ) (items : List α) : Prop where
  inside : head < buffer.length
  room : items.length < buffer.length
  slots : ∀ k < items.length, buffer[(head + k) % buffer.length]? = items[k]?

theorem slot_inj (head : ℕ) {n i j : ℕ} (first : i < n) (second : j < n) :
    (head + i) % n = (head + j) % n ↔ i = j := by
  constructor
  · intro same
    have left : (head + i) % n = (head % n + i) % n := by rw [Nat.mod_add_mod]
    have right : (head + j) % n = (head % n + j) % n := by rw [Nat.mod_add_mod]
    have wraps : ∀ k < n, (head % n + k) % n = head % n + k ∨
        (head % n + k) % n + n = head % n + k := by
      intro k less
      have positive : head % n < n := Nat.mod_lt _ (by omega)
      by_cases short : head % n + k < n
      · exact .inl (Nat.mod_eq_of_lt short)
      · refine .inr ?_
        rw [Nat.mod_eq_sub_mod (by omega), Nat.mod_eq_of_lt (by omega)]
        omega
    have one := wraps i first
    have other := wraps j second
    omega
  · intro same
    rw [same]

theorem Holds.empty (positive : 0 < buffer.length) : Holds buffer 0 [] where
  inside := positive
  room := positive
  slots := by
    intro k less
    simp at less

theorem Holds.head_slot (held : Holds buffer head items) :
    (head + 0) % buffer.length = head := Nat.mod_eq_of_lt held.inside

theorem Holds.front (held : Holds buffer head (item :: items)) : buffer[head]? = some item := by
  have first := held.slots 0 (by simp)
  rwa [held.head_slot] at first

/-- The indices meet on the empty queue, and on no other. -/
theorem Holds.empty_iff (held : Holds buffer head items) :
    (head + items.length) % buffer.length = head ↔ items = [] := by
  have positive : 0 < buffer.length := Nat.zero_lt_of_lt held.inside
  have same := slot_inj head held.room positive
  rw [held.head_slot] at same
  rw [same, List.length_eq_zero_iff]

/-- One more step would make them meet when all slots but one are taken. -/
theorem Holds.full_iff (held : Holds buffer head items) :
    ((head + items.length) % buffer.length + 1) % buffer.length = head ↔
      items.length + 1 = buffer.length := by
  rw [Nat.mod_add_mod, Nat.add_assoc]
  constructor
  · intro meets
    by_contra free
    have less : items.length + 1 < buffer.length := by
      have room := held.room
      omega
    have positive : 0 < buffer.length := Nat.zero_lt_of_lt less
    have same := slot_inj head less positive
    rw [held.head_slot] at same
    have zero := same.mp meets
    omega
  · intro full
    rw [full, Nat.add_mod_right, Nat.mod_eq_of_lt held.inside]

theorem Holds.write (held : Holds buffer head items) :
    Holds (buffer.set ((head + items.length) % buffer.length) item) head items where
  inside := by
    rw [List.length_set]
    exact held.inside
  room := by
    rw [List.length_set]
    exact held.room
  slots := by
    intro k less
    have other : (head + items.length) % buffer.length ≠ (head + k) % buffer.length := by
      rw [ne_eq, slot_inj head held.room (Nat.lt_trans less held.room)]
      omega
    rw [List.length_set, List.getElem?_set_ne other, held.slots k less]

/-- What stands in the free slot is the next item once the tail has moved past it. -/
theorem Holds.push (held : Holds buffer head items) (free : items.length + 1 < buffer.length)
    (there : buffer[(head + items.length) % buffer.length]? = some item) :
    Holds buffer head (items ++ [item]) where
  inside := held.inside
  room := by
    rw [List.length_append]
    exact free
  slots := by
    intro k less
    rw [List.length_append, List.length_singleton] at less
    by_cases last : k = items.length
    · rw [last, there, List.getElem?_concat_length]
    · rw [List.getElem?_append_left (by omega)]
      exact held.slots k (by omega)

theorem Holds.pop (held : Holds buffer head (item :: items)) :
    Holds buffer ((head + 1) % buffer.length) items where
  inside := Nat.mod_lt _ (Nat.zero_lt_of_lt held.inside)
  room := by
    have room := held.room
    rw [List.length_cons] at room
    omega
  slots := by
    intro k less
    have next := held.slots (k + 1) (by rw [List.length_cons]; omega)
    rw [Nat.mod_add_mod, Nat.add_assoc, Nat.add_comm 1 k, next, List.getElem?_cons_succ]

theorem pop_tail (n : ℕ) (item : α) :
    ((head + 1) % n + items.length) % n = (head + (item :: items).length) % n := by
  rw [Nat.mod_add_mod, List.length_cons, Nat.add_assoc, Nat.add_comm 1]

end RingBuffer
