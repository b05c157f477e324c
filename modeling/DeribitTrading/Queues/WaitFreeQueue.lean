import DeribitTrading.Faults
import DeribitTrading.Library.Fifo
import DeribitTrading.Library.RingBuffer

/-!
`WaitFreeQueue` of `wait_free_queue.h` with its two threads, one in `enqueue` and
one in `dequeue`. A step is one access to `head_`, `tail_` or `buffer_`, and the
steps of the two come in any order.
-/
namespace DeribitTrading
open Runs
open scoped List

/-- The capacity of a queue that has been constructed: a `size_t`, and not zero. -/
structure Capacity where
  val : Nat
  positive : 0 < val
  fits : val < 2 ^ 64

namespace WaitFreeQueue
variable {α : Type}

/-- `(index + 1) % capacity_`. -/
def successor (capacity : Capacity) (index : Nat) : Nat := (index + 1) % 2 ^ 64 % capacity.val

/-- The members, and the fault that has ended the process. -/
structure Shared (α : Type) where
  buffer : List α
  capacity : Capacity
  head : Nat
  tail : Nat
  down : Option Fault

/-- The access that `enqueue` makes next, with the locals it has by then. -/
inductive Producer (α : Type) where
  | idle
  | loadTail (item : α)
  | loadHead (item : α) (tail : Nat)
  | write (item : α) (tail : Nat)
  | store (item : α) (tail : Nat)
  | returned (result : Bool)
  deriving DecidableEq

/-- The access that `dequeue` makes next; it returns true with an item or false. -/
inductive Consumer (α : Type) where
  | idle
  | loadHead
  | loadTail (head : Nat)
  | read (head : Nat)
  | store (item : α) (head : Nat)
  | returned (result : Option α)
  deriving DecidableEq

def Producer.calling : Producer α → Bool
  | .idle | .returned _ => false
  | .loadTail _ | .loadHead _ _ | .write _ _ | .store _ _ => true

def Consumer.calling : Consumer α → Bool
  | .idle | .returned _ => false
  | .loadHead | .loadTail _ | .read _ | .store _ _ => true

def Producer.step (p : Producer α) (s : Shared α) : Option (Producer α × Shared α) :=
  match p with
  | .loadTail item => some (.loadHead item s.tail, s)
  | .loadHead item tail =>
      if successor s.capacity tail = s.head then some (.returned false, s)
      else some (.write item tail, s)
  | .write item tail =>
      if tail < s.buffer.length then
        some (.store item tail, { s with buffer := s.buffer.set tail item })
      else some (.write item tail, { s with down := some .undefined })
  | .store _ tail => some (.returned true, { s with tail := successor s.capacity tail })
  | .idle | .returned _ => none

def Consumer.step (c : Consumer α) (s : Shared α) : Option (Consumer α × Shared α) :=
  match c with
  | .loadHead => some (.loadTail s.head, s)
  | .loadTail head =>
      if head = s.tail then some (.returned none, s) else some (.read head, s)
  | .read head =>
      match s.buffer[head]? with
      | some item => some (.store item head, s)
      | none => some (.read head, { s with down := some .undefined })
  | .store item head =>
      some (.returned (some item), { s with head := successor s.capacity head })
  | .idle | .returned _ => none

end WaitFreeQueue

structure WaitFreeQueue (α : Type) where
  shared : WaitFreeQueue.Shared α
  producer : WaitFreeQueue.Producer α
  consumer : WaitFreeQueue.Consumer α

namespace WaitFreeQueue
variable {α : Type}

def create [Inhabited α] (capacity : Capacity) : WaitFreeQueue α where
  shared :=
    { buffer := List.replicate capacity.val default, capacity, head := 0, tail := 0, down := none }
  producer := .idle
  consumer := .idle

/-- A call by one of the two threads, or its next access. -/
inductive Event (α : Type) where
  | enqueue (item : α)
  | producer
  | dequeue
  | consumer

def move (s : WaitFreeQueue α) : Event α → Option (WaitFreeQueue α)
  | .enqueue item =>
      if s.producer.calling then none else some { s with producer := .loadTail item }
  | .producer =>
      (s.producer.step s.shared).map fun moved =>
        { s with producer := moved.1, shared := moved.2 }
  | .dequeue => if s.consumer.calling then none else some { s with consumer := .loadHead }
  | .consumer =>
      (s.consumer.step s.shared).map fun moved =>
        { s with consumer := moved.1, shared := moved.2 }

/-- Nothing moves in a process that is down. -/
def next (s : WaitFreeQueue α) (e : Event α) : Option (WaitFreeQueue α) :=
  if s.shared.down = none then s.move e else none

/-- The two stores, by which an item comes into the queue and leaves it. -/
def record (s : WaitFreeQueue α) : Event α → List (Fifo.Op α)
  | .producer =>
      match s.producer with
      | .store item _ => [.put item]
      | _ => []
  | .consumer =>
      match s.consumer with
      | .store item _ => [.take item]
      | _ => []
  | .enqueue _ | .dequeue => []

/-- A queue with the record of its stores. -/
abbrev QueueStep : WaitFreeQueue α × List (Fifo.Op α) → Event α →
    WaitFreeQueue α × List (Fifo.Op α) → Prop := Recording (Takes next) record

/-- Everything that one step can do, with what it puts on record. -/
inductive Moves (s : WaitFreeQueue α) :
    Event α → WaitFreeQueue α → List (Fifo.Op α) → Prop
  | enqueue (item : α) : s.producer.calling = false →
      Moves s (.enqueue item) { s with producer := .loadTail item } []
  | loadTail (item : α) : s.producer = .loadTail item →
      Moves s .producer { s with producer := .loadHead item s.shared.tail } []
  | full (item : α) (tail : Nat) : s.producer = .loadHead item tail →
      successor s.shared.capacity tail = s.shared.head →
      Moves s .producer { s with producer := .returned false } []
  | free (item : α) (tail : Nat) : s.producer = .loadHead item tail →
      successor s.shared.capacity tail ≠ s.shared.head →
      Moves s .producer { s with producer := .write item tail } []
  | write (item : α) (tail : Nat) : s.producer = .write item tail →
      tail < s.shared.buffer.length →
      Moves s .producer
        { s with
          producer := .store item tail
          shared := { s.shared with buffer := s.shared.buffer.set tail item } } []
  | writeOutside (item : α) (tail : Nat) : s.producer = .write item tail →
      s.shared.buffer.length ≤ tail →
      Moves s .producer { s with shared := { s.shared with down := some .undefined } } []
  | storeTail (item : α) (tail : Nat) : s.producer = .store item tail →
      Moves s .producer
        { s with
          producer := .returned true
          shared := { s.shared with tail := successor s.shared.capacity tail } } [.put item]
  | dequeue : s.consumer.calling = false →
      Moves s .dequeue { s with consumer := .loadHead } []
  | loadHead : s.consumer = .loadHead →
      Moves s .consumer { s with consumer := .loadTail s.shared.head } []
  | empty (head : Nat) : s.consumer = .loadTail head → head = s.shared.tail →
      Moves s .consumer { s with consumer := .returned none } []
  | filled (head : Nat) : s.consumer = .loadTail head → head ≠ s.shared.tail →
      Moves s .consumer { s with consumer := .read head } []
  | read (item : α) (head : Nat) : s.consumer = .read head →
      s.shared.buffer[head]? = some item →
      Moves s .consumer { s with consumer := .store item head } []
  | readOutside (head : Nat) : s.consumer = .read head → s.shared.buffer[head]? = none →
      Moves s .consumer { s with shared := { s.shared with down := some .undefined } } []
  | storeHead (item : α) (head : Nat) : s.consumer = .store item head →
      Moves s .consumer
        { s with
          consumer := .returned (some item)
          shared := { s.shared with head := successor s.shared.capacity head } } [.take item]

theorem producer_moves {s t : WaitFreeQueue α} (taken : s.move .producer = some t) :
    Moves s .producer t (s.record .producer) := by
  obtain ⟨shared, producer, consumer⟩ := s
  obtain ⟨⟨p, shared'⟩, stepped, rfl⟩ := Option.map_eq_some_iff.mp taken
  cases producer with
  | idle | returned result => cases stepped
  | loadTail item =>
      cases stepped
      exact .loadTail item rfl
  | loadHead item tail =>
      simp only [Producer.step] at stepped
      split at stepped
      · rename_i same
        cases stepped
        exact .full item tail rfl same
      · rename_i other
        cases stepped
        exact .free item tail rfl other
  | write item tail =>
      simp only [Producer.step] at stepped
      split at stepped
      · rename_i inside
        cases stepped
        exact .write item tail rfl inside
      · rename_i outside
        cases stepped
        exact .writeOutside item tail rfl (Nat.le_of_not_lt outside)
  | store item tail =>
      cases stepped
      exact .storeTail item tail rfl

theorem consumer_moves {s t : WaitFreeQueue α} (taken : s.move .consumer = some t) :
    Moves s .consumer t (s.record .consumer) := by
  obtain ⟨shared, producer, consumer⟩ := s
  obtain ⟨⟨c, shared'⟩, stepped, rfl⟩ := Option.map_eq_some_iff.mp taken
  cases consumer with
  | idle | returned result => cases stepped
  | loadHead =>
      cases stepped
      exact .loadHead rfl
  | loadTail head =>
      simp only [Consumer.step] at stepped
      split at stepped
      · rename_i same
        cases stepped
        exact .empty head rfl same
      · rename_i other
        cases stepped
        exact .filled head rfl other
  | read head =>
      simp only [Consumer.step] at stepped
      split at stepped
      · rename_i item found
        cases stepped
        exact .read item head rfl found
      · rename_i outside
        cases stepped
        exact .readOutside head rfl outside
  | store item head =>
      cases stepped
      exact .storeHead item head rfl

/-- What a step can do: the inversion that every proof about the queue starts from. -/
theorem moves_of_next {s t : WaitFreeQueue α} {e : Event α} (taken : Takes next s e t) :
    Moves s e t (s.record e) := by
  unfold Takes next at taken
  split at taken
  · cases e with
    | enqueue item =>
        simp only [move] at taken
        split at taken
        · cases taken
        · rename_i free
          cases taken
          exact .enqueue item (Bool.not_eq_true _ ▸ free)
    | producer => exact producer_moves taken
    | dequeue =>
        simp only [move] at taken
        split at taken
        · cases taken
        · rename_i free
          cases taken
          exact .dequeue (Bool.not_eq_true _ ▸ free)
    | consumer => exact consumer_moves taken
  · cases taken

/-! ## The items in the buffer -/

theorem successor_eq {capacity : Capacity} {index : Nat} (inside : index < capacity.val) :
    successor capacity index = (index + 1) % capacity.val := by
  have fits := capacity.fits
  rw [successor, Nat.mod_eq_of_lt (a := index + 1) (by omega)]

/-- What `enqueue` may rely on at each of its points. Its view of `tail_` is exact;
that there is room stays true, since only this thread fills it. -/
def Producer.Sees (p : Producer α) (buffer : List α) (tail : Nat) (items : List α) : Prop :=
  match p with
  | .idle | .loadTail _ | .returned _ => True
  | .loadHead _ seen => seen = tail
  | .write _ seen => seen = tail ∧ items.length + 1 < buffer.length
  | .store item seen => seen = tail ∧ items.length + 1 < buffer.length ∧ buffer[seen]? = some item

def Consumer.Sees (c : Consumer α) (head : Nat) (items : List α) : Prop :=
  match c with
  | .idle | .loadHead | .returned _ => True
  | .loadTail seen => seen = head
  | .read seen => seen = head ∧ items ≠ []
  | .store item seen => seen = head ∧ items.head? = some item

theorem Producer.Sees.taken {p : Producer α} {buffer : List α} {tail : Nat} {item : α}
    {items : List α} (sees : p.Sees buffer tail (item :: items)) : p.Sees buffer tail items := by
  cases p with
  | idle | loadTail _ | loadHead _ _ | returned _ => exact sees
  | write _ _ =>
      have room := sees.2
      rw [List.length_cons] at room
      exact ⟨sees.1, by omega⟩
  | store _ _ =>
      have room := sees.2.1
      rw [List.length_cons] at room
      exact ⟨sees.1, by omega, sees.2.2⟩

theorem Consumer.Sees.append {c : Consumer α} {head : Nat} {items : List α}
    (sees : c.Sees head items) (item : α) : c.Sees head (items ++ [item]) := by
  cases c with
  | idle | loadHead | loadTail _ | returned _ => exact sees
  | read _ => exact ⟨sees.1, List.append_ne_nil_of_left_ne_nil sees.2 _⟩
  | store _ _ =>
      refine ⟨sees.1, ?_⟩
      rw [List.head?_append, sees.2]
      rfl

/-- At this point of the two calls the queue is the FIFO of these items. -/
structure Represents (capacity : Capacity) (s : WaitFreeQueue α) (items : List α) : Prop where
  up : s.shared.down = none
  made : s.shared.capacity = capacity
  size : s.shared.buffer.length = capacity.val
  holds : RingBuffer.Holds s.shared.buffer s.shared.head items
  tail : s.shared.tail = (s.shared.head + items.length) % s.shared.buffer.length
  producer : s.producer.Sees s.shared.buffer s.shared.tail items
  consumer : s.consumer.Sees s.shared.head items

/-- All slots but the one that is left free. -/
abbrev Room (capacity : Capacity) (held : Nat) : Prop := held + 1 < capacity.val

namespace Represents
variable {capacity : Capacity} {s t : WaitFreeQueue α} {items : List α}

theorem create [Inhabited α] (capacity : Capacity) :
    Represents capacity (create capacity : WaitFreeQueue α) [] where
  up := rfl
  made := rfl
  size := List.length_replicate
  holds := .empty (by simp [WaitFreeQueue.create, capacity.positive])
  tail := by simp [WaitFreeQueue.create]
  producer := trivial
  consumer := trivial

theorem head_lt (rep : Represents capacity s items) : s.shared.head < capacity.val :=
  rep.size ▸ rep.holds.inside

theorem tail_lt (rep : Represents capacity s items) : s.shared.tail < capacity.val := by
  rw [rep.tail, rep.size]
  exact Nat.mod_lt _ capacity.positive

theorem full_iff (rep : Represents capacity s items) :
    successor s.shared.capacity s.shared.tail = s.shared.head ↔
      items.length + 1 = capacity.val := by
  have full := rep.holds.full_iff
  rw [← rep.tail, rep.size, ← successor_eq rep.tail_lt] at full
  rwa [rep.made]

theorem empty_iff (rep : Represents capacity s items) :
    s.shared.head = s.shared.tail ↔ items = [] := by
  rw [eq_comm, rep.tail]
  exact rep.holds.empty_iff

/-- A producer that writes and a consumer that reads use different slots. -/
theorem apart (rep : Represents capacity s items) {item : α} {tail head : Nat}
    (writing : s.producer = .write item tail) (reading : s.consumer = .read head) :
    tail ≠ head := by
  have written := rep.producer
  have read := rep.consumer
  rw [writing] at written
  rw [reading] at read
  intro same
  refine read.2 (rep.empty_iff.mp ?_)
  rw [← written.1, ← read.1, same]

theorem free (rep : Represents capacity s items)
    (free : successor s.shared.capacity s.shared.tail ≠ s.shared.head) :
    items.length + 1 < s.shared.buffer.length := by
  have other : items.length + 1 ≠ capacity.val := mt rep.full_iff.mpr free
  have room := rep.holds.room
  rw [rep.size] at room ⊢
  omega

theorem write (rep : Represents capacity s items) {item : α} {tail : Nat}
    (writing : s.producer = .write item tail) :
    Represents capacity
      { s with
        producer := .store item tail
        shared := { s.shared with buffer := s.shared.buffer.set tail item } } items := by
  have sees := rep.producer
  rw [writing] at sees
  have slot : tail = (s.shared.head + items.length) % s.shared.buffer.length :=
    sees.1.trans rep.tail
  have inside : tail < s.shared.buffer.length := by
    rw [sees.1, rep.size]
    exact rep.tail_lt
  have kept : (s.shared.buffer.set tail item).length = s.shared.buffer.length := List.length_set
  exact {
    up := rep.up
    made := rep.made
    size := kept.trans rep.size
    holds := by
      rw [slot]
      exact rep.holds.write
    tail := by
      rw [kept]
      exact rep.tail
    producer := ⟨sees.1, kept ▸ sees.2, List.getElem?_set_self inside⟩
    consumer := rep.consumer }

theorem storeTail (rep : Represents capacity s items) {item : α} {tail : Nat}
    (storing : s.producer = .store item tail) :
    Room capacity items.length ∧ Represents capacity
      { s with
        producer := .returned true
        shared := { s.shared with tail := successor s.shared.capacity tail } }
      (items ++ [item]) := by
  have sees := rep.producer
  rw [storing] at sees
  obtain ⟨seen, room, there⟩ := sees
  have below : Room capacity items.length := by
    rw [rep.size] at room
    exact room
  refine ⟨below, ?_⟩
  exact {
    up := rep.up
    made := rep.made
    size := rep.size
    holds := rep.holds.push room (rep.tail ▸ seen ▸ there)
    tail := by
      simp only [seen]
      rw [rep.made, successor_eq rep.tail_lt, rep.tail, rep.size, Nat.mod_add_mod,
        List.length_append, Nat.add_assoc, List.length_singleton]
    producer := trivial
    consumer := rep.consumer.append item }

theorem storeHead (rep : Represents capacity s items) {item : α} {head : Nat}
    (storing : s.consumer = .store item head) :
    ∃ rest, items = item :: rest ∧ Represents capacity
      { s with
        consumer := .returned (some item)
        shared := { s.shared with head := successor s.shared.capacity head } } rest := by
  have sees := rep.consumer
  rw [storing] at sees
  obtain ⟨seen, first⟩ := sees
  obtain ⟨rest, rfl⟩ := List.head?_eq_some_iff.mp first
  refine ⟨rest, rfl, ?_⟩
  have moved : successor s.shared.capacity head = (s.shared.head + 1) % s.shared.buffer.length := by
    rw [seen, rep.made, successor_eq rep.head_lt, rep.size]
  exact {
    up := rep.up
    made := rep.made
    size := rep.size
    holds := by
      simp only [moved]
      exact rep.holds.pop
    tail := by
      simp only [moved]
      rw [RingBuffer.pop_tail _ item]
      exact rep.tail
    producer := rep.producer.taken
    consumer := trivial }

/-- Each step of the two threads is a step of the FIFO or leaves it as it is. -/
theorem step {e : Event α} {written : List (Fifo.Op α)} (rep : Represents capacity s items)
    (moves : Moves s e t written) :
    ∃ items', Trace (Fifo.Step (Room capacity)) items written items' ∧
      Represents capacity t items' := by
  have producer := rep.producer
  have consumer := rep.consumer
  cases moves with
  | enqueue item idle => exact ⟨items, .nil items, { rep with producer := trivial }⟩
  | loadTail item here => exact ⟨items, .nil items, { rep with producer := rfl }⟩
  | full item tail here same => exact ⟨items, .nil items, { rep with producer := trivial }⟩
  | free item tail here other =>
      rw [here] at producer
      have room := rep.free (producer ▸ other)
      exact ⟨items, .nil items, { rep with producer := ⟨producer, room⟩ }⟩
  | write item tail here inside => exact ⟨items, .nil items, rep.write here⟩
  | writeOutside item tail here outside =>
      rw [here] at producer
      have inside := rep.tail_lt
      rw [← rep.size, ← producer.1] at inside
      omega
  | storeTail item tail here =>
      obtain ⟨room, stored⟩ := rep.storeTail here
      exact ⟨items ++ [item], .single (.put item room), stored⟩
  | dequeue idle => exact ⟨items, .nil items, { rep with consumer := trivial }⟩
  | loadHead here => exact ⟨items, .nil items, { rep with consumer := rfl }⟩
  | empty head here same => exact ⟨items, .nil items, { rep with consumer := trivial }⟩
  | filled head here other =>
      rw [here] at consumer
      have some : items ≠ [] := mt rep.empty_iff.mpr (consumer ▸ other)
      exact ⟨items, .nil items, { rep with consumer := ⟨consumer, some⟩ }⟩
  | read item head here found =>
      rw [here] at consumer
      obtain ⟨first, rest, rfl⟩ := List.exists_cons_of_ne_nil consumer.2
      rw [consumer.1, rep.holds.front] at found
      exact ⟨first :: rest, .nil _, { rep with consumer := ⟨consumer.1, found⟩ }⟩
  | readOutside head here outside =>
      rw [here] at consumer
      have inside := rep.holds.inside
      rw [← consumer.1] at inside
      rw [List.getElem?_eq_getElem inside] at outside
      cases outside
  | storeHead item head here =>
      obtain ⟨rest, rfl, stored⟩ := rep.storeHead here
      exact ⟨rest, .single (.take item rest), stored⟩

end Represents

/-! ## Whole runs -/

variable {capacity : Capacity} {s : WaitFreeQueue α} {log : List (Fifo.Op α)}
  {events first during : List (Event α)}

/-- The record is a run of the bounded FIFO, and the buffer holds what it leaves. -/
def Refines (capacity : Capacity) (s : WaitFreeQueue α × List (Fifo.Op α)) : Prop :=
  ∃ items, Trace (Fifo.Step (Room capacity)) [] s.2 items ∧ Represents capacity s.1 items

theorem Refines.step {s t : WaitFreeQueue α × List (Fifo.Op α)} {e : Event α}
    (refines : Refines capacity s) (taken : QueueStep s e t) : Refines capacity t := by
  obtain ⟨items, fifo, rep⟩ := refines
  obtain ⟨moved, written⟩ := taken
  obtain ⟨items', more, kept⟩ := rep.step (moves_of_next moved)
  exact ⟨items', written ▸ fifo.append more, kept⟩

theorem refines [Inhabited α] {s : WaitFreeQueue α × List (Fifo.Op α)}
    (run : Trace QueueStep (create capacity, []) events s) : Refines capacity s :=
  run.invariant (fun _ _ _ refines taken => refines.step taken)
    ⟨[], .nil [], .create capacity⟩

/-- What is true between any two accesses. -/
structure BoundedFifo (capacity : Capacity) (s : WaitFreeQueue α) (log : List (Fifo.Op α)) :
    Prop where
  /-- the items dequeued, among the items whose `enqueue` has stored `tail_` -/
  ordered : Fifo.removed log <+: Fifo.added log
  bounded : (Fifo.contents log).length ≤ capacity.val - 1
  running : s.shared.down = none
  inside : s.shared.head < s.shared.buffer.length ∧ s.shared.tail < s.shared.buffer.length
  writes : ∀ item tail, s.producer = .write item tail → tail < s.shared.buffer.length
  reads : ∀ head, s.consumer = .read head → head < s.shared.buffer.length
  apart : ∀ item tail head, s.producer = .write item tail → s.consumer = .read head → tail ≠ head

theorem Refines.boundedFifo (refines : Refines capacity (s, log)) : BoundedFifo capacity s log := by
  obtain ⟨items, fifo, rep⟩ := refines
  have below : ∀ held, Room capacity held → held < capacity.val - 1 := by
    intro held free
    omega
  have head : s.shared.head < s.shared.buffer.length := rep.holds.inside
  have tail : s.shared.tail < s.shared.buffer.length := rep.size ▸ rep.tail_lt
  refine ⟨Fifo.removed_isPrefix fifo, ?_, rep.up, ⟨head, tail⟩, ?_, ?_, ?_⟩
  · rw [Fifo.contents_eq fifo]
    exact Fifo.length_le below fifo (Nat.zero_le _)
  · intro item seen writing
    have sees := rep.producer
    rw [writing] at sees
    exact sees.1 ▸ tail
  · intro seen reading
    have sees := rep.consumer
    rw [reading] at sees
    exact sees.1 ▸ head
  · intro item seen from' writing reading
    exact rep.apart writing reading

/-- Between the call and its return there was a moment with so many items in the queue. -/
def HeldDuring [Inhabited α] (capacity : Capacity) (calling : WaitFreeQueue α → Bool)
    (first : List (Event α)) (call : Event α) (during : List (Event α)) (held : Nat) : Prop :=
  ∃ before after m, during = before ++ after ∧
    Trace QueueStep (create capacity, []) (first ++ call :: before) m ∧
    calling m.1 = true ∧ (Fifo.contents m.2).length = held

/-- If a call returns false at one step only, and only with so many items in the
queue, then it has seen that many. -/
theorem heldDuring_of_refused [Inhabited α] {calling : WaitFreeQueue α → Bool}
    {P : WaitFreeQueue α → Prop} {call : Event α} {held : Nat}
    (starts : ∀ s t, Takes next s call t → ¬ P t)
    (refuses : ∀ s t e items, Represents capacity s items → Takes next s e t → ¬ P s → P t →
      calling s = true ∧ items.length = held)
    (run : Trace QueueStep (create capacity, []) (first ++ call :: during) (s, log))
    (last : P s) : HeldDuring capacity calling first call during held := by
  obtain ⟨before, e, after, a, b, rfl, there, fresh, taken, now⟩ :=
    run.arises_after (P := fun s => P s.1) (fun m m' called => starts m.1 m'.1 called.1) last
  obtain ⟨items, fifo, rep⟩ := refines there
  obtain ⟨busy, count⟩ := refuses _ _ _ _ rep taken.1 fresh now
  refine ⟨before, e :: after, a, rfl, there, busy, ?_⟩
  rw [Fifo.contents_eq fifo, count]

theorem enqueue_refuses {s t : WaitFreeQueue α} {e : Event α} {items : List α}
    {written : List (Fifo.Op α)} (rep : Represents capacity s items) (moves : Moves s e t written)
    (fresh : s.producer ≠ .returned false) (now : t.producer = .returned false) :
    s.producer.calling = true ∧ items.length = capacity.val - 1 := by
  have producer := rep.producer
  cases moves with
  | enqueue item idle => cases now
  | loadTail item here => cases now
  | full item tail here same =>
      rw [here] at producer ⊢
      have full := rep.full_iff.mp (producer ▸ same)
      exact ⟨rfl, by omega⟩
  | free item tail here other => cases now
  | write item tail here inside => cases now
  | storeTail item tail here => cases now
  | writeOutside | dequeue | loadHead | empty | filled | read | readOutside | storeHead =>
      exact absurd now fresh

theorem dequeue_refuses {s t : WaitFreeQueue α} {e : Event α} {items : List α}
    {written : List (Fifo.Op α)} (rep : Represents capacity s items) (moves : Moves s e t written)
    (fresh : s.consumer ≠ .returned none) (now : t.consumer = .returned none) :
    s.consumer.calling = true ∧ items.length = 0 := by
  have consumer := rep.consumer
  cases moves with
  | dequeue idle => cases now
  | loadHead here => cases now
  | empty head here same =>
      rw [here] at consumer ⊢
      have empty := rep.empty_iff.mp (consumer ▸ same)
      exact ⟨rfl, List.length_eq_zero_iff.mpr empty⟩
  | filled head here other => cases now
  | read item head here found => cases now
  | storeHead item head here => cases now
  | enqueue | loadTail | full | free | write | writeOutside | storeTail | readOutside =>
      exact absurd now fresh

/-- The queue of one producer and one consumer is a FIFO with room for all but one
of its slots, at every point of every interleaving; a call that comes back false
met a full queue, or an empty one, on its way. -/
theorem wait_free_queue_refines_fifo [Inhabited α]
    (run : Trace QueueStep (create capacity, []) events (s, log)) :
    BoundedFifo capacity s log ∧
    (∀ first item during, events = first ++ .enqueue item :: during →
      (∀ later, .enqueue later ∉ during) → s.producer = .returned false →
      HeldDuring capacity (fun s => s.producer.calling) first (.enqueue item) during
        (capacity.val - 1)) ∧
    (∀ first during, events = first ++ .dequeue :: during → .dequeue ∉ during →
      s.consumer = .returned none →
      HeldDuring capacity (fun s => s.consumer.calling) first .dequeue during 0) := by
  refine ⟨(refines run).boundedFifo, ?_, ?_⟩
  · intro first item during same _ refused
    rw [same] at run
    refine heldDuring_of_refused (P := fun s => s.producer = .returned false) ?_ ?_ run refused
    · intro s t called now
      cases moves_of_next called with
      | enqueue item idle => cases now
    · intro s t e items rep taken fresh now
      exact enqueue_refuses rep (moves_of_next taken) fresh now
  · intro first during same _ refused
    rw [same] at run
    refine heldDuring_of_refused (P := fun s => s.consumer = .returned none) ?_ ?_ run refused
    · intro s t called now
      cases moves_of_next called with
      | dequeue idle => cases now
    · intro s t e items rep taken fresh now
      exact dequeue_refuses rep (moves_of_next taken) fresh now

def twoSlots : Capacity := ⟨2, by decide, by decide⟩

/-- 7 gets in, 8 meets a full queue, 7 comes out, and the next `dequeue` finds nothing. -/
def oneAtATime : List (Event Nat) :=
  [.enqueue 7, .producer, .producer, .producer, .producer, .enqueue 8, .producer, .producer,
    .dequeue, .consumer, .consumer, .consumer, .consumer, .dequeue, .consumer, .consumer]

theorem one_at_a_time_refines_fifo :
    ∃ s log, Trace QueueStep (create twoSlots, []) oneAtATime (s, log) ∧
      Fifo.removed log = [7] ∧ BoundedFifo twoSlots s log ∧
      HeldDuring twoSlots (fun s => s.producer.calling) (oneAtATime.take 5) (.enqueue 8)
        (oneAtATime.drop 6) 1 ∧
      HeldDuring twoSlots (fun s => s.consumer.calling) (oneAtATime.take 13) .dequeue
        (oneAtATime.drop 14) 0 := by
  have followed : (follow (recordingNext next record) (create twoSlots, []) oneAtATime).any
      (fun r => r.2 = [.put 7, .take 7] ∧ r.1.producer = .returned false ∧
        r.1.consumer = .returned none) = true := by decide +kernel
  obtain ⟨⟨s, log⟩, run, shown⟩ := exists_trace_of_follow followed
  rw [takes_recordingNext] at run
  obtain ⟨rfl, refused, nothing⟩ := of_decide_eq_true shown
  obtain ⟨bounded, full, empty⟩ := wait_free_queue_refines_fifo run
  refine ⟨s, _, run, rfl, bounded, ?_, ?_⟩
  · exact full (oneAtATime.take 5) 8 (oneAtATime.drop 6) rfl (by simp [oneAtATime]) refused
  · exact empty (oneAtATime.take 13) (oneAtATime.drop 14) rfl (by simp [oneAtATime]) nothing

end WaitFreeQueue
end DeribitTrading
