import DeribitTrading.Faults
import DeribitTrading.Library.Fifo

/-!
`LockFreeQueue` of `lock_free_queue.h` with any number of threads in `enqueue`
and `dequeue`. A step is one read or one compare-exchange, and the steps of the
threads come in any order. A pointer is the place of its node in `heap`: a node
lives as long as a `shared_ptr` leads to it, so none is ever met a second time.
-/
namespace DeribitTrading
open Runs

namespace LockFreeQueue
variable {α : Type}

structure Node (α : Type) where
  data : α
  next : Option Nat
  deriving DecidableEq

/-- The nodes made so far, the members, and the fault that has ended the process. -/
structure Shared (α : Type) where
  heap : List (Node α)
  head : Nat
  tail : Nat
  down : Option Fault

/-- What a step may meet that the program does not decide. -/
structure Chance where
  /-- a weak compare-exchange fails for no reason -/
  spurious : Bool
  /-- the pointer in an object that has not been initialised, `none` if the copy
  of it ends the process -/
  indeterminate : Option (Option Nat)

/-- The access that a thread makes next, with the locals it has by then. -/
inductive Thread (α : Type) where
  | idle
  | loadTail (newNode : Nat)
  | loadTailNext (newNode oldTail : Nat)
  | compareTail (newNode oldTail : Nat) (tailNext : Option Nat)
  | link (newNode oldTail : Nat)
  | helpTail (newNode oldTail tailNext : Nat)
  | swingTail (newNode oldTail : Nat)
  | enqueued
  | loadHead
  | declareTail (oldHead : Nat)
  | loadHeadNext (oldHead : Nat) (tail : Option Nat)
  | compareHead (oldHead : Nat) (tail headNext : Option Nat)
  | helpLocal
  | readData (oldHead : Nat) (headNext : Option Nat)
  | swingHead (oldHead headNext : Nat) (result : α)
  | dequeued (result : Option α)

/-- What is put on record: a node made for a value, a node linked behind the last,
a value returned with the node it came from. -/
inductive Note (α : Type) where
  | created (value : α) (node : Nat)
  | linked (node : Nat)
  | taken (value : α) (node : Nat)

namespace Shared

def nextOf (s : Shared α) (node : Nat) : Option (Option Nat) := s.heap[node]?.map Node.next

def dataOf (s : Shared α) (node : Nat) : Option α := s.heap[node]?.map Node.data

def undefined (s : Shared α) : Shared α := { s with down := some .undefined }

/-- `make_shared<Node>(value)`. -/
def allocate (s : Shared α) (value : α) : Shared α :=
  { s with heap := s.heap ++ [⟨value, none⟩] }

def setNext (s : Shared α) (node next : Nat) : Shared α :=
  { s with heap := s.heap.modify node fun n => { n with next := some next } }

def compareExchangeTail (s : Shared α) (chance : Chance) (expected desired : Nat) : Shared α :=
  { s with tail := if s.tail = expected ∧ chance.spurious = false then desired else s.tail }

end Shared

def Thread.calling : Thread α → Bool
  | .idle | .enqueued | .dequeued _ => false
  | .loadTail _ | .loadTailNext _ _ | .compareTail _ _ _ | .link _ _ | .helpTail _ _ _
  | .swingTail _ _ | .loadHead | .declareTail _ | .loadHeadNext _ _ | .compareHead _ _ _
  | .helpLocal | .readData _ _ | .swingHead _ _ _ => true

/-- One step of a thread, with what it puts on record. -/
def Thread.step (chance : Chance) (thread : Thread α) (s : Shared α) :
    Option (Thread α × Shared α × List (Note α)) :=
  match thread with
  | .loadTail newNode => some (.loadTailNext newNode s.tail, s, [])
  | .loadTailNext newNode oldTail =>
      match s.nextOf oldTail with
      | some tailNext => some (.compareTail newNode oldTail tailNext, s, [])
      | none => some (.loadTailNext newNode oldTail, s.undefined, [])
  | .compareTail newNode oldTail tailNext =>
      if oldTail = s.tail then
        match tailNext with
        | none => some (.link newNode oldTail, s, [])
        | some next => some (.helpTail newNode oldTail next, s, [])
      else some (.loadTail newNode, s, [])
  | .link newNode oldTail =>
      match s.nextOf oldTail with
      | some current =>
          if current = none ∧ chance.spurious = false then
            some (.swingTail newNode oldTail, s.setNext oldTail newNode, [.linked newNode])
          else some (.loadTail newNode, s, [])
      | none => some (.link newNode oldTail, s.undefined, [])
  | .helpTail newNode oldTail tailNext =>
      some (.loadTail newNode, s.compareExchangeTail chance oldTail tailNext, [])
  | .swingTail newNode oldTail =>
      some (.enqueued, s.compareExchangeTail chance oldTail newNode, [])
  | .loadHead => some (.declareTail s.head, s, [])
  -- the local `tail` is already in scope in its own initialiser
  | .declareTail oldHead =>
      match chance.indeterminate with
      | some tail => some (.loadHeadNext oldHead tail, s, [])
      | none => some (.declareTail oldHead, s.undefined, [])
  | .loadHeadNext oldHead tail =>
      match s.nextOf oldHead with
      | some headNext => some (.compareHead oldHead tail headNext, s, [])
      | none => some (.loadHeadNext oldHead tail, s.undefined, [])
  | .compareHead oldHead tail headNext =>
      if oldHead = s.head then
        if some oldHead = tail then
          match headNext with
          | none => some (.dequeued none, s, [])
          | some _ => some (.helpLocal, s, [])
        else some (.readData oldHead headNext, s, [])
      else some (.loadHead, s, [])
  -- exchanges the local `tail`, which ends with this round
  | .helpLocal => some (.loadHead, s, [])
  | .readData oldHead headNext =>
      match headNext with
      | some next =>
          match s.dataOf next with
          | some data => some (.swingHead oldHead next data, s, [])
          | none => some (.readData oldHead headNext, s.undefined, [])
      -- the null pointer
      | none => some (.readData oldHead headNext, s.undefined, [])
  | .swingHead oldHead headNext result =>
      if s.head = oldHead ∧ chance.spurious = false then
        some (.dequeued (some result), { s with head := headNext }, [.taken result headNext])
      else some (.loadHead, s, [])
  | .idle | .enqueued | .dequeued _ => none

end LockFreeQueue

structure LockFreeQueue (α : Type) where
  shared : LockFreeQueue.Shared α
  threads : List (LockFreeQueue.Thread α)

namespace LockFreeQueue
variable {α : Type}

def create [Inhabited α] (threads : Nat) : LockFreeQueue α where
  shared := { heap := [⟨default, none⟩], head := 0, tail := 0, down := none }
  threads := List.replicate threads .idle

/-- A call, or the next step of one. -/
inductive Event (α : Type) where
  | enqueue (i : Nat) (value : α)
  | dequeue (i : Nat)
  | thread (i : Nat) (chance : Chance)

def put (s : LockFreeQueue α) (i : Nat) (thread : Thread α) (shared : Shared α) :
    LockFreeQueue α := { shared, threads := s.threads.set i thread }

def move (s : LockFreeQueue α) : Event α → Option (LockFreeQueue α × List (Note α))
  | .enqueue i value =>
      s.threads[i]?.bind fun thread =>
        if thread.calling then none
        else
          some (s.put i (.loadTail s.shared.heap.length) (s.shared.allocate value),
            [.created value s.shared.heap.length])
  | .dequeue i =>
      s.threads[i]?.bind fun thread =>
        if thread.calling then none else some (s.put i .loadHead s.shared, [])
  | .thread i chance =>
      s.threads[i]?.bind fun thread =>
        (thread.step chance s.shared).map fun moved => (s.put i moved.1 moved.2.1, moved.2.2)

/-- Nothing moves in a process that is down. -/
def next (s : LockFreeQueue α) (e : Event α) : Option (LockFreeQueue α) :=
  if s.shared.down = none then (s.move e).map Prod.fst else none

def record (s : LockFreeQueue α) (e : Event α) : List (Note α) :=
  ((s.move e).map Prod.snd).getD []

/-- A queue with its record. -/
abbrev QueueStep : LockFreeQueue α × List (Note α) → Event α →
    LockFreeQueue α × List (Note α) → Prop := Recording (Takes next) record

def Thread.Breaks (chance : Chance) (s : Shared α) : Thread α → Prop
  | .loadTailNext _ oldTail | .link _ oldTail => s.nextOf oldTail = none
  | .declareTail _ => chance.indeterminate = none
  | .loadHeadNext oldHead _ => s.nextOf oldHead = none
  | .readData _ headNext => ∀ next, headNext = some next → s.dataOf next = none
  | _ => False

/-- Everything that one step of a thread can do. -/
inductive Moves (chance : Chance) (s : Shared α) :
    Thread α → Thread α → Shared α → List (Note α) → Prop
  | loadTail (newNode : Nat) :
      Moves chance s (.loadTail newNode) (.loadTailNext newNode s.tail) s []
  | loadTailNext (newNode oldTail : Nat) (tailNext : Option Nat) :
      s.nextOf oldTail = some tailNext →
      Moves chance s (.loadTailNext newNode oldTail) (.compareTail newNode oldTail tailNext) s []
  | tailMoved (newNode oldTail : Nat) (tailNext : Option Nat) : oldTail ≠ s.tail →
      Moves chance s (.compareTail newNode oldTail tailNext) (.loadTail newNode) s []
  | atEnd (newNode oldTail : Nat) : oldTail = s.tail →
      Moves chance s (.compareTail newNode oldTail none) (.link newNode oldTail) s []
  | lagging (newNode oldTail next : Nat) : oldTail = s.tail →
      Moves chance s (.compareTail newNode oldTail (some next))
        (.helpTail newNode oldTail next) s []
  | link (newNode oldTail : Nat) : s.nextOf oldTail = some none →
      Moves chance s (.link newNode oldTail) (.swingTail newNode oldTail)
        (s.setNext oldTail newNode) [.linked newNode]
  | linkFailed (newNode oldTail : Nat) :
      Moves chance s (.link newNode oldTail) (.loadTail newNode) s []
  | helpTail (newNode oldTail tailNext : Nat) :
      Moves chance s (.helpTail newNode oldTail tailNext) (.loadTail newNode)
        (s.compareExchangeTail chance oldTail tailNext) []
  | swingTail (newNode oldTail : Nat) :
      Moves chance s (.swingTail newNode oldTail) .enqueued
        (s.compareExchangeTail chance oldTail newNode) []
  | loadHead : Moves chance s .loadHead (.declareTail s.head) s []
  | declareTail (oldHead : Nat) (tail : Option Nat) : chance.indeterminate = some tail →
      Moves chance s (.declareTail oldHead) (.loadHeadNext oldHead tail) s []
  | loadHeadNext (oldHead : Nat) (tail headNext : Option Nat) :
      s.nextOf oldHead = some headNext →
      Moves chance s (.loadHeadNext oldHead tail) (.compareHead oldHead tail headNext) s []
  | headMoved (oldHead : Nat) (tail headNext : Option Nat) : oldHead ≠ s.head →
      Moves chance s (.compareHead oldHead tail headNext) .loadHead s []
  | vacant (oldHead : Nat) : oldHead = s.head →
      Moves chance s (.compareHead oldHead (some oldHead) none) (.dequeued none) s []
  | meets (oldHead next : Nat) : oldHead = s.head →
      Moves chance s (.compareHead oldHead (some oldHead) (some next)) .helpLocal s []
  | differs (oldHead : Nat) (tail headNext : Option Nat) : oldHead = s.head →
      tail ≠ some oldHead →
      Moves chance s (.compareHead oldHead tail headNext) (.readData oldHead headNext) s []
  | helpLocal : Moves chance s .helpLocal .loadHead s []
  | readData (oldHead next : Nat) (data : α) : s.dataOf next = some data →
      Moves chance s (.readData oldHead (some next)) (.swingHead oldHead next data) s []
  | take (oldHead headNext : Nat) (result : α) : s.head = oldHead →
      Moves chance s (.swingHead oldHead headNext result) (.dequeued (some result))
        { s with head := headNext } [.taken result headNext]
  | takeFailed (oldHead headNext : Nat) (result : α) :
      Moves chance s (.swingHead oldHead headNext result) .loadHead s []
  | undefined (thread : Thread α) : thread.Breaks chance s →
      Moves chance s thread thread s.undefined []

theorem compareTail_moves {chance : Chance} {s s' : Shared α} {thread' : Thread α}
    {notes : List (Note α)} {newNode oldTail : Nat} {tailNext : Option Nat}
    (stepped : (Thread.compareTail newNode oldTail tailNext).step chance s =
      some (thread', s', notes)) :
    Moves chance s (.compareTail newNode oldTail tailNext) thread' s' notes := by
  simp only [Thread.step] at stepped
  split at stepped
  · rename_i same
    cases tailNext with
    | none =>
        cases stepped
        exact .atEnd newNode oldTail same
    | some next =>
        cases stepped
        exact .lagging newNode oldTail next same
  · rename_i other
    cases stepped
    exact .tailMoved newNode oldTail tailNext other

theorem link_moves {chance : Chance} {s s' : Shared α} {thread' : Thread α}
    {notes : List (Note α)} {newNode oldTail : Nat}
    (stepped : (Thread.link newNode oldTail).step chance s = some (thread', s', notes)) :
    Moves chance s (.link newNode oldTail) thread' s' notes := by
  simp only [Thread.step] at stepped
  split at stepped
  · rename_i current found
    split at stepped
    · rename_i succeeds
      cases stepped
      exact .link newNode oldTail (succeeds.1 ▸ found)
    · cases stepped
      exact .linkFailed newNode oldTail
  · rename_i missing
    cases stepped
    exact .undefined _ missing

theorem compareHead_moves {chance : Chance} {s s' : Shared α} {thread' : Thread α}
    {notes : List (Note α)} {oldHead : Nat} {tail headNext : Option Nat}
    (stepped : (Thread.compareHead oldHead tail headNext).step chance s =
      some (thread', s', notes)) :
    Moves chance s (.compareHead oldHead tail headNext) thread' s' notes := by
  simp only [Thread.step] at stepped
  split at stepped
  · rename_i same
    split at stepped
    · rename_i meets
      cases meets
      cases headNext with
      | none =>
          cases stepped
          exact .vacant oldHead same
      | some next =>
          cases stepped
          exact .meets oldHead next same
    · rename_i differs
      cases stepped
      exact .differs oldHead tail headNext same (Ne.symm differs)
  · rename_i other
    cases stepped
    exact .headMoved oldHead tail headNext other

theorem readData_moves {chance : Chance} {s s' : Shared α} {thread' : Thread α}
    {notes : List (Note α)} {oldHead : Nat} {headNext : Option Nat}
    (stepped : (Thread.readData oldHead headNext).step chance s = some (thread', s', notes)) :
    Moves chance s (.readData oldHead headNext) thread' s' notes := by
  cases headNext with
  | none =>
      cases stepped
      exact .undefined _ (by simp [Thread.Breaks])
  | some next =>
      simp only [Thread.step] at stepped
      split at stepped
      · rename_i data found
        cases stepped
        exact .readData oldHead next data found
      · rename_i missing
        cases stepped
        exact .undefined _ (by simpa [Thread.Breaks] using missing)

theorem moves_of_step {chance : Chance} {s s' : Shared α} {thread thread' : Thread α}
    {notes : List (Note α)} (stepped : thread.step chance s = some (thread', s', notes)) :
    Moves chance s thread thread' s' notes := by
  cases thread with
  | idle | enqueued | dequeued result => cases stepped
  | loadTail newNode =>
      cases stepped
      exact .loadTail newNode
  | loadTailNext newNode oldTail =>
      simp only [Thread.step] at stepped
      split at stepped
      · rename_i tailNext found
        cases stepped
        exact .loadTailNext newNode oldTail tailNext found
      · rename_i missing
        cases stepped
        exact .undefined _ missing
  | compareTail newNode oldTail tailNext => exact compareTail_moves stepped
  | link newNode oldTail => exact link_moves stepped
  | helpTail newNode oldTail tailNext =>
      cases stepped
      exact .helpTail newNode oldTail tailNext
  | swingTail newNode oldTail =>
      cases stepped
      exact .swingTail newNode oldTail
  | loadHead =>
      cases stepped
      exact .loadHead
  | declareTail oldHead =>
      simp only [Thread.step] at stepped
      split at stepped
      · rename_i tail copied
        cases stepped
        exact .declareTail oldHead tail copied
      · rename_i trapped
        cases stepped
        exact .undefined _ trapped
  | loadHeadNext oldHead tail =>
      simp only [Thread.step] at stepped
      split at stepped
      · rename_i headNext found
        cases stepped
        exact .loadHeadNext oldHead tail headNext found
      · rename_i missing
        cases stepped
        exact .undefined _ missing
  | compareHead oldHead tail headNext => exact compareHead_moves stepped
  | helpLocal =>
      cases stepped
      exact .helpLocal
  | readData oldHead headNext => exact readData_moves stepped
  | swingHead oldHead headNext result =>
      simp only [Thread.step] at stepped
      split at stepped
      · rename_i succeeds
        cases stepped
        exact .take oldHead headNext result succeeds.1
      · cases stepped
        exact .takeFailed oldHead headNext result

/-- Only two kinds of step put something on record or reach beyond the member `tail`. -/
theorem Moves.outcome {chance : Chance} {s s' : Shared α} {thread thread' : Thread α}
    {notes : List (Note α)} (moves : Moves chance s thread thread' s' notes) :
    (notes = [] ∧ s'.heap = s.heap ∧ s'.head = s.head) ∨
      (∃ newNode oldTail, thread = .link newNode oldTail ∧ thread' = .swingTail newNode oldTail ∧
        s.nextOf oldTail = some none ∧ s' = s.setNext oldTail newNode ∧
        notes = [.linked newNode]) ∨
      ∃ oldHead headNext result, thread = .swingHead oldHead headNext result ∧
        thread' = .dequeued (some result) ∧ s.head = oldHead ∧ s' = { s with head := headNext } ∧
        notes = [.taken result headNext] := by
  cases moves with
  | link newNode oldTail last => exact .inr (.inl ⟨newNode, oldTail, rfl, rfl, last, rfl, rfl⟩)
  | take oldHead headNext result same =>
      exact .inr (.inr ⟨oldHead, headNext, result, rfl, rfl, same, rfl, rfl⟩)
  | loadTail | loadTailNext | tailMoved | atEnd | lagging | linkFailed | helpTail | swingTail
  | loadHead | declareTail | loadHeadNext | headMoved | vacant | meets | differs | helpLocal
  | readData | takeFailed | undefined => exact .inl ⟨rfl, rfl, rfl⟩

/-- A step of the queue: who moves, from where, and what changes. -/
inductive Steps (s : LockFreeQueue α) : Event α → LockFreeQueue α → List (Note α) → Prop
  | enqueue (i : Nat) (value : α) (thread : Thread α) : s.threads[i]? = some thread →
      thread.calling = false →
      Steps s (.enqueue i value)
        (s.put i (.loadTail s.shared.heap.length) (s.shared.allocate value))
        [.created value s.shared.heap.length]
  | dequeue (i : Nat) (thread : Thread α) : s.threads[i]? = some thread →
      thread.calling = false → Steps s (.dequeue i) (s.put i .loadHead s.shared) []
  | thread (i : Nat) (chance : Chance) (thread thread' : Thread α) (shared : Shared α)
      (notes : List (Note α)) : s.threads[i]? = some thread →
      Moves chance s.shared thread thread' shared notes →
      Steps s (.thread i chance) (s.put i thread' shared) notes

theorem steps_of_next {s t : LockFreeQueue α} {e : Event α} (taken : Takes next s e t) :
    s.shared.down = none ∧ Steps s e t (s.record e) := by
  unfold Takes next at taken
  split at taken
  · rename_i up
    refine ⟨up, ?_⟩
    obtain ⟨⟨t', notes⟩, moved, rfl⟩ := Option.map_eq_some_iff.mp taken
    rw [record, moved, Option.map_some, Option.getD_some]
    cases e with
    | enqueue i value =>
        obtain ⟨thread, here, called⟩ := Option.bind_eq_some_iff.mp moved
        split at called
        · cases called
        · rename_i free
          cases called
          exact .enqueue i value thread here (Bool.not_eq_true _ ▸ free)
    | dequeue i =>
        obtain ⟨thread, here, called⟩ := Option.bind_eq_some_iff.mp moved
        split at called
        · cases called
        · rename_i free
          cases called
          exact .dequeue i thread here (Bool.not_eq_true _ ▸ free)
    | thread i chance =>
        obtain ⟨thread, here, advanced⟩ := Option.bind_eq_some_iff.mp moved
        obtain ⟨⟨thread', shared, notes'⟩, stepped, same⟩ := Option.map_eq_some_iff.mp advanced
        cases same
        exact .thread i chance thread thread' shared notes' here (moves_of_step stepped)
  · cases taken

end LockFreeQueue
end DeribitTrading
