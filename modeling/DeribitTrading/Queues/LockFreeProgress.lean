import DeribitTrading.Queues.LockFreeRuns

/-!
How long the calls of `LockFreeQueue` can take. A round that fails has been
overtaken by a link, a move of `tail` or a move of `head`, and each of these
brings the queue on; what else can cost a round is counted apart.
-/
namespace DeribitTrading
open Runs Interleaving
open scoped List

namespace LockFreeQueue
variable {α : Type}

/-- The step ends a round for no reason in the queue: a compare-exchange fails
spuriously, or has met the local `tail` of `dequeue`. -/
def Thread.wastes (chance : Chance) : Thread α → Bool
  | .helpLocal => true
  | .link _ _ | .helpTail _ _ _ | .swingHead _ _ _ => chance.spurious
  | _ => false

/-- What is counted: steps and wasted rounds of a thread, its calls, and links. -/
inductive Tick where
  | step (i : Nat)
  | wasted (i : Nat)
  | call (i : Nat)
  | linked
  deriving DecidableEq

def Note.tick : Note α → Option Tick
  | .linked _ => some .linked
  | .created _ _ | .taken _ _ => none

def ticks (s : LockFreeQueue α) (e : Event α) : List Tick :=
  match e with
  | .enqueue i _ | .dequeue i => [.call i]
  | .thread i chance =>
      .step i :: ((if s.threads[i]?.any (Thread.wastes chance) then [.wasted i] else []) ++
        (s.record e).filterMap Note.tick)

/-! ## What a round still costs -/

/-- The steps to the end of the call, if no round fails. -/
def Thread.left : Thread α → Nat
  | .idle | .enqueued | .dequeued _ => 0
  | .loadTail _ | .loadHead => 6
  | .loadTailNext _ _ | .declareTail _ => 5
  | .compareTail _ _ _ | .loadHeadNext _ _ => 4
  | .link _ _ | .helpTail _ _ _ | .compareHead _ _ _ => 3
  | .swingTail _ _ | .helpLocal | .readData _ _ => 2
  | .swingHead _ _ _ => 1

/-- The round has been overtaken: it cannot succeed any more. -/
def Thread.Stale (s : Shared α) : Thread α → Prop
  | .loadTailNext _ oldTail | .helpTail _ oldTail _ => oldTail ≠ s.tail
  | .compareTail _ oldTail tailNext =>
      oldTail ≠ s.tail ∨ tailNext = none ∧ s.nextOf oldTail ≠ some none
  | .link _ oldTail => s.nextOf oldTail ≠ some none
  | .declareTail oldHead | .loadHeadNext oldHead _ | .compareHead oldHead _ _
  | .readData oldHead _ | .swingHead oldHead _ _ => oldHead ≠ s.head
  | .idle | .loadTail _ | .swingTail _ _ | .enqueued | .loadHead | .helpLocal | .dequeued _ => False

instance (s : Shared α) (thread : Thread α) : Decidable (thread.Stale s) :=
  match thread with
  | .loadTailNext _ oldTail | .helpTail _ oldTail _ =>
      inferInstanceAs (Decidable (oldTail ≠ s.tail))
  | .compareTail _ oldTail tailNext =>
      inferInstanceAs
        (Decidable (oldTail ≠ s.tail ∨ tailNext = none ∧ s.nextOf oldTail ≠ some none))
  | .link _ oldTail => inferInstanceAs (Decidable (s.nextOf oldTail ≠ some none))
  | .declareTail oldHead | .loadHeadNext oldHead _ | .compareHead oldHead _ _
  | .readData oldHead _ | .swingHead oldHead _ _ => inferInstanceAs (Decidable (oldHead ≠ s.head))
  | .idle | .loadTail _ | .swingTail _ _ | .enqueued | .loadHead | .helpLocal | .dequeued _ =>
      inferInstanceAs (Decidable False)

/-- What a thread has to its debit: a stale round is lost already. -/
def Thread.due (s : Shared α) (thread : Thread α) : Nat :=
  (if thread.Stale s then 6 else 0) + thread.left

/-- How far a step brings the queue on. -/
def gain (s s' : Shared α) (notes : List (Note α)) : Nat :=
  (if s'.tail = s.tail then 0 else 1) + notes.length

namespace Thread
variable {chance : Chance} {s s' : Shared α} {thread thread' : Thread α} {notes : List (Note α)}

theorem due_of_stale (stale : thread.Stale s) : thread.due s = 6 + thread.left := by
  rw [due, if_pos stale]

theorem due_of_fresh (fresh : ¬ thread.Stale s) : thread.due s = thread.left := by
  rw [due, if_neg fresh, Nat.zero_add]

theorem due_next (kept : thread'.Stale s' → thread.Stale s) (less : thread'.left < thread.left)
    (more : Nat) : 1 + thread'.due s' ≤ thread.due s + more := by
  by_cases stale : thread'.Stale s'
  · rw [due_of_stale stale, due_of_stale (kept stale)]
    omega
  · rw [due_of_fresh stale, due]
    omega

/-- A round that fails has been paid for if it was stale, and is else paid for by what
the step does, or is wasted. -/
theorem due_restart (room : 0 < thread.left) {n : Nat} (paid : thread.Stale s ∨ 0 < n) :
    1 + 6 ≤ thread.due s + 6 * n := by
  rcases paid with stale | some
  · rw [due_of_stale stale]
    omega
  · unfold due
    omega

theorem link_fails {newNode oldTail : Nat}
    (stepped : (Thread.link newNode oldTail).step chance s = some (.loadTail newNode, s, [])) :
    chance.spurious = true ∨ s.nextOf oldTail ≠ some none := by
  by_contra succeeds
  obtain ⟨genuine, last⟩ := not_or.mp succeeds
  rw [not_not] at last
  simp [step, last, genuine] at stepped

theorem swingHead_fails {oldHead headNext : Nat} {result : α}
    (stepped : (Thread.swingHead oldHead headNext result).step chance s = some (.loadHead, s, [])) :
    chance.spurious = true ∨ oldHead ≠ s.head := by
  by_contra succeeds
  obtain ⟨genuine, same⟩ := not_or.mp succeeds
  rw [not_not] at same
  simp [step, same, genuine] at stepped

def Restarts (thread : Thread α) : Prop :=
  (∃ newNode, thread = .loadTail newNode) ∨ thread = .loadHead

theorem Restarts.due (restarts : thread.Restarts) : thread.due s = 6 := by
  rcases restarts with ⟨newNode, rfl⟩ | rfl
  · exact due_of_fresh id
  · exact due_of_fresh id

theorem left_pos (moves : Moves chance s thread thread' s' notes) (up : s'.down = none) :
    0 < thread.left := by
  cases moves with
  | undefined => cases up
  | _ => exact Nat.succ_pos _

/-- Unless a round starts again, a step leaves less of it, and makes it stale only if it
was so before. -/
theorem goes_on (moves : Moves chance s thread thread' s' notes) (up : s'.down = none)
    (onward : ¬ thread'.Restarts) :
    (thread'.Stale s' → thread.Stale s) ∧ thread'.left < thread.left := by
  cases moves with
  | loadTail | loadHead => exact ⟨fun stale => absurd rfl stale, Nat.lt_add_one 5⟩
  | loadTailNext newNode oldTail tailNext found =>
      refine ⟨?_, Nat.lt_add_one 4⟩
      rintro (moved | ⟨rfl, linked⟩)
      · exact moved
      · exact absurd found linked
  | atEnd => exact ⟨fun linked => .inr ⟨rfl, linked⟩, Nat.lt_add_one 3⟩
  | lagging newNode oldTail next same => exact ⟨fun moved => absurd same moved, Nat.lt_add_one 3⟩
  | declareTail => exact ⟨id, Nat.lt_add_one 4⟩
  | loadHeadNext => exact ⟨id, Nat.lt_add_one 3⟩
  | differs => exact ⟨id, Nat.lt_add_one 2⟩
  | readData => exact ⟨id, Nat.lt_add_one 1⟩
  -- nothing can make what is left of these stale
  | meets | link => exact ⟨False.elim, Nat.lt_add_one 2⟩
  | swingTail | vacant | take => exact ⟨False.elim, Nat.succ_pos _⟩
  | tailMoved newNode | linkFailed newNode | helpTail newNode =>
      exact absurd (.inl ⟨newNode, rfl⟩) onward
  | headMoved | takeFailed | helpLocal => exact absurd (.inr rfl) onward
  | undefined => cases up

theorem helpTail_paid {newNode oldTail next : Nat} (other : s.tail = oldTail → next ≠ oldTail) :
    (Thread.helpTail newNode oldTail next : Thread α).Stale s ∨
      0 < gain s (s.compareExchangeTail chance oldTail next) ([] : List (Note α)) +
        if (Thread.helpTail newNode oldTail next : Thread α).wastes chance then 1 else 0 := by
  by_cases same : s.tail = oldTail
  · refine .inr ?_
    cases spurious : chance.spurious with
    | true => simp [wastes, spurious]
    | false =>
        have moved :
            gain s (s.compareExchangeTail chance oldTail next) ([] : List (Note α)) = 1 := by
          simp [gain, Shared.compareExchangeTail, same, spurious, other same]
        rw [moved]
        exact Nat.add_pos_left Nat.one_pos _
  · exact .inl (Ne.symm same)

/-- Why a round starts again: it was stale, the step has helped, or it is a wasted one. -/
theorem restart_paid (stepped : thread.step chance s = some (thread', s', notes))
    (up : s'.down = none) (restarts : thread'.Restarts)
    (onward : ∀ newNode oldTail next, thread = .helpTail newNode oldTail next →
      s.tail = oldTail → next ≠ oldTail) :
    thread.Stale s ∨ 0 < gain s s' notes + if thread.wastes chance then 1 else 0 := by
  have wasted (spends : thread.wastes chance = true) :
      0 < gain s s' notes + if thread.wastes chance then 1 else 0 := by
    rw [if_pos spends]
    exact Nat.succ_pos _
  cases moves_of_step stepped with
  | tailMoved newNode oldTail tailNext moved => exact .inl (.inl moved)
  | headMoved oldHead tail headNext moved => exact .inl moved
  | linkFailed newNode oldTail =>
      rcases link_fails stepped with spurious | linked
      · exact .inr (wasted spurious)
      · exact .inl linked
  | takeFailed oldHead headNext result =>
      rcases swingHead_fails stepped with spurious | moved
      · exact .inr (wasted spurious)
      · exact .inl moved
  | helpTail newNode oldTail next => exact helpTail_paid (onward _ _ _ rfl)
  | helpLocal => exact .inr (wasted rfl)
  | undefined => cases up
  | _ => rcases restarts with ⟨_, no⟩ | no <;> cases no

/-- A step of the thread itself is paid for by what it had to its debit, by what it
does for the queue, or by the wasted round. -/
theorem due_step (stepped : thread.step chance s = some (thread', s', notes)) (up : s'.down = none)
    (onward : ∀ newNode oldTail next, thread = .helpTail newNode oldTail next →
      s.tail = oldTail → next ≠ oldTail) :
    1 + thread'.due s' ≤
      thread.due s + 6 * (gain s s' notes + if thread.wastes chance then 1 else 0) := by
  have moves := moves_of_step stepped
  by_cases restarts : thread'.Restarts
  · rw [restarts.due]
    exact due_restart (left_pos moves up) (restart_paid stepped up restarts onward)
  · obtain ⟨kept, less⟩ := goes_on moves up restarts
    exact due_next kept less _

end Thread

/-- What another thread does makes a round stale only by bringing the queue on. -/
theorem Thread.due_other {s s' : Shared α} (thread : Thread α) {n : Nat}
    (kept : n = 0 → s'.tail = s.tail ∧ s'.head = s.head ∧
      ∀ node, s.nextOf node = some none → s'.nextOf node = some none) :
    thread.due s' ≤ thread.due s + 6 * n := by
  rcases Nat.eq_zero_or_pos n with none | some
  · obtain ⟨tail, head, links⟩ := kept none
    have stale : thread.Stale s' → thread.Stale s := by
      cases thread with
      | loadTailNext newNode oldTail | helpTail newNode oldTail next =>
          exact fun moved same => moved (same.trans tail.symm)
      | compareTail newNode oldTail tailNext =>
          rintro (moved | ⟨same, linked⟩)
          · exact .inl fun same => moved (same.trans tail.symm)
          · exact .inr ⟨same, fun last => linked (links oldTail last)⟩
      | link newNode oldTail => exact fun linked last => linked (links oldTail last)
      | declareTail | loadHeadNext | compareHead | readData | swingHead =>
          exact fun moved same => moved (same.trans head.symm)
      | idle | loadTail | swingTail | enqueued | loadHead | helpLocal | dequeued => exact id
    by_cases later : thread.Stale s'
    · rw [due_of_stale later, due_of_stale (stale later)]
      omega
    · rw [due_of_fresh later, due]
      omega
  · unfold due
    split <;> split <;> omega

/-! ## How far the queue can be brought on -/

/-- The link behind a tail, as far as a thread has seen it. -/
def Thread.Follows (s : Shared α) : Thread α → Prop
  | .compareTail _ oldTail (some next) | .helpTail _ oldTail next | .swingTail next oldTail =>
      s.nextOf oldTail = some (some next)
  | _ => True

theorem Thread.Follows.mono {s s' : Shared α} {thread : Thread α} (follows : thread.Follows s)
    (keeps : s.Keeps s') : thread.Follows s' := by
  cases thread with
  | compareTail newNode oldTail tailNext =>
      cases tailNext with
      | none => trivial
      | some next => exact keeps.1 _ _ follows
  | helpTail | swingTail => exact keeps.1 _ _ follows
  | idle | loadTail | loadTailNext | link | enqueued | loadHead | declareTail | loadHeadNext
  | compareHead | helpLocal | readData | swingHead | dequeued => trivial

theorem Moves.keeps {chance : Chance} {s s' : Shared α} {thread thread' : Thread α}
    {notes : List (Note α)} (moves : Moves chance s thread thread' s' notes) : s.Keeps s' := by
  rcases moves.outcome with ⟨_, heap, _⟩ | ⟨newNode, oldTail, _, _, last, rfl, _⟩ |
    ⟨_, _, _, _, _, _, rfl, _⟩
  · exact Shared.keeps_of_heap heap
  · exact Shared.keeps_setNext last
  · exact Shared.keeps_of_heap rfl

theorem Moves.follows {chance : Chance} {s s' : Shared α} {thread thread' : Thread α}
    {notes : List (Note α)} (moves : Moves chance s thread thread' s' notes)
    (follows : thread.Follows s) : thread'.Follows s' := by
  cases moves with
  | loadTailNext newNode oldTail tailNext found =>
      cases tailNext with
      | none => trivial
      | some next => exact found
  | lagging newNode oldTail next same => exact follows
  | link newNode oldTail last => exact Shared.nextOf_setNext_self (Shared.lt_of_nextOf last)
  | undefined thread breaks => exact follows.mono (Shared.keeps_of_heap rfl)
  | loadTail | tailMoved | atEnd | linkFailed | helpTail | swingTail | loadHead | declareTail
  | loadHeadNext | headMoved | vacant | meets | differs | helpLocal | readData | take
  | takeFailed => trivial

/-- A thread puts links and takings on record. -/
theorem Moves.notes_length {chance : Chance} {s s' : Shared α} {thread thread' : Thread α}
    {notes : List (Note α)} (moves : Moves chance s thread thread' s' notes) :
    (Fifo.added (ops notes)).length = (notes.filterMap Note.tick).length ∧
      notes.length =
        (Fifo.removed (ops notes)).length + (notes.filterMap Note.tick).length := by
  rcases moves.outcome with ⟨rfl, _⟩ | ⟨_, _, _, _, _, _, rfl⟩ | ⟨_, _, _, _, _, _, _, rfl⟩
  · exact ⟨rfl, rfl⟩
  · exact ⟨rfl, rfl⟩
  · exact ⟨rfl, rfl⟩

/-- A thread that stands before the null pointer can do nothing more to the queue. -/
def Thread.masked : Thread α → Thread α
  | .readData _ none => .loadHead
  | thread => thread

def masked (s : LockFreeQueue α) : LockFreeQueue α :=
  { s with threads := s.threads.map Thread.masked }

theorem masked_put (s : LockFreeQueue α) (i : Nat) (thread : Thread α) (shared : Shared α) :
    masked (s.put i thread shared) = (masked s).put i thread.masked shared := by
  simp only [masked, put, List.map_set]

theorem Thread.masked_cases (thread : Thread α) :
    thread.masked = thread ∨ ∃ oldHead, thread = .readData oldHead none := by
  cases thread with
  | readData oldHead headNext =>
      cases headNext with
      | none => exact .inr ⟨oldHead, rfl⟩
      | some next => exact .inl rfl
  | _ => exact .inl rfl

theorem Moves.masked_eq {chance : Chance} {s s' : Shared α} {thread thread' : Thread α}
    {notes : List (Note α)} (moves : Moves chance s thread thread' s' notes)
    (up : s'.down = none) : thread.masked = thread := by
  rcases thread.masked_cases with same | ⟨oldHead, rfl⟩
  · exact same
  · cases moves with
    | undefined => cases up

/-- A step that the process survives is safe, or leads before the null pointer. -/
theorem Moves.masked_cases {chance : Chance} {s s' : Shared α} {thread thread' : Thread α}
    {notes : List (Note α)} (moves : Moves chance s thread thread' s' notes)
    (up : s'.down = none) :
    thread'.masked = thread' ∧ thread.Safe chance s ∨
      ∃ oldHead tail, thread = .compareHead oldHead tail none ∧
        thread' = .readData oldHead none ∧ s' = s ∧ notes = [] := by
  cases moves with
  | undefined => cases up
  | declareTail oldHead tail copied =>
      refine .inl ⟨rfl, ?_⟩
      intro trapped
      cases copied.symm.trans trapped
  | headMoved oldHead tail headNext moved =>
      refine .inl ⟨rfl, ?_⟩
      cases headNext with
      | none => exact fun same => absurd same moved
      | some next => trivial
  | vacant oldHead same => exact .inl ⟨rfl, fun _ => rfl⟩
  | differs oldHead tail headNext same differs =>
      cases headNext with
      | none => exact .inr ⟨oldHead, tail, rfl, rfl, rfl, rfl⟩
      | some next => exact .inl ⟨rfl, trivial⟩
  | loadTail | loadTailNext | tailMoved | atEnd | lagging | link | linkFailed | helpTail | swingTail
  | loadHead | loadHeadNext | meets | helpLocal | readData | take | takeFailed =>
      exact .inl ⟨rfl, trivial⟩

/-- The member `tail` stays where it is, or follows one link. -/
theorem Moves.tail_cases {chance : Chance} {s s' : Shared α} {thread thread' : Thread α}
    {notes : List (Note α)} (moves : Moves chance s thread thread' s' notes)
    (follows : thread.Follows s) :
    s'.tail = s.tail ∨ s.nextOf s.tail = some (some s'.tail) := by
  cases moves with
  | helpTail newNode oldTail next =>
      by_cases succeeds : s.tail = oldTail ∧ chance.spurious = false
      · refine .inr ?_
        rw [Shared.compareExchangeTail, if_pos succeeds, succeeds.1]
        exact follows
      · exact .inl (if_neg succeeds)
  | swingTail newNode oldTail =>
      by_cases succeeds : s.tail = oldTail ∧ chance.spurious = false
      · refine .inr ?_
        rw [Shared.compareExchangeTail, if_pos succeeds, succeeds.1]
        exact follows
      · exact .inl (if_neg succeeds)
  | loadTail | loadTailNext | tailMoved | atEnd | lagging | link | linkFailed | loadHead
  | declareTail | loadHeadNext | headMoved | vacant | meets | differs | helpLocal | readData | take
  | takeFailed | undefined => exact .inl rfl

/-- The nodes that have been the head, the nodes on the chain, and the place of `tail`. -/
def extent (s : Shared α) (past items : List Nat) : Nat :=
  past.length + (past ++ items).length + (past ++ items).idxOf s.tail

namespace Represents
variable {s : LockFreeQueue α} {past items : List Nat} {i : Nat} {thread thread' : Thread α}
  {chance : Chance} {shared : Shared α} {notes : List (Note α)}

/-- The chain is kept in every step that the process survives, safe or not. -/
theorem advance_masked (rep : Represents (masked s) past items)
    (here : s.threads[i]? = some thread)
    (moves : Moves chance s.shared thread thread' shared notes) (up : shared.down = none) :
    ∃ items', Trace FifoStep items (ops notes) items' ∧
      Represents (masked (s.put i thread' shared)) (past ++ Fifo.removed (ops notes)) items' := by
  rw [masked_put]
  have seen : (masked s).threads[i]? = some thread.masked := by
    rw [masked, List.getElem?_map, here, Option.map_some]
  rw [moves.masked_eq up] at seen
  rcases moves.masked_cases up with ⟨same, safe⟩ | ⟨oldHead, tail, rfl, rfl, rfl, rfl⟩
  · rw [same]
    exact rep.advance seen safe moves
  · refine ⟨items, .nil items, ?_⟩
    have kept : Represents ((masked s).put i .loadHead (masked s).shared) past items :=
      rep.move seen rfl trivial
    rwa [← List.append_nil past] at kept

theorem extent_step (rep : Represents (masked s) past items) (follows : thread.Follows s.shared)
    (here : s.threads[i]? = some thread)
    (moves : Moves chance s.shared thread thread' shared notes) (up : shared.down = none) :
    ∃ past' items', Represents (masked (s.put i thread' shared)) past' items' ∧
      extent s.shared past items + gain s.shared shared notes ≤ extent shared past' items' ∧
      (past' ++ items').length =
        (past ++ items).length + (notes.filterMap Note.tick).length := by
  obtain ⟨items', fifo, kept⟩ := rep.advance_masked here moves up
  have chain : past ++ Fifo.removed (ops notes) ++ items' =
      past ++ items ++ Fifo.added (ops notes) := by
    rw [List.append_assoc, ← Fifo.conserved fifo, List.append_assoc]
  obtain ⟨added, length⟩ := moves.notes_length
  have links : Chain.Linked s.shared.nextOf (past ++ items) := rep.linked
  have tail : s.shared.tail ∈ past ++ items := rep.tail
  have place : (past ++ items).idxOf s.shared.tail +
      (if shared.tail = s.shared.tail then 0 else 1) ≤
        (past ++ items ++ Fifo.added (ops notes)).idxOf shared.tail := by
    rcases moves.tail_cases follows with same | next
    · rw [if_pos same, same, List.idxOf_append_of_mem tail, Nat.add_zero]
    · have once := (List.nodup_append.mp rep.distinct).1
      rw [List.idxOf_append_of_mem (links.next_mem tail next), links.idxOf_next once tail next]
      split <;> omega
  refine ⟨_, items', kept, ?_, ?_⟩
  · have longer := congrArg List.length chain
    simp only [extent, gain, chain, List.length_append] at place longer ⊢
    omega
  · rw [chain, List.length_append, added]

end Represents

/-! ## The account -/

def dueOf (s : LockFreeQueue α) (i : Nat) : Nat := s.threads[i]?.elim 0 (Thread.due s.shared)

theorem dueOf_put_self {s : LockFreeQueue α} {i : Nat} {thread : Thread α}
    (here : s.threads[i]? = some thread) (thread' : Thread α) (shared : Shared α) :
    (s.put i thread' shared).dueOf i = thread'.due shared := by
  have inside : i < s.threads.length := (List.getElem?_eq_some_iff.mp here).1
  rw [dueOf, put, List.getElem?_set_self inside, Option.elim_some]

theorem dueOf_put_other {s : LockFreeQueue α} {i j : Nat} (other : i ≠ j) (thread' : Thread α)
    {shared : Shared α} {n : Nat}
    (kept : n = 0 → shared.tail = s.shared.tail ∧ shared.head = s.shared.head ∧
      ∀ node, s.shared.nextOf node = some none → shared.nextOf node = some none) :
    (s.put i thread' shared).dueOf j ≤ s.dueOf j + 6 * n := by
  rw [dueOf, dueOf, put, List.getElem?_set_ne other]
  cases s.threads[j]? with
  | none => exact Nat.zero_le _
  | some thread => exact thread.due_other kept

theorem filterMap_tick (notes : List (Note α)) :
    notes.filterMap Note.tick = List.replicate (notes.filterMap Note.tick).length .linked := by
  apply List.eq_replicate_of_mem
  intro tick there
  obtain ⟨note, _, same⟩ := List.mem_filterMap.mp there
  cases note with
  | linked node => exact (Option.some.inj same).symm
  | created | taken => cases same

/-- What each thread has done and still owes is covered by what the queue, its calls and
its wasted rounds have brought. -/
structure Paid (s : LockFreeQueue α) (log : List Tick) (past items : List Nat) : Prop where
  chain : Represents (masked s) past items
  follows : Each (fun _ thread => thread.Follows s.shared) s.threads
  length : (past ++ items).length = 1 + log.count .linked
  paid : ∀ i, log.count (.step i) + s.dueOf i + 12 ≤
    6 * (extent s.shared past items + log.count (.wasted i) + log.count (.call i))

theorem Paid.create [Inhabited α] (threads : Nat) :
    Paid (create threads : LockFreeQueue α) [] [0] [] where
  chain := by
    have same : masked (LockFreeQueue.create threads : LockFreeQueue α) =
        LockFreeQueue.create threads := by
      simp [masked, LockFreeQueue.create, Thread.masked]
    rw [same]
    exact .create threads
  follows := Each.replicate (fun _ => trivial) threads
  length := rfl
  paid := by
    intro i
    have none_due : (LockFreeQueue.create threads : LockFreeQueue α).dueOf i = 0 := by
      rw [dueOf, LockFreeQueue.create, List.getElem?_replicate]
      split <;> rfl
    rw [none_due]
    exact Nat.le_refl 12

theorem masked_of_here {s : LockFreeQueue α} {i : Nat} {thread : Thread α}
    (here : s.threads[i]? = some thread) (free : thread.calling = false) :
    (masked s).threads[i]? = some thread := by
  have same : thread.masked = thread := by
    rcases thread.masked_cases with same | ⟨oldHead, rfl⟩
    · exact same
    · cases free
  rw [masked, List.getElem?_map, here, Option.map_some, same]

theorem thread_of_next {s t : LockFreeQueue α} {i : Nat} {chance : Chance}
    (taken : Takes next s (.thread i chance) t) :
    ∃ thread thread' shared notes, s.threads[i]? = some thread ∧
      thread.step chance s.shared = some (thread', shared, notes) ∧
      t = s.put i thread' shared ∧ s.record (.thread i chance) = notes := by
  unfold Takes next at taken
  split at taken
  · obtain ⟨⟨t', noted⟩, moved, rfl⟩ := Option.map_eq_some_iff.mp taken
    obtain ⟨thread, here, advanced⟩ := Option.bind_eq_some_iff.mp moved
    obtain ⟨⟨thread', shared, notes⟩, stepped, same⟩ := Option.map_eq_some_iff.mp advanced
    cases same
    refine ⟨thread, thread', shared, notes, here, stepped, rfl, ?_⟩
    rw [record, moved]
    rfl
  · cases taken

namespace Paid
variable {s : LockFreeQueue α} {log : List Tick} {past items : List Nat} {i : Nat}
  {thread thread' : Thread α} {shared : Shared α}

/-- A call has six steps to its credit, which is what its first round may cost. -/
theorem call (paid : Paid s log past items) (here : s.threads[i]? = some thread)
    (chain : Represents (masked (s.put i thread' shared)) past items)
    (keeps : s.shared.Keeps shared) (follows : thread'.Follows shared)
    (start : thread'.due shared = 6)
    (kept : shared.tail = s.shared.tail ∧ shared.head = s.shared.head ∧
      ∀ node, s.shared.nextOf node = some none → shared.nextOf node = some none) :
    Paid (s.put i thread' shared) (log ++ [.call i]) past items where
  chain := chain
  follows := paid.follows.set follows fun _ _ _ _ follows => follows.mono keeps
  length := by
    rw [List.count_append, List.count_singleton]
    exact paid.length
  paid := by
    intro j
    have before := paid.paid j
    have extent : extent shared past items = extent s.shared past items := by
      rw [LockFreeQueue.extent, LockFreeQueue.extent, kept.1]
    show _ + _ + 12 ≤ 6 * (LockFreeQueue.extent shared past items + _ + _)
    by_cases same : i = j
    · subst same
      rw [dueOf_put_self here, start, extent]
      simp only [List.count_append, List.count_singleton]
      simp
      omega
    · have other := dueOf_put_other (n := 0) same thread' fun _ => kept
      rw [extent]
      simp only [List.count_append, List.count_singleton]
      simp [same]
      omega

/-- A thread that follows a link from the member `tail` gets somewhere else. -/
theorem onward (paid : Paid s log past items) (here : s.threads[i]? = some thread)
    (newNode oldTail next : Nat) (same : thread = .helpTail newNode oldTail next)
    (tail : s.shared.tail = oldTail) : next ≠ oldTail := by
  subst same tail
  have links : Chain.Linked s.shared.nextOf (past ++ items) := paid.chain.linked
  have follows : s.shared.nextOf s.shared.tail = some (some next) := paid.follows i _ here
  have once := (List.nodup_append.mp paid.chain.distinct).1
  have place := links.idxOf_next once paid.chain.tail follows
  intro stays
  rw [stays] at place
  exact Nat.succ_ne_self _ place.symm

theorem kept_of_gain {chance : Chance} {notes : List (Note α)}
    (moves : Moves chance s.shared thread thread' shared notes)
    (still : gain s.shared shared notes = 0) :
    shared.tail = s.shared.tail ∧ shared.head = s.shared.head ∧
      ∀ node, s.shared.nextOf node = some none → shared.nextOf node = some none := by
  obtain ⟨tail, silent⟩ := Nat.add_eq_zero_iff.mp still
  have quiet : notes = [] := List.eq_nil_of_length_eq_zero silent
  have same : shared.tail = s.shared.tail := by
    by_contra moved
    rw [if_neg moved] at tail
    cases tail
  rcases moves.outcome with ⟨_, heap, head⟩ | ⟨_, _, _, _, _, _, noted⟩ |
    ⟨_, _, _, _, _, _, _, noted⟩
  · refine ⟨same, head, ?_⟩
    intro node last
    rw [Shared.nextOf, heap]
    exact last
  · cases quiet.symm.trans noted
  · cases quiet.symm.trans noted

theorem step {chance : Chance} {notes : List (Note α)} (paid : Paid s log past items)
    (here : s.threads[i]? = some thread)
    (stepped : thread.step chance s.shared = some (thread', shared, notes))
    (up : shared.down = none) :
    ∃ past' items', Paid (s.put i thread' shared)
      (log ++ .step i :: ((if thread.wastes chance then [.wasted i] else []) ++
        notes.filterMap Note.tick)) past' items' := by
  have moves := moves_of_step stepped
  have follows := paid.follows i thread here
  obtain ⟨past', items', chain, farther, longer⟩ :=
    paid.chain.extent_step follows here moves up
  have own := Thread.due_step stepped up (paid.onward here)
  refine ⟨past', items', chain, ?_, ?_, ?_⟩
  · exact paid.follows.set (moves.follows follows) fun _ _ _ _ follows => follows.mono moves.keeps
  · have before := paid.length
    rw [filterMap_tick]
    cases thread.wastes chance <;> simp [longer, before] <;> omega
  · intro j
    have before := paid.paid j
    show _ + _ + 12 ≤ 6 * (extent shared past' items' + _ + _)
    rw [filterMap_tick]
    by_cases same : i = j
    · subst same
      rw [dueOf_put_self here]
      have due : s.dueOf i = thread.due s.shared := by rw [dueOf, here, Option.elim_some]
      rw [due] at before
      cases wasted : thread.wastes chance with
      | true =>
          rw [wasted] at own
          simp [List.count_replicate] at own ⊢
          omega
      | false =>
          rw [wasted] at own
          simp [List.count_replicate] at own ⊢
          omega
    · have other := dueOf_put_other same thread' (kept_of_gain moves)
      cases thread.wastes chance <;>
        simp [List.count_replicate, same] <;> omega

theorem next {t : LockFreeQueue α} {e : Event α} (paid : Paid s log past items)
    (taken : Takes next s e t) (up : t.shared.down = none) :
    ∃ past' items', Paid t (log ++ s.ticks e) past' items' := by
  cases e with
  | enqueue i value =>
      obtain ⟨_, steps⟩ := steps_of_next taken
      generalize s.record (.enqueue i value) = notes at steps
      cases steps with
      | enqueue i value thread here free =>
          refine ⟨past, items, paid.call here ?_ Shared.keeps_allocate trivial rfl ?_⟩
          · rw [masked_put]
            exact paid.chain.allocate (masked_of_here here free) free value
          · refine ⟨rfl, rfl, ?_⟩
            intro node last
            rw [Shared.nextOf_allocate_of_lt (Shared.lt_of_nextOf last), last]
  | dequeue i =>
      obtain ⟨_, steps⟩ := steps_of_next taken
      generalize s.record (.dequeue i) = notes at steps
      cases steps with
      | dequeue i thread here free =>
          have unheld : [] = thread.held := (Thread.held_of_not_calling free).symm
          refine ⟨past, items, paid.call here ?_ (Shared.keeps_of_heap rfl) trivial rfl ?_⟩
          · rw [masked_put]
            exact paid.chain.move (masked_of_here here free) unheld trivial
          · exact ⟨rfl, rfl, fun _ last => last⟩
  | thread i chance =>
      obtain ⟨thread, thread', shared, notes, here, stepped, rfl, noted⟩ := thread_of_next taken
      have same : s.ticks (.thread i chance) =
          .step i :: ((if thread.wastes chance then [.wasted i] else []) ++
            notes.filterMap Note.tick) := by
        rw [ticks, here, noted]
        rfl
      rw [same]
      exact paid.step here stepped up

theorem bound (paid : Paid s log past items) (i : Nat) :
    log.count (.step i) + s.dueOf i ≤
      6 * (3 * log.count .linked + log.count (.wasted i) + log.count (.call i)) := by
  have account := paid.paid i
  have chain := paid.length
  have place : (past ++ items).idxOf s.shared.tail < (past ++ items).length :=
    List.idxOf_lt_length_of_mem paid.chain.tail
  have part : past.length ≤ (past ++ items).length := by
    rw [List.length_append]
    exact Nat.le_add_right _ _
  rw [extent] at account
  omega

end Paid

/-- While the process runs, its account is balanced. -/
def Balanced (r : LockFreeQueue α × List Tick) : Prop :=
  r.1.shared.down = none → ∃ past items, Paid r.1 r.2 past items

theorem Balanced.step {r r' : LockFreeQueue α × List Tick} {e : Event α} (balanced : Balanced r)
    (taken : Recording (Takes next) ticks r e r') : Balanced r' := by
  intro up
  obtain ⟨moved, written⟩ := taken
  obtain ⟨past, items, paid⟩ := balanced (steps_of_next moved).1
  rw [written]
  exact paid.next moved up

variable {threads : Nat} {events : List (Event α)} {r : LockFreeQueue α × List Tick}

/-- The steps of a thread are paid for by the nodes linked, which `tail` and `head` still
have to pass, by its calls and by its wasted rounds, at six steps each. -/
theorem lock_free_queue_steps [Inhabited α]
    (run : Trace (Recording (Takes next) ticks) (create threads, []) events r)
    (up : r.1.shared.down = none) (i : Nat) :
    r.2.count (.step i) ≤
      6 * (3 * r.2.count .linked + r.2.count (.wasted i) + r.2.count (.call i)) := by
  have balanced : Balanced r := by
    refine run.invariant ?_ fun _ => ⟨[0], [], .create threads⟩
    exact fun _ _ _ balanced taken => balanced.step taken
  obtain ⟨past, items, paid⟩ := balanced up
  exact Nat.le_trans (Nat.le_add_right _ _) (paid.bound i)

/-- Thread 1 puts 7 in while thread 0, which puts 5 in, stands before its first comparison:
the round of thread 0 is lost, and it comes to its end in the next. -/
def overtaken : List (Event Nat) :=
  .enqueue 0 5 :: run 0 (List.replicate 2 (holding none)) ++
    .enqueue 1 7 :: run 1 (List.replicate 5 (holding none)) ++
      run 0 (List.replicate 6 (holding none))

theorem overtaken_steps :
    ∃ r, Trace (Recording (Takes next) ticks) (create 2, []) overtaken r ∧
      (∀ thread ∈ r.1.threads, thread.calling = false) ∧ r.2.count (.step 0) = 8 ∧
      8 ≤ 6 * (3 * r.2.count .linked + r.2.count (.wasted 0) + r.2.count (.call 0)) := by
  have followed : (follow (recordingNext next ticks) (create 2, []) overtaken).any
      (fun r => r.1.shared.down = none ∧ (∀ thread ∈ r.1.threads, thread.calling = false) ∧
        r.2.count (.step 0) = 8) = true := by decide +kernel
  obtain ⟨r, run, shown⟩ := exists_trace_of_follow followed
  rw [takes_recordingNext] at run
  obtain ⟨up, returned, eight⟩ := of_decide_eq_true shown
  refine ⟨r, run, returned, eight, ?_⟩
  rw [← eight]
  exact lock_free_queue_steps run up 0

end LockFreeQueue
end DeribitTrading
