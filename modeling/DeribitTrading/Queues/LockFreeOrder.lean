import DeribitTrading.Library.Chain
import DeribitTrading.Library.Interleaving
import DeribitTrading.Queues.LockFreeQueue

/-!
The nodes of the queue form one chain: those that have been the head, in the
order they were, and behind them those in the queue. `dequeue` keeps to it as
long as its local `tail`, which is initialised with itself, happens to be right.
-/
namespace DeribitTrading
open Runs Interleaving
open scoped List

namespace LockFreeQueue
variable {α : Type}

/-! ## The heap -/

namespace Shared
variable {s : Shared α} {node next a : Nat} {value : α}

@[simp] theorem nextOf_allocate_of_lt (inside : node < s.heap.length) :
    (s.allocate value).nextOf node = s.nextOf node := by
  simp only [nextOf, allocate, List.getElem?_append_left inside]

@[simp] theorem nextOf_allocate_self : (s.allocate value).nextOf s.heap.length = some none := by
  simp only [nextOf, allocate, List.getElem?_concat_length, Option.map_some]

theorem lt_of_nextOf {next : Option Nat} (found : s.nextOf node = some next) :
    node < s.heap.length := by
  obtain ⟨n, there, -⟩ := Option.map_eq_some_iff.mp found
  exact (List.getElem?_eq_some_iff.mp there).1

theorem lt_of_dataOf (found : s.dataOf node = some value) : node < s.heap.length := by
  obtain ⟨n, there, -⟩ := Option.map_eq_some_iff.mp found
  exact (List.getElem?_eq_some_iff.mp there).1

theorem dataOf_of_nextOf {next : Option Nat} (found : s.nextOf node = some next) :
    ∃ value, s.dataOf node = some value := by
  obtain ⟨n, there, -⟩ := Option.map_eq_some_iff.mp found
  exact ⟨n.data, by rw [dataOf, there, Option.map_some]⟩

theorem dataOf_allocate_of_lt (inside : node < s.heap.length) :
    (s.allocate value).dataOf node = s.dataOf node := by
  simp only [dataOf, allocate, List.getElem?_append_left inside]

theorem nextOf_setNext_of_ne (other : a ≠ node) : (s.setNext node next).nextOf a = s.nextOf a := by
  simp only [nextOf, setNext, List.getElem?_modify_ne _ _ (Ne.symm other)]

theorem nextOf_setNext_self (inside : node < s.heap.length) :
    (s.setNext node next).nextOf node = some (some next) := by
  simp only [nextOf, setNext, List.getElem?_modify_eq, List.getElem?_eq_getElem inside,
    Option.map_eq_map, Option.map_some]

theorem dataOf_setNext : (s.setNext node next).dataOf a = s.dataOf a := by
  simp only [dataOf, setNext]
  by_cases same : node = a
  · subst same
    rw [List.getElem?_modify_eq]
    cases s.heap[node]? with
    | none => rfl
    | some n => rfl
  · rw [List.getElem?_modify_ne _ _ same]

/-- The data of all nodes, in the order they were made. -/
def datas (s : Shared α) : List α := s.heap.map Node.data

theorem datas_allocate : (s.allocate value).datas = s.datas ++ [value] := by
  simp only [datas, allocate, List.map_append, List.map_cons, List.map_nil]

theorem datas_setNext : (s.setNext node next).datas = s.datas := by
  refine List.ext_getElem? ?_
  intro k
  simp only [datas, List.getElem?_map]
  exact dataOf_setNext

/-- Links once made stay, and so does what a node holds. -/
def Keeps (s s' : Shared α) : Prop :=
  (∀ a b, s.nextOf a = some (some b) → s'.nextOf a = some (some b)) ∧
    ∀ a value, s.dataOf a = some value → s'.dataOf a = some value

theorem keeps_of_heap {s s' : Shared α} (same : s'.heap = s.heap) : s.Keeps s' := by
  constructor
  · intro a b found
    rw [nextOf, same]
    exact found
  · intro a value found
    rw [dataOf, same]
    exact found

theorem keeps_allocate : s.Keeps (s.allocate value) := by
  constructor
  · intro a b found
    rw [nextOf_allocate_of_lt (lt_of_nextOf found), found]
  · intro a value' found
    rw [dataOf_allocate_of_lt (lt_of_dataOf found), found]

theorem keeps_setNext (last : s.nextOf node = some none) : s.Keeps (s.setNext node next) := by
  constructor
  · intro a b found
    have other : a ≠ node := by
      intro same
      rw [same, last] at found
      cases found
    rw [nextOf_setNext_of_ne other, found]
  · intro a value found
    rw [dataOf_setNext, found]

end Shared

/-! ## What each thread may rely on -/

/-- The node of an `enqueue` that has not linked it yet. -/
def Thread.held : Thread α → List Nat
  | .loadTail newNode | .loadTailNext newNode _ | .compareTail newNode _ _ | .link newNode _
  | .helpTail newNode _ _ => [newNode]
  | .idle | .swingTail _ _ | .enqueued | .loadHead | .declareTail _ | .loadHeadNext _ _
  | .compareHead _ _ _ | .helpLocal | .readData _ _ | .swingHead _ _ _ | .dequeued _ => []

/-- `past` are the nodes that have been the head, `chain` all that are linked. -/
def Thread.Sees (s : Shared α) (past chain : List Nat) : Thread α → Prop
  | .idle | .loadTail _ | .enqueued | .loadHead | .helpLocal | .dequeued _ => True
  | .loadTailNext _ oldTail | .link _ oldTail => oldTail ∈ chain
  | .compareTail _ oldTail tailNext =>
      oldTail ∈ chain ∧ ∀ next, tailNext = some next → next ∈ chain
  | .helpTail _ _ tailNext => tailNext ∈ chain
  | .swingTail newNode _ => newNode ∈ chain
  | .declareTail oldHead | .loadHeadNext oldHead _ => oldHead ∈ past
  | .compareHead oldHead _ headNext =>
      oldHead ∈ past ∧ ∀ next, headNext = some next → s.nextOf oldHead = some (some next)
  | .readData oldHead headNext =>
      oldHead ∈ past ∧ ∃ next, headNext = some next ∧ s.nextOf oldHead = some (some next)
  | .swingHead oldHead headNext result =>
      s.nextOf oldHead = some (some headNext) ∧ s.dataOf headNext = some result

/-- Nothing that a thread relies on is ever taken back. -/
theorem Thread.Sees.mono {s s' : Shared α} {past past' chain chain' : List Nat} {thread : Thread α}
    (sees : thread.Sees s past chain) (keeps : s.Keeps s') (heads : past ⊆ past')
    (nodes : chain ⊆ chain') : thread.Sees s' past' chain' := by
  cases thread with
  | idle | loadTail | enqueued | loadHead | helpLocal | dequeued => trivial
  | loadTailNext | link | helpTail | swingTail => exact nodes sees
  | compareTail newNode oldTail tailNext =>
      exact ⟨nodes sees.1, fun next same => nodes (sees.2 next same)⟩
  | declareTail | loadHeadNext => exact heads sees
  | compareHead oldHead tail headNext =>
      exact ⟨heads sees.1, fun next same => keeps.1 _ _ (sees.2 next same)⟩
  | readData oldHead headNext =>
      obtain ⟨head, next, same, found⟩ := sees
      exact ⟨heads head, next, same, keeps.1 _ _ found⟩
  | swingHead oldHead headNext result => exact ⟨keeps.1 _ _ sees.1, keeps.2 _ _ sees.2⟩

/-- The steps of `dequeue` whose outcome hangs on the local `tail`: the copy it is
initialised from must not end the process, and if `head_next` is null and `head` has
not moved, the local must be `old_head`. -/
def Thread.Safe (chance : Chance) (s : Shared α) : Thread α → Prop
  | .declareTail _ => chance.indeterminate ≠ none
  | .compareHead oldHead tail none => oldHead = s.head → tail = some oldHead
  | _ => True

theorem Thread.held_of_not_calling {thread : Thread α} (free : thread.calling = false) :
    thread.held = [] := by
  cases thread with
  | idle | enqueued | dequeued => rfl
  | loadTail | loadTailNext | compareTail | link | helpTail | swingTail | loadHead | declareTail
  | loadHeadNext | compareHead | helpLocal | readData | swingHead => cases free

/-! ## The chain -/

/-- The queue between two steps: the nodes that have been its head, and those in it. -/
structure Represents (s : LockFreeQueue α) (past items : List Nat) : Prop where
  up : s.shared.down = none
  head : past.getLast? = some s.shared.head
  linked : Chain.Linked s.shared.nextOf (past ++ items)
  distinct : (past ++ items ++ s.threads.flatMap Thread.held).Nodup
  fresh : ∀ node ∈ s.threads.flatMap Thread.held, s.shared.nextOf node = some none
  tail : s.shared.tail ∈ past ++ items
  sees : Each (fun _ thread => thread.Sees s.shared past (past ++ items)) s.threads

theorem held_set_perm {threads : List (Thread α)} {i : Nat} {thread thread' : Thread α}
    (here : threads[i]? = some thread) (same : thread'.held = thread.held) :
    (threads.set i thread').flatMap Thread.held ~ threads.flatMap Thread.held := by
  have unmoved : [] ++ thread'.held ~ [] ++ thread.held := by rw [same]
  exact conserved Thread.held here unmoved

namespace Represents
variable {s : LockFreeQueue α} {past items : List Nat} {i : Nat} {thread thread' : Thread α}

theorem create [Inhabited α] (threads : Nat) :
    Represents (create threads : LockFreeQueue α) [0] [] where
  up := rfl
  head := rfl
  linked := .single rfl
  distinct := by
    have unheld : (List.replicate threads (.idle : Thread α)).flatMap Thread.held = [] := by
      refine List.flatMap_eq_nil_iff.mpr ?_
      intro thread there
      rw [List.eq_of_mem_replicate there]
      rfl
    simp only [LockFreeQueue.create, unheld]
    decide
  fresh := by simp [LockFreeQueue.create, Thread.held]
  tail := List.mem_singleton_self 0
  sees := Each.replicate (fun _ => trivial) threads

theorem lt_length (rep : Represents s past items) {node : Nat}
    (there : node ∈ past ++ items ++ s.threads.flatMap Thread.held) :
    node < s.shared.heap.length := by
  rcases List.mem_append.mp there with chained | held
  · obtain ⟨next, found⟩ := rep.linked.exists_next chained
    exact Shared.lt_of_nextOf found
  · exact Shared.lt_of_nextOf (rep.fresh node held)

/-- A step that changes a thread only, and neither makes nor links a node. -/
theorem move (rep : Represents s past items) (here : s.threads[i]? = some thread)
    (held : thread'.held = thread.held) (own : thread'.Sees s.shared past (past ++ items)) :
    Represents (s.put i thread' s.shared) past items where
  up := rep.up
  head := rep.head
  linked := rep.linked
  distinct := ((held_set_perm here held).append_left _).nodup_iff.mpr rep.distinct
  fresh := by
    intro node there
    exact rep.fresh node ((held_set_perm here held).mem_iff.mp there)
  tail := rep.tail
  sees := rep.sees.set own fun _ _ _ _ sees => sees

/-- The member `tail` may lag anywhere on the chain. -/
theorem retail (rep : Represents s past items) {node : Nat} (there : node ∈ past ++ items) :
    Represents { s with shared := { s.shared with tail := node } } past items where
  up := rep.up
  head := rep.head
  linked := rep.linked
  distinct := rep.distinct
  fresh := rep.fresh
  tail := there
  sees := rep.sees.mono fun _ _ _ sees =>
    sees.mono (Shared.keeps_of_heap rfl) (List.Subset.refl _) (List.Subset.refl _)

theorem compareExchangeTail (rep : Represents s past items) {chance : Chance}
    {expected desired : Nat} (here : s.threads[i]? = some thread)
    (held : thread'.held = thread.held) (own : thread'.Sees s.shared past (past ++ items))
    (there : desired ∈ past ++ items) :
    Represents (s.put i thread' (s.shared.compareExchangeTail chance expected desired))
      past items := by
  refine (rep.move here held own).retail ?_
  split
  · exact there
  · exact rep.tail

/-- `enqueue` makes a node that nobody else knows. -/
theorem allocate (rep : Represents s past items) (here : s.threads[i]? = some thread)
    (free : thread.calling = false) (value : α) :
    Represents (s.put i (.loadTail s.shared.heap.length) (s.shared.allocate value))
      past items := by
  have unheld : thread.held = [] := Thread.held_of_not_calling free
  have more := flatMap_set_perm Thread.held here (.loadTail s.shared.heap.length)
  rw [unheld, List.nil_append] at more
  have inside : ∀ node ∈ past ++ items, node < s.shared.heap.length := by
    intro node there
    exact rep.lt_length (List.mem_append_left _ there)
  exact {
    up := rep.up
    head := rep.head
    linked := rep.linked.congr fun node there =>
      Shared.nextOf_allocate_of_lt (inside node there)
    distinct := by
      refine ((more.append_left (past ++ items)).trans List.perm_middle).nodup_iff.mpr ?_
      refine List.nodup_cons.mpr ⟨?_, rep.distinct⟩
      intro there
      exact Nat.lt_irrefl _ (rep.lt_length there)
    fresh := by
      intro node there
      rcases List.mem_cons.mp (more.mem_iff.mp there) with rfl | held
      · exact Shared.nextOf_allocate_self
      · have found := rep.fresh node held
        exact (Shared.nextOf_allocate_of_lt (Shared.lt_of_nextOf found)).trans found
    tail := rep.tail
    sees := rep.sees.set trivial fun _ _ _ _ sees =>
      sees.mono Shared.keeps_allocate (List.Subset.refl _) (List.Subset.refl _) }

/-- The compare-exchange on a null `next` succeeds at the end of the chain only. -/
theorem link (rep : Represents s past items) {newNode oldTail : Nat}
    (here : s.threads[i]? = some (.link newNode oldTail))
    (last : s.shared.nextOf oldTail = some none) :
    Represents (s.put i (.swingTail newNode oldTail) (s.shared.setNext oldTail newNode))
      past (items ++ [newNode]) := by
  have chained : oldTail ∈ past ++ items := rep.sees i _ here
  obtain ⟨before, same⟩ := rep.linked.eq_snoc chained last
  have held : newNode ∈ s.threads.flatMap Thread.held :=
    List.mem_flatMap.mpr ⟨_, List.mem_of_getElem? here, List.mem_singleton_self _⟩
  have apart : ∀ node ∈ s.threads.flatMap Thread.held, node ≠ oldTail := by
    intro node there own
    exact (List.nodup_append.mp rep.distinct).2.2 oldTail chained node there own.symm
  have less := flatMap_set_perm Thread.held here (.swingTail newNode oldTail)
  exact {
    up := rep.up
    head := rep.head
    linked := by
      rw [← List.append_assoc, same]
      refine Chain.Linked.snoc (same ▸ rep.linked) ?_ ?_ ?_
      · exact Shared.nextOf_setNext_self (Shared.lt_of_nextOf last)
      · exact (Shared.nextOf_setNext_of_ne (apart _ held)).trans (rep.fresh _ held)
      · intro node there
        refine Shared.nextOf_setNext_of_ne ?_
        have once := (List.nodup_append.mp rep.distinct).1
        rw [same] at once
        exact (List.nodup_append.mp once).2.2 node there oldTail (List.mem_singleton_self _)
    distinct := by
      have handed : past ++ items ++ [newNode] ++
            (Thread.swingTail newNode oldTail : Thread α).held ~
          past ++ items ++ (Thread.link newNode oldTail : Thread α).held := by
        simp [Thread.held]
      rw [← List.append_assoc]
      exact (conserved Thread.held here handed).nodup_iff.mpr rep.distinct
    fresh := by
      intro node there
      have old : node ∈ s.threads.flatMap Thread.held :=
        less.mem_iff.mp (List.mem_append_right _ there)
      exact (Shared.nextOf_setNext_of_ne (apart node old)).trans (rep.fresh node old)
    tail := by
      rw [← List.append_assoc]
      exact List.mem_append_left _ rep.tail
    sees := by
      rw [← List.append_assoc]
      refine rep.sees.set (List.mem_append_right _ (List.mem_singleton_self _)) ?_
      intro j other _ _ sees
      exact sees.mono (Shared.keeps_setNext last) (List.Subset.refl _)
        (List.subset_append_left _ _) }

/-- The compare-exchange on `head` takes the first node, whatever the member `tail` is. -/
theorem take (rep : Represents s past items) {oldHead headNext : Nat} {result : α}
    (here : s.threads[i]? = some (.swingHead oldHead headNext result))
    (same : s.shared.head = oldHead) :
    ∃ rest, items = headNext :: rest ∧
      Represents (s.put i (.dequeued (some result)) { s.shared with head := headNext })
        (past ++ [headNext]) rest := by
  have sees : s.shared.nextOf oldHead = some (some headNext) := (rep.sees i _ here).1
  have moved : Represents (s.put i (.dequeued (some result)) s.shared) past items :=
    rep.move here rfl trivial
  have border := rep.linked.border rep.head
  rw [same, sees, Option.some.injEq] at border
  obtain ⟨rest, rfl⟩ := List.head?_eq_some_iff.mp border.symm
  have chain : past ++ [headNext] ++ rest = past ++ headNext :: rest := by
    rw [List.append_assoc, List.singleton_append]
  refine ⟨rest, rfl, ?_⟩
  exact {
    up := rep.up
    head := List.getLast?_concat
    linked := chain ▸ rep.linked
    distinct := chain ▸ moved.distinct
    fresh := moved.fresh
    tail := chain ▸ rep.tail
    sees := by
      rw [chain]
      refine moved.sees.mono ?_
      intro j other _ sees
      exact sees.mono (Shared.keeps_of_heap rfl) (List.subset_append_left _ _)
        (List.Subset.refl _) }

theorem not_breaks (rep : Represents s past items) {chance : Chance}
    (here : s.threads[i]? = some thread) (safe : thread.Safe chance s.shared) :
    ¬ thread.Breaks chance s.shared := by
  have sees := rep.sees i thread here
  intro breaks
  cases thread with
  | loadTailNext newNode oldTail | link newNode oldTail =>
      obtain ⟨next, found⟩ := rep.linked.exists_next sees
      cases found.symm.trans breaks
  | declareTail oldHead => exact safe breaks
  | loadHeadNext oldHead tail =>
      obtain ⟨next, found⟩ := rep.linked.exists_next (List.mem_append_left items sees)
      cases found.symm.trans breaks
  | readData oldHead headNext =>
      obtain ⟨head, next, rfl, found⟩ := sees
      obtain ⟨next', found'⟩ :=
        rep.linked.exists_next (rep.linked.next_mem (List.mem_append_left items head) found)
      obtain ⟨data, there⟩ := Shared.dataOf_of_nextOf found'
      cases there.symm.trans (breaks next rfl)
  | idle | loadTail | compareTail | helpTail | swingTail | enqueued | loadHead | compareHead
  | helpLocal | swingHead | dequeued => exact breaks

end Represents

/-! ## The record -/

def Note.op : Note α → Option (Fifo.Op Nat)
  | .created _ _ => none
  | .linked node => some (.put node)
  | .taken _ node => some (.take node)

def Note.made : Note α → Option (α × Nat)
  | .created value node => some (value, node)
  | .linked _ | .taken _ _ => none

def Note.gone : Note α → Option (α × Nat)
  | .taken value node => some (value, node)
  | .created _ _ | .linked _ => none

/-- The nodes linked and taken, as operations of a FIFO. -/
def ops (log : List (Note α)) : List (Fifo.Op Nat) := log.filterMap Note.op

/-- The values passed to `enqueue`, each with the node made for it. -/
def created (log : List (Note α)) : List (α × Nat) := log.filterMap Note.made

/-- The nodes in the order they were linked. -/
def linked (log : List (Note α)) : List Nat := Fifo.added (ops log)

/-- The values returned, each with the node it was read from. -/
def taken (log : List (Note α)) : List (α × Nat) := log.filterMap Note.gone

theorem removed_ops (log : List (Note α)) : Fifo.removed (ops log) = (taken log).map Prod.snd := by
  induction log with
  | nil => rfl
  | cons note log ih =>
      cases note with
      | created value node => exact ih
      | linked node => exact ih
      | taken value node => exact congrArg (List.cons node) ih

theorem ops_append (log notes : List (Note α)) : ops (log ++ notes) = ops log ++ ops notes :=
  List.filterMap_append

theorem created_append (log notes : List (Note α)) :
    created (log ++ notes) = created log ++ created notes := List.filterMap_append

theorem taken_append (log notes : List (Note α)) :
    taken (log ++ notes) = taken log ++ taken notes := List.filterMap_append

/-- There is always room for one node more. -/
abbrev FifoStep : List Nat → Fifo.Op Nat → List Nat → Prop := Fifo.Step fun _ => True

/-- Each step of a thread that is safe is a step of the FIFO or leaves it as it is. -/
theorem Represents.advance {s : LockFreeQueue α} {past items : List Nat} {i : Nat}
    {chance : Chance} {thread thread' : Thread α} {shared : Shared α} {notes : List (Note α)}
    (rep : Represents s past items) (here : s.threads[i]? = some thread)
    (safe : thread.Safe chance s.shared)
    (moves : Moves chance s.shared thread thread' shared notes) :
    ∃ items', Trace FifoStep items (ops notes) items' ∧
      Represents (s.put i thread' shared) (past ++ Fifo.removed (ops notes)) items' := by
  have sees := rep.sees i thread here
  have heads : ∀ {node : Nat}, node ∈ past → node ∈ past ++ items := List.mem_append_left items
  suffices quiet : notes = [] → Represents (s.put i thread' shared) past items by
    rcases moves.outcome with ⟨rfl, _⟩ | ⟨newNode, oldTail, rfl, rfl, last, rfl, rfl⟩ |
      ⟨oldHead, headNext, result, rfl, rfl, same, rfl, rfl⟩
    · refine ⟨items, .nil items, ?_⟩
      have kept := quiet rfl
      rwa [← List.append_nil past] at kept
    · refine ⟨items ++ [newNode], .single (.put newNode trivial), ?_⟩
      have kept := rep.link here last
      rwa [← List.append_nil past] at kept
    · obtain ⟨rest, rfl, kept⟩ := rep.take here same
      exact ⟨rest, .single (.take headNext rest), kept⟩
  intro silent
  cases moves with
  | loadTail newNode => exact rep.move here rfl rep.tail
  | loadTailNext newNode oldTail tailNext found =>
      refine rep.move here rfl ⟨sees, ?_⟩
      intro next same
      exact rep.linked.next_mem sees (same ▸ found)
  | tailMoved newNode oldTail tailNext moved => exact rep.move here rfl trivial
  | atEnd newNode oldTail same => exact rep.move here rfl sees.1
  | lagging newNode oldTail next same => exact rep.move here rfl (sees.2 next rfl)
  | link newNode oldTail last => cases silent
  | linkFailed newNode oldTail => exact rep.move here rfl trivial
  | helpTail newNode oldTail tailNext => exact rep.compareExchangeTail here rfl trivial sees
  | swingTail newNode oldTail => exact rep.compareExchangeTail here rfl trivial sees
  | loadHead => exact rep.move here rfl (List.mem_of_getLast? rep.head)
  | declareTail oldHead tail copied => exact rep.move here rfl sees
  | loadHeadNext oldHead tail headNext found =>
      refine rep.move here rfl ⟨sees, ?_⟩
      intro next same
      exact same ▸ found
  | headMoved oldHead tail headNext moved => exact rep.move here rfl trivial
  | vacant oldHead same => exact rep.move here rfl trivial
  | meets oldHead next same => exact rep.move here rfl trivial
  | differs oldHead tail headNext same differs =>
      cases headNext with
      | none => exact absurd (safe same) differs
      | some next => exact rep.move here rfl ⟨sees.1, next, rfl, sees.2 next rfl⟩
  | helpLocal => exact rep.move here rfl trivial
  | readData oldHead next data found =>
      obtain ⟨head, next', same, link⟩ := sees
      cases same
      exact rep.move here rfl ⟨link, found⟩
  | take oldHead headNext result same => cases silent
  | takeFailed oldHead headNext result => exact rep.move here rfl trivial
  | undefined thread breaks => exact absurd breaks (rep.not_breaks here safe)

end LockFreeQueue
end DeribitTrading
