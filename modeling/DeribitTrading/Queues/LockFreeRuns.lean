import DeribitTrading.Queues.LockFreeOrder

/-!
Whole runs of `LockFreeQueue`: what its record shows, when `dequeue` may say that
there was nothing, and the part that the local `tail` of `dequeue` has in both.
-/
namespace DeribitTrading
open Runs Interleaving
open scoped List

namespace LockFreeQueue
variable {α : Type}

theorem Moves.datas {chance : Chance} {s s' : Shared α} {thread thread' : Thread α}
    {notes : List (Note α)} (moves : Moves chance s thread thread' s' notes) :
    s'.datas = s.datas ∧ created notes = [] := by
  rcases moves.outcome with ⟨rfl, heap, _⟩ | ⟨_, _, _, _, _, rfl, rfl⟩ |
    ⟨_, _, _, _, _, _, rfl, rfl⟩
  · exact ⟨congrArg (List.map Node.data) heap, rfl⟩
  · exact ⟨Shared.datas_setNext, rfl⟩
  · exact ⟨rfl, rfl⟩

theorem Steps.made {s t : LockFreeQueue α} {e : Event α} {notes : List (Note α)}
    (steps : Steps s e t notes) :
    t.shared.datas.zipIdx = s.shared.datas.zipIdx ++ created notes := by
  cases steps with
  | enqueue i value thread here free =>
      have count : s.shared.datas.length = s.shared.heap.length := List.length_map _
      simp only [put, Shared.datas_allocate, List.zipIdx_append, count, Nat.zero_add]
      rfl
  | dequeue i thread here free => exact (List.append_nil _).symm
  | thread i chance thread thread' shared notes here moves =>
      obtain ⟨same, none⟩ := moves.datas
      simp only [put, same, none, List.append_nil]

theorem Steps.takes {s t : LockFreeQueue α} {e : Event α} {notes : List (Note α)}
    {past items : List Nat} (steps : Steps s e t notes) (rep : Represents s past items) :
    ∀ p ∈ taken notes, s.shared.dataOf p.2 = some p.1 ∧ p.2 ∈ items := by
  intro p there
  cases steps with
  | enqueue | dequeue => cases there
  | thread i chance thread thread' shared notes here moves =>
      rcases moves.outcome with ⟨rfl, _⟩ | ⟨_, _, _, _, _, _, rfl⟩ |
        ⟨_, _, _, rfl, _, same, _, rfl⟩
      · cases there
      · cases there
      · obtain ⟨rest, rfl, -⟩ := rep.take here same
        cases List.mem_singleton.mp there
        exact ⟨(rep.sees i _ here).2, List.mem_cons_self ..⟩

/-- The step does not hang on the local `tail` of `dequeue`, or the local is right. -/
def Harmless (s : LockFreeQueue α) : Event α → Prop
  | .enqueue _ _ | .dequeue _ => True
  | .thread i chance => ∀ thread ∈ s.threads[i]?, thread.Safe chance s.shared

instance (chance : Chance) (s : Shared α) (thread : Thread α) :
    Decidable (thread.Safe chance s) :=
  match thread with
  | .declareTail _ => inferInstanceAs (Decidable (chance.indeterminate ≠ none))
  | .compareHead oldHead tail none =>
      inferInstanceAs (Decidable (oldHead = s.head → tail = some oldHead))
  | .compareHead _ _ (some _) => isTrue trivial
  | .idle | .loadTail _ | .loadTailNext _ _ | .compareTail _ _ _ | .link _ _ | .helpTail _ _ _
  | .swingTail _ _ | .enqueued | .loadHead | .loadHeadNext _ _ | .helpLocal | .readData _ _
  | .swingHead _ _ _ | .dequeued _ => isTrue trivial

instance (s : LockFreeQueue α) (e : Event α) : Decidable (Harmless s e) :=
  match e with
  | .enqueue _ _ | .dequeue _ => isTrue trivial
  | .thread i chance =>
      inferInstanceAs (Decidable (∀ thread ∈ s.threads[i]?, thread.Safe chance s.shared))

theorem Represents.step {s t : LockFreeQueue α} {e : Event α} {notes : List (Note α)}
    {past items : List Nat} (rep : Represents s past items) (harmless : Harmless s e)
    (steps : Steps s e t notes) :
    ∃ items', Trace FifoStep items (ops notes) items' ∧
      Represents t (past ++ Fifo.removed (ops notes)) items' := by
  cases steps with
  | enqueue i value thread here free =>
      refine ⟨items, .nil items, ?_⟩
      have kept := rep.allocate here free value
      rwa [← List.append_nil past] at kept
  | dequeue i thread here free =>
      refine ⟨items, .nil items, ?_⟩
      have kept : Represents (s.put i .loadHead s.shared) past items :=
        rep.move here (Thread.held_of_not_calling free).symm trivial
      rwa [← List.append_nil past] at kept
  | thread i chance thread thread' shared notes here moves =>
      exact rep.advance here (harmless thread here) moves

theorem mem_zipIdx_datas {s : Shared α} {node : Nat} {value : α} :
    (value, node) ∈ s.datas.zipIdx ↔ s.dataOf node = some value := by
  rw [List.mem_zipIdx_iff_getElem?, Shared.datas, List.getElem?_map]
  rfl

theorem Represents.ne_zero {s : LockFreeQueue α} {past items : List Nat}
    (rep : Represents s (0 :: past) items) {node : Nat} (there : node ∈ past ++ items) :
    node ≠ 0 := by
  have once := (List.nodup_append.mp rep.distinct).1
  intro zero
  exact (List.nodup_cons.mp once).1 (zero ▸ there)

def queued (log : List (Note α)) : List Nat := Fifo.contents (ops log)

def Event.caller : Event α → Option Nat
  | .enqueue i _ | .dequeue i => some i
  | .thread _ _ => none

/-! ## What the record shows -/

/-- What is true between any two steps. -/
structure Sound (s : LockFreeQueue α) (log : List (Note α)) : Prop where
  running : s.shared.down = none
  /-- no thread is about to read through a null `head_next` -/
  reads : ∀ thread ∈ s.threads, ∀ oldHead, thread ≠ .readData oldHead none
  /-- what is returned was passed to `enqueue` … -/
  enqueued : ∀ p ∈ taken log, p ∈ created log
  /-- … by a call of its own, each node being made for one … -/
  made : ((created log).map Prod.snd).Nodup
  /-- … is returned once … -/
  once : ((taken log).map Prod.snd).Nodup
  /-- … and in the order in which the nodes were linked. -/
  ordered : (taken log).map Prod.snd <+: linked log

/-! ## When `dequeue` returns false -/

/-- Thread `i` has met a queue without items: it is back with false, or holds the
null `next` of a node that still is the head. -/
inductive MetEmpty (i : Nat) (s : LockFreeQueue α) : Prop
  | checking (oldHead : Nat) (tail : Option Nat) :
      s.threads[i]? = some (.compareHead oldHead tail none) → s.shared.head = oldHead → MetEmpty i s
  | returned : s.threads[i]? = some (.dequeued none) → MetEmpty i s

/-- No thread can see a head come back: each new head has never been one. -/
theorem Represents.head_new {s : LockFreeQueue α} {past items : List Nat} {chance : Chance}
    {thread thread' : Thread α} {shared : Shared α} {notes : List (Note α)} {i : Nat}
    (rep : Represents s past items) (here : s.threads[i]? = some thread)
    (moves : Moves chance s.shared thread thread' shared notes) {node : Nat}
    (old : node ∈ past) (now : shared.head = node) : s.shared.head = node := by
  rcases moves.outcome with ⟨_, _, kept⟩ | ⟨_, _, _, _, _, rfl, _⟩ |
    ⟨oldHead, headNext, result, rfl, _, same, rfl, _⟩
  · rw [← kept, now]
  · exact now
  · obtain ⟨rest, first, -⟩ := rep.take here same
    have once := (List.nodup_append.mp rep.distinct).1
    have again : headNext = node := now
    rw [first, again] at once
    exact absurd rfl ((List.nodup_append.mp once).2.2 node old node (List.mem_cons_self ..))

theorem Represents.metEmpty_of_other {s : LockFreeQueue α} {past items : List Nat} {i j : Nat}
    {thread' : Thread α} {shared : Shared α} (rep : Represents s past items) (other : j ≠ i)
    (heads : ∀ node ∈ past, shared.head = node → s.shared.head = node)
    (now : MetEmpty i (s.put j thread' shared)) : MetEmpty i s := by
  cases now with
  | checking oldHead tail there head =>
      rw [put, List.getElem?_set_ne other] at there
      exact .checking oldHead tail there (heads oldHead (rep.sees i _ there).1 head)
  | returned there =>
      rw [put, List.getElem?_set_ne other] at there
      exact .returned there

theorem MetEmpty.own {s : LockFreeQueue α} {i : Nat} {thread thread' : Thread α}
    {shared : Shared α} (here : s.threads[i]? = some thread)
    (now : MetEmpty i (s.put i thread' shared)) :
    (∃ oldHead tail, thread' = .compareHead oldHead tail none ∧ shared.head = oldHead) ∨
      thread' = .dequeued none := by
  have inside : i < s.threads.length := (List.getElem?_eq_some_iff.mp here).1
  cases now with
  | checking oldHead tail there head =>
      rw [put, List.getElem?_set_self inside] at there
      exact .inl ⟨oldHead, tail, Option.some.inj there, head⟩
  | returned there =>
      rw [put, List.getElem?_set_self inside] at there
      exact .inr (Option.some.inj there)

theorem MetEmpty.not_started {s : LockFreeQueue α} {i : Nat} {thread thread' : Thread α}
    {shared : Shared α} (here : s.threads[i]? = some thread)
    (start : thread' = .loadHead ∨ ∃ newNode, thread' = .loadTail newNode) :
    ¬ MetEmpty i (s.put i thread' shared) := by
  intro now
  rcases now.own here with ⟨oldHead, tail, same, -⟩ | same
  · rcases start with rfl | ⟨newNode, rfl⟩
    · cases same
    · cases same
  · rcases start with rfl | ⟨newNode, rfl⟩
    · cases same
    · cases same

/-- The one step at which a thread meets an empty queue: it reads the null `next` of the head. -/
theorem Represents.metEmpty {s t : LockFreeQueue α} {e : Event α} {notes : List (Note α)}
    {past items : List Nat} {i : Nat} (rep : Represents s past items) (steps : Steps s e t notes)
    (fresh : ¬ MetEmpty i s) (now : MetEmpty i t) :
    (∃ thread, s.threads[i]? = some thread ∧ thread.calling = true) ∧ items = [] := by
  cases steps with
  | enqueue j value thread here free =>
      by_cases same : j = i
      · subst same
        exact absurd now (MetEmpty.not_started here (.inr ⟨_, rfl⟩))
      · refine absurd (rep.metEmpty_of_other same ?_ now) fresh
        intro node old head
        exact head
  | dequeue j thread here free =>
      by_cases same : j = i
      · subst same
        exact absurd now (MetEmpty.not_started here (.inl rfl))
      · refine absurd (rep.metEmpty_of_other same ?_ now) fresh
        intro node old head
        exact head
  | thread j chance thread thread' shared notes here moves =>
      by_cases same : j = i
      · subst same
        rcases now.own here with ⟨oldHead, tail, rfl, head⟩ | rfl
        · cases moves with
          | loadHeadNext oldHead tail headNext found =>
              refine ⟨⟨_, here, rfl⟩, ?_⟩
              have border := rep.linked.border rep.head
              rw [head, found, Option.some.injEq] at border
              exact List.head?_eq_none_iff.mp border.symm
          | undefined thread breaks => exact breaks.elim
        · cases moves with
          | vacant oldHead same => exact absurd (.checking _ _ here same.symm) fresh
          | undefined thread breaks => exact breaks.elim
      · refine absurd (rep.metEmpty_of_other same ?_ now) fresh
        intro node old now
        exact rep.head_new here moves old now

theorem not_metEmpty_of_called {s t : LockFreeQueue α} {i : Nat}
    (called : Takes next s (.dequeue i) t) : ¬ MetEmpty i t := by
  have steps := (steps_of_next called).2
  generalize s.record (.dequeue i) = notes at steps
  cases steps with
  | dequeue _ thread here free => exact MetEmpty.not_started here (.inl rfl)

/-- A step that is not harmless shows at once: the process is down, or a thread
stands before the null pointer. -/
theorem harmless_of_sound {s t : LockFreeQueue α} {log : List (Note α)} {e : Event α}
    (taken : Takes next s e t) (sound : Sound t log) : Harmless s e := by
  have steps := (steps_of_next taken).2
  generalize s.record e = notes at steps
  cases steps with
  | enqueue i value thread here free => trivial
  | dequeue i thread here free => trivial
  | thread i chance thread thread' shared notes here moves =>
      intro other found
      cases here.symm.trans found
      cases thread with
      | declareTail oldHead =>
          intro trapped
          cases moves with
          | declareTail _ tail copied => cases copied.symm.trans trapped
          | undefined => cases sound.running
      | compareHead oldHead tail headNext =>
          cases headNext with
          | some next => trivial
          | none =>
              intro same
              cases moves with
              | headMoved _ _ _ moved => exact absurd same moved
              | vacant => rfl
              | differs =>
                  have inside : i < s.threads.length := (List.getElem?_eq_some_iff.mp here).1
                  exact absurd rfl (sound.reads _ (List.mem_set inside _) oldHead)
              | undefined _ breaks => exact breaks.elim
      | idle | loadTail | loadTailNext | compareTail | link | helpTail | swingTail | enqueued
      | loadHead | loadHeadNext | helpLocal | readData | swingHead | dequeued => trivial

section Runs
variable [Inhabited α]

/-- The record is a run of the FIFO; the dummy of the constructor is the first head. -/
structure Refines (r : LockFreeQueue α × List (Note α)) : Prop where
  fifo : ∃ items, Trace FifoStep [] (ops r.2) items ∧
    Represents r.1 (0 :: Fifo.removed (ops r.2)) items
  made : r.1.shared.datas.zipIdx = (default, 0) :: created r.2
  values : ∀ p ∈ taken r.2, p ∈ created r.2

theorem Refines.start (threads : Nat) : Refines ((create threads, []) : LockFreeQueue α × _) where
  fifo := ⟨[], .nil [], .create threads⟩
  made := rfl
  values := by
    intro p there
    cases there

theorem Refines.created_of_dataOf {r : LockFreeQueue α × List (Note α)} (refines : Refines r)
    {node : Nat} {value : α} (found : r.1.shared.dataOf node = some value) (other : node ≠ 0) :
    (value, node) ∈ created r.2 := by
  have there := mem_zipIdx_datas.mpr found
  rw [refines.made, List.mem_cons] at there
  rcases there with dummy | there
  · cases dummy
    exact absurd rfl other
  · exact there

theorem Refines.step {r r' : LockFreeQueue α × List (Note α)} {e : Event α} (refines : Refines r)
    (harmless : Harmless r.1 e) (taken' : QueueStep r e r') : Refines r' := by
  obtain ⟨items, fifo, rep⟩ := refines.fifo
  obtain ⟨moved, written⟩ := taken'
  have steps := (steps_of_next moved).2
  obtain ⟨items', more, kept⟩ := rep.step harmless steps
  refine ⟨⟨items', ?_, ?_⟩, ?_, ?_⟩
  · rw [written, ops_append]
    exact fifo.append more
  · rw [written, ops_append, Fifo.removed, List.filterMap_append]
    exact kept
  · rw [steps.made, refines.made, written, created_append, List.cons_append]
  · intro p there
    rw [written, taken_append, List.mem_append] at there
    rw [written, created_append, List.mem_append]
    rcases there with old | new
    · exact .inl (refines.values p old)
    · obtain ⟨found, queued⟩ := steps.takes rep p new
      exact .inl (refines.created_of_dataOf found (rep.ne_zero (List.mem_append_right _ queued)))

variable {threads : Nat} {events : List (Event α)} {r : LockFreeQueue α × List (Note α)}

abbrev AllHarmless (threads : Nat) (events : List (Event α)) : Prop :=
  Stepwise QueueStep (fun r e => Harmless r.1 e) (create threads, []) events

theorem refines (all : AllHarmless threads events)
    (run : Trace QueueStep (create threads, []) events r) : Refines r := by
  refine (run.guarded all).invariant ?_ (.start threads)
  intro r e r' refines taken
  exact refines.step taken.1 taken.2

theorem Refines.sound {s : LockFreeQueue α} {log : List (Note α)} (refines : Refines (s, log)) :
    Sound s log := by
  obtain ⟨items, fifo, rep⟩ := refines.fifo
  refine ⟨rep.up, ?_, refines.values, ?_, ?_, ?_⟩
  · intro thread there oldHead same
    obtain ⟨i, here⟩ := List.mem_iff_getElem?.mp there
    have sees := rep.sees i thread here
    rw [same] at sees
    obtain ⟨-, next, missing, -⟩ := sees
    cases missing
  · have numbered := congrArg (List.map Prod.snd) refines.made
    rw [List.zipIdx_map_snd, List.map_cons] at numbered
    have once : (0 :: (created log).map Prod.snd).Nodup := numbered ▸ List.nodup_range'
    exact (List.nodup_cons.mp once).2
  · have once := (List.nodup_append.mp (List.nodup_append.mp rep.distinct).1).1
    rw [removed_ops] at once
    exact (List.nodup_cons.mp once).2
  · have ordered := Fifo.removed_isPrefix fifo
    rwa [removed_ops] at ordered

/-- Between this call of `dequeue` and its return there was a moment with no item in the queue. -/
def EmptyDuring (threads : Nat) (first : List (Event α)) (i : Nat) (during : List (Event α)) :
    Prop :=
  ∃ before after m, during = before ++ after ∧
    Trace QueueStep (create threads, []) (first ++ .dequeue i :: before) m ∧
    (∃ thread, m.1.threads[i]? = some thread ∧ thread.calling = true) ∧ queued m.2 = []

/-- The run is one of a FIFO: so is its record at every moment, and where a call of
`dequeue` has returned false, the queue was empty while it ran. -/
structure IsFifo (threads : Nat) (events : List (Event α)) : Prop where
  sound : Throughout QueueStep (fun r => Sound r.1 r.2) (create threads, []) events
  vacant : ∀ first i during rest r, events = (first ++ .dequeue i :: during) ++ rest →
    (∀ e ∈ during, e.caller ≠ some i) →
    Trace QueueStep (create threads, []) (first ++ .dequeue i :: during) r →
    r.1.threads[i]? = some (.dequeued none) → EmptyDuring threads first i during

theorem emptyDuring {first during : List (Event α)} {i : Nat}
    (all : AllHarmless threads (first ++ .dequeue i :: during))
    (run : Trace QueueStep (create threads, []) (first ++ .dequeue i :: during) r)
    (last : r.1.threads[i]? = some (.dequeued none)) : EmptyDuring threads first i during := by
  obtain ⟨before, e, after, a, b, rfl, there, fresh, taken, now⟩ :=
    run.arises_after (P := fun r => MetEmpty i r.1)
      (fun m m' called => not_metEmpty_of_called called.1) (.returned last)
  have quiet : AllHarmless threads (first ++ .dequeue i :: before) := by
    rw [← List.cons_append, ← List.append_assoc] at all
    exact all.initial
  obtain ⟨items, fifo, rep⟩ := (refines quiet there).fifo
  obtain ⟨busy, empty⟩ := rep.metEmpty (steps_of_next taken.1).2 fresh now
  refine ⟨before, e :: after, a, rfl, there, busy, ?_⟩
  rw [queued, Fifo.contents_eq fifo, empty]

theorem isFifo_of_allHarmless (all : AllHarmless threads events) : IsFifo threads events where
  sound := by
    intro before after r same run
    subst same
    exact (refines all.initial run).sound
  vacant := by
    intro first i during rest r same _ run last
    subst same
    exact emptyDuring all.initial run last

/-- `LockFreeQueue` is a FIFO in exactly those runs in which every `dequeue` finds its
own uninitialised `tail` equal to `old_head` whenever `head_next` is null. -/
theorem lock_free_queue_fifo_iff (run : Trace QueueStep (create threads, []) events r) :
    IsFifo threads events ↔ AllHarmless threads events := by
  constructor
  · intro fifo
    have free : Stepwise QueueStep (fun _ _ => True) (create threads, []) events :=
      .of_forall fun _ _ _ => trivial
    refine Throughout.stepwise ?_ ?_ run fifo.sound free
    · exact Recording.functional Takes.functional
    · intro s e t _ _ taken sound
      exact harmless_of_sound taken.1 sound
  · exact isFifo_of_allHarmless

end Runs

def holding (tail : Option Nat) : Chance := ⟨false, some tail⟩

def run (i : Nat) (chances : List Chance) : List (Event Nat) := chances.map (.thread i)

/-- Thread 0 puts 5 in, thread 1 takes it out and finds the queue empty then. -/
def inAndOut : List (Event Nat) :=
  .enqueue 0 5 :: run 0 (List.replicate 5 (holding none)) ++
    .dequeue 1 :: run 1 (List.replicate 6 (holding none)) ++
      .dequeue 1 :: run 1 (List.replicate 4 (holding (some 1)))

theorem in_and_out_fifo :
    ∃ r, Trace QueueStep (create 2, []) inAndOut r ∧ taken r.2 = [(5, 1)] ∧
      IsFifo 2 inAndOut := by
  have followed : (follow (recordingNext next record) (create 2, []) inAndOut).any
      (fun r => taken r.2 = [(5, 1)]) = true := by decide +kernel
  obtain ⟨r, run, shown⟩ := exists_trace_of_follow followed
  rw [takes_recordingNext] at run
  refine ⟨r, run, of_decide_eq_true shown, (lock_free_queue_fifo_iff run).mpr ?_⟩
  exact stepwise_recording_iff.mpr (stepwise_of_along (by decide +kernel))

/-- One thread alone: `dequeue` on a new queue, with a local `tail` that is null. -/
def firstDequeue : List (Event Nat) := .dequeue 0 :: run 0 (List.replicate 5 (holding none))

theorem dequeue_reads_through_null :
    ∃ r, Trace QueueStep (create 1, []) firstDequeue r ∧ r.1.shared.down = some .undefined ∧
      ¬ IsFifo 1 firstDequeue := by
  have followed : (follow (recordingNext next record) (create 1, []) firstDequeue).any
      (fun r => r.1.shared.down = some .undefined) = true := by decide +kernel
  obtain ⟨r, run, shown⟩ := exists_trace_of_follow followed
  rw [takes_recordingNext] at run
  have down : r.1.shared.down = some .undefined := of_decide_eq_true shown
  refine ⟨r, run, down, ?_⟩
  intro fifo
  have up := (fifo.sound firstDequeue [] r (List.append_nil _).symm run).running
  cases down.symm.trans up

end LockFreeQueue
end DeribitTrading
