import DeribitTrading.ThreadPool.System

/-!
Where a task is. A record of what was enqueued, started and finished, by the
number of the caller, is kept beside the pool: the queue is what was enqueued and
not started, in order, and what was started and not finished is with a worker.
-/
namespace DeribitTrading
open Runs Interleaving
open scoped List

/-- What happens to the task of caller `n`. -/
inductive Mark where
  | enqueued (n : Nat)
  | started (n : Nat)
  | finished (n : Nat)
  deriving DecidableEq, Repr

namespace Mark

def enqueued? : Mark → Option Nat
  | .enqueued n => some n
  | .started _ | .finished _ => none

def started? : Mark → Option Nat
  | .started n => some n
  | .enqueued _ | .finished _ => none

def finished? : Mark → Option Nat
  | .finished n => some n
  | .enqueued _ | .started _ => none

end Mark

/-- The task the worker has taken and not finished. -/
def Worker.current {α : Type} : Worker α → List (Job α)
  | .running job => [job]
  | .locking | .testing | .waiting | .blocked | .woken | .deciding | .exited => []

/-- The caller is behind `tasks.emplace`. -/
def Caller.hasPushed {α : Type} (c : Caller α) : Bool :=
  match c.stage with
  | .locking | .pushing => false
  | .notifying | .awaiting | .returned | .received _ => true

theorem Caller.hasPushed_afterNotify {α : Type} (task : Task α) :
    (Caller.afterNotify ⟨task, .notifying⟩).hasPushed = true := by
  cases task <;> rfl

namespace ThreadPool
variable {α : Type}

/-- What the step puts on record. -/
def marks (s : ThreadPool α) : Event α → List Mark
  | .worker i =>
      match s.workers[i]? with
      | some .deciding =>
          match s.shared.tasks with
          | job :: _ => [.started job.caller]
          | [] => []
      | some (.running job) =>
          match job.run s.shared.promises with
          | .ok _ => [.finished job.caller]
          | .error _ => []
      | _ => []
  | .caller i =>
      match s.callers[i]? with
      | some ⟨_, .pushing⟩ => [.enqueued i]
      | _ => []
  | .call _ | .spurious _ | .notifyOne _ _ | .destructor => []

def queued (s : ThreadPool α) : List Nat := s.shared.tasks.map Job.caller

def running (s : ThreadPool α) : List Nat :=
  (s.workers.flatMap Worker.current).map Job.caller

def hasPushed (s : ThreadPool α) (n : Nat) : Bool := s.callers[n]?.any Caller.hasPushed

/-- The record agrees with the pool. -/
structure Tracked (s : ThreadPool α) (log : List Mark) : Prop where
  inOrder : log.filterMap Mark.enqueued? = log.filterMap Mark.started? ++ s.queued
  once : (log.filterMap Mark.enqueued?).Nodup
  pushed : ∀ n, n ∈ log.filterMap Mark.enqueued? ↔ s.hasPushed n = true
  kept : log.filterMap Mark.finished? ++ s.running ~ log.filterMap Mark.started?

theorem flatMap_current_create (numThreads : Nat) :
    (create numThreads : ThreadPool α).workers.flatMap Worker.current = [] := by
  refine List.flatMap_eq_nil_iff.mpr fun w member => ?_
  cases List.eq_of_mem_replicate member
  rfl

theorem tracked_create (numThreads : Nat) : Tracked (create numThreads : ThreadPool α) [] where
  inOrder := rfl
  once := List.nodup_nil
  pushed := fun n => by simp [hasPushed, create]
  kept := by simp [running, flatMap_current_create]

/-- One worker's step changes what is running by what that worker has. -/
theorem running_putWorker {s : ThreadPool α} {i : Nat} {w : Worker α}
    (here : s.workers[i]? = some w) (w' : Worker α) (shared : Shared α) :
    w.current.map Job.caller ++ (s.putWorker i w' shared).running ~
      w'.current.map Job.caller ++ s.running := by
  simp only [running, ← List.map_append]
  exact (flatMap_set_perm Worker.current here w').map _

theorem callers_putCaller {s : ThreadPool α} {i : Nat} {c : Caller α}
    (here : s.callers[i]? = some c) (c' : Caller α) (shared : Shared α) (n : Nat) :
    (s.putCaller i c' shared).callers[n]? = if i = n then some c' else s.callers[n]? := by
  obtain ⟨below, _⟩ := List.getElem?_eq_some_iff.mp here
  rw [putCaller, List.getElem?_set, if_pos below]

theorem hasPushed_putCaller {s : ThreadPool α} {i : Nat} {c : Caller α}
    (here : s.callers[i]? = some c) (c' : Caller α) (shared : Shared α) (n : Nat) :
    (s.putCaller i c' shared).hasPushed n = if i = n then c'.hasPushed else s.hasPushed n := by
  rw [hasPushed, callers_putCaller here]
  split <;> rfl

/-- A step that puts nothing on record, and leaves what the record is about. -/
theorem Tracked.unmarked {s t : ThreadPool α} {log : List Mark} (tracked : Tracked s log)
    (queued : t.queued = s.queued) (running : t.running ~ s.running)
    (pushed : ∀ n, t.hasPushed n = s.hasPushed n) : Tracked t (log ++ []) := by
  rw [List.append_nil]
  constructor
  · rw [queued]
    exact tracked.inOrder
  · exact tracked.once
  · intro n
    rw [pushed]
    exact tracked.pushed n
  · exact (running.append_left _).trans tracked.kept

theorem Tracked.putWorker {s : ThreadPool α} {log : List Mark} (tracked : Tracked s log)
    {i : Nat} {w w' : Worker α} {shared : Shared α} (here : s.workers[i]? = some w)
    (same : w'.current = w.current) (tasks : shared.tasks = s.shared.tasks) :
    Tracked (s.putWorker i w' shared) (log ++ []) := by
  refine tracked.unmarked ?_ ?_ fun n => rfl
  · simp only [queued, ThreadPool.putWorker, tasks]
  · have moved := running_putWorker here w' shared
    rw [same] at moved
    exact (List.perm_append_left_iff _).mp moved

theorem Tracked.putCaller {s : ThreadPool α} {log : List Mark} (tracked : Tracked s log)
    {i : Nat} {c c' : Caller α} {shared : Shared α} (here : s.callers[i]? = some c)
    (same : c'.hasPushed = c.hasPushed) (tasks : shared.tasks = s.shared.tasks) :
    Tracked (s.putCaller i c' shared) (log ++ []) := by
  refine tracked.unmarked ?_ (List.Perm.refl _) fun n => ?_
  · simp only [queued, ThreadPool.putCaller, tasks]
  · rw [hasPushed_putCaller here]
    split
    · rename_i own
      subst own
      simp [same, hasPushed, here]
    · rfl

/-- A worker takes the first task of the queue. -/
theorem Tracked.take {s : ThreadPool α} {log : List Mark} (tracked : Tracked s log) {i : Nat}
    {job : Job α} {rest : List (Job α)} (here : s.workers[i]? = some .deciding)
    (first : s.shared.tasks = job :: rest) {shared : Shared α} (tasks : shared.tasks = rest) :
    Tracked (s.putWorker i (.running job) shared) (log ++ [.started job.caller]) := by
  have moved : (s.putWorker i (.running job) shared).running ~ [job.caller] ++ s.running :=
    running_putWorker here (.running job) shared
  have queued : s.queued = job.caller :: (s.putWorker i (.running job) shared).queued := by
    simp only [ThreadPool.queued, first, ThreadPool.putWorker, tasks, List.map_cons]
  constructor
  all_goals
    simp only [List.filterMap_append, List.filterMap_cons, List.filterMap_nil, Mark.enqueued?,
      Mark.started?, Mark.finished?, List.append_nil]
  · rw [tracked.inOrder, queued, List.append_assoc]
    rfl
  · exact tracked.once
  · exact tracked.pushed
  · calc log.filterMap Mark.finished? ++ (s.putWorker i (.running job) shared).running
        ~ log.filterMap Mark.finished? ++ (s.running ++ [job.caller]) :=
          (moved.trans List.perm_append_comm).append_left _
      _ ~ log.filterMap Mark.finished? ++ s.running ++ [job.caller] := by rw [List.append_assoc]
      _ ~ log.filterMap Mark.started? ++ [job.caller] := tracked.kept.append_right _

/-- A task comes back, and its worker is free for the next. -/
theorem Tracked.finish {s : ThreadPool α} {log : List Mark} (tracked : Tracked s log) {i : Nat}
    {job : Job α} (here : s.workers[i]? = some (.running job)) {shared : Shared α}
    (tasks : shared.tasks = s.shared.tasks) :
    Tracked (s.putWorker i .locking shared) (log ++ [.finished job.caller]) := by
  have moved : [job.caller] ++ (s.putWorker i .locking shared).running ~ s.running :=
    running_putWorker here .locking shared
  have queued : (s.putWorker i .locking shared).queued = s.queued := by
    simp only [ThreadPool.queued, ThreadPool.putWorker, tasks]
  constructor
  all_goals
    simp only [List.filterMap_append, List.filterMap_cons, List.filterMap_nil, Mark.enqueued?,
      Mark.started?, Mark.finished?, List.append_nil]
  · rw [queued]
    exact tracked.inOrder
  · exact tracked.once
  · exact tracked.pushed
  · rw [List.append_assoc]
    exact (moved.append_left _).trans tracked.kept

/-- A caller's number is new to the record when it enqueues its task. -/
theorem Tracked.push {s : ThreadPool α} {log : List Mark} (tracked : Tracked s log) {i : Nat}
    {task : Task α} (here : s.callers[i]? = some ⟨task, .pushing⟩) {shared : Shared α}
    (tasks : shared.tasks = s.shared.tasks ++ [⟨i, task⟩]) :
    Tracked (s.putCaller i ⟨task, .notifying⟩ shared) (log ++ [.enqueued i]) := by
  have before : s.hasPushed i = false := by
    simp [hasPushed, here, Caller.hasPushed]
  constructor
  all_goals
    simp only [List.filterMap_append, List.filterMap_cons, List.filterMap_nil, Mark.enqueued?,
      Mark.started?, Mark.finished?, List.append_nil]
  · simp [tracked.inOrder, queued, ThreadPool.putCaller, tasks]
  · refine List.nodup_append.mpr ⟨tracked.once, List.nodup_singleton i, ?_⟩
    intro n old m new same
    cases List.mem_singleton.mp new
    cases (tracked.pushed n).mp old ▸ same ▸ before
  · intro n
    rw [hasPushed_putCaller here, List.mem_append, List.mem_singleton, tracked.pushed]
    by_cases same : i = n
    · simp [same, Caller.hasPushed]
    · simp [same, Ne.symm same]
  · exact tracked.kept

/-- A call adds a caller that has not pushed anything yet. -/
theorem Tracked.call {s : ThreadPool α} {log : List Mark} (tracked : Tracked s log)
    (task : Task α) :
    Tracked { s with callers := s.callers ++ [⟨task, .locking⟩] } (log ++ []) := by
  refine tracked.unmarked rfl (List.Perm.refl _) fun n => ?_
  rw [hasPushed, hasPushed, getElem?_snoc]
  split
  · rename_i last
    rw [last, List.getElem?_eq_none le_rfl]
    rfl
  · rfl

theorem tracked_worker {s t : ThreadPool α} {log : List Mark} {i : Nat} (tracked : Tracked s log)
    (moves : Moves s (.worker i) t) : Tracked t (log ++ marks s (.worker i)) := by
  cases moves with
  | lock _ w here asks free =>
      have quiet : marks s (.worker i) = [] := by
        rcases asks with rfl | rfl <;> simp only [marks, here]
      rw [quiet]
      refine tracked.putWorker here ?_ rfl
      rcases asks with rfl | rfl <;> rfl
  | pass _ here ready =>
      simp only [marks, here]
      exact tracked.putWorker here rfl rfl
  | wait _ here idle empty =>
      simp only [marks, here]
      exact tracked.putWorker here rfl rfl
  | block _ here =>
      simp only [marks, here]
      exact tracked.putWorker here rfl rfl
  | exit _ here stopped empty =>
      rw [marks, here, empty]
      exact tracked.putWorker here rfl rfl
  | take _ job rest here queued =>
      rw [marks, here, queued]
      exact tracked.take here queued rfl
  | underflow _ here idle empty =>
      rw [marks, here, empty]
      exact tracked.putWorker here rfl rfl
  | finish _ job promises here ran =>
      simp only [marks, here, ran]
      exact tracked.finish here rfl
  | fail _ job f here ran =>
      simp only [marks, here, ran]
      exact tracked.putWorker here rfl rfl

theorem tracked_caller {s t : ThreadPool α} {log : List Mark} {i : Nat} (tracked : Tracked s log)
    (moves : Moves s (.caller i) t) : Tracked t (log ++ marks s (.caller i)) := by
  cases moves with
  | acquire _ task here free =>
      simp only [marks, here]
      exact tracked.putCaller here rfl rfl
  | push _ task here =>
      simp only [marks, here]
      exact tracked.push here rfl
  | get _ task value here set =>
      simp only [marks, here]
      exact tracked.putCaller here rfl rfl

theorem tracked_notifyOne {s t : ThreadPool α} {log : List Mark} {i : Nat} {chosen : Option Nat}
    (tracked : Tracked s log) (moves : Moves s (.notifyOne i chosen) t) :
    Tracked t (log ++ []) := by
  cases moves with
  | notify _ k task here blocked =>
      have told : Tracked (s.putCaller i (Caller.afterNotify ⟨task, .notifying⟩) s.shared)
          (log ++ []) := tracked.putCaller here (Caller.hasPushed_afterNotify task) rfl
      rw [List.append_nil] at told
      exact told.putWorker blocked rfl rfl
  | notifyNone _ task here awake =>
      exact tracked.putCaller here (Caller.hasPushed_afterNotify task) rfl

theorem tracked_destructor {s t : ThreadPool α} {log : List Mark} (tracked : Tracked s log)
    (moves : Moves s .destructor t) : Tracked t (log ++ []) := by
  cases moves with
  | notifyAll notifying =>
      refine tracked.unmarked rfl ?_ fun n => rfl
      simp only [running, List.flatMap_map]
      refine List.Perm.of_eq (congrArg _ (List.flatMap_congr fun w _ => ?_))
      cases w <;> rfl
  | stop | join | destroyed => exact tracked.unmarked rfl (List.Perm.refl _) fun n => rfl

theorem tracked_step {s t : ThreadPool α} {log : List Mark} {e : Event α}
    (tracked : Tracked s log) (moves : Moves s e t) : Tracked t (log ++ marks s e) := by
  cases e with
  | call task =>
      cases moves
      exact tracked.call task
  | worker i => exact tracked_worker tracked moves
  | spurious i =>
      cases moves with
      | spurious _ here => exact tracked.putWorker here rfl rfl
  | caller i => exact tracked_caller tracked moves
  | notifyOne i chosen => exact tracked_notifyOne tracked moves
  | destructor => exact tracked_destructor tracked moves

/-! ## Whose task it is -/

def taskOf (s : ThreadPool α) (n : Nat) : Option (Task α) := s.callers[n]?.map Caller.task

/-- The tasks that are queued or running. -/
def jobs (s : ThreadPool α) : List (Job α) :=
  s.shared.tasks ++ s.workers.flatMap Worker.current

/-- What is queued or running under a caller's number is that caller's task. -/
def OwnTasks (s : ThreadPool α) : Prop := ∀ job ∈ s.jobs, s.taskOf job.caller = some job.task

theorem ownTasks_create (numThreads : Nat) : OwnTasks (create numThreads : ThreadPool α) := by
  intro job member
  rw [jobs, flatMap_current_create] at member
  cases member

theorem taskOf_putCaller {s : ThreadPool α} {i : Nat} {c c' : Caller α}
    (here : s.callers[i]? = some c) (same : c'.task = c.task) (shared : Shared α) (n : Nat) :
    (s.putCaller i c' shared).taskOf n = s.taskOf n := by
  rw [taskOf, taskOf, callers_putCaller here]
  split
  · rename_i own
    rw [← own, here, Option.map_some, Option.map_some, same]
  · rfl

theorem Caller.task_afterNotify (c : Caller α) : c.afterNotify.task = c.task := by
  unfold Caller.afterNotify
  split <;> rfl

/-- Only a call adds a task to those the callers have. -/
theorem taskOf_step {s t : ThreadPool α} {e : Event α} (moves : Moves s e t) (n : Nat) :
    t.taskOf n = s.taskOf n ∨
      s.taskOf n = none ∧ ∃ task, e = .call task ∧ t.taskOf n = some task := by
  cases moves with
  | call task =>
      rw [taskOf, taskOf, getElem?_snoc]
      split
      · rename_i last
        exact .inr ⟨by rw [last, List.getElem?_eq_none le_rfl]; rfl, task, rfl, rfl⟩
      · exact .inl rfl
  | acquire i task here free => exact .inl (taskOf_putCaller here (by rfl) _ n)
  | push i task here => exact .inl (taskOf_putCaller here (by rfl) _ n)
  | get i task value here set => exact .inl (taskOf_putCaller here (by rfl) _ n)
  | notify i k task here blocked =>
      exact .inl (taskOf_putCaller here (Caller.task_afterNotify _) s.shared n)
  | notifyNone i task here awake =>
      exact .inl (taskOf_putCaller here (Caller.task_afterNotify _) _ n)
  | lock | pass | wait | block | exit | take | underflow | finish | fail | spurious | stop
  | notifyAll | join | destroyed => exact .inl rfl

/-- The task of a caller is what it was called with. -/
theorem taskOf_kept {s t : ThreadPool α} {e : Event α} (moves : Moves s e t) {n : Nat}
    {task : Task α} (known : s.taskOf n = some task) : t.taskOf n = some task := by
  obtain same | ⟨unknown, _⟩ := taskOf_step moves n
  · exact same.trans known
  · cases unknown.symm.trans known

/-- A worker's step brings no task into the pool. -/
theorem mem_jobs_putWorker {s : ThreadPool α} {i : Nat} {w : Worker α} {shared : Shared α}
    {job : Job α} (member : job ∈ (s.putWorker i w shared).jobs) :
    job ∈ shared.tasks ∨ job ∈ w.current ∨ job ∈ s.jobs := by
  rcases List.mem_append.mp member with waits | runs
  · exact .inl waits
  · obtain ⟨v, present, has⟩ := List.mem_flatMap.mp runs
    rcases List.mem_or_eq_of_mem_set present with old | rfl
    · exact .inr (.inr (List.mem_append_right _ (List.mem_flatMap.mpr ⟨v, old, has⟩)))
    · exact .inr (.inl has)

/-- Every task in the pool was there before, but for the one a caller enqueues. -/
theorem mem_jobs_step {s t : ThreadPool α} {e : Event α} (moves : Moves s e t) {job : Job α}
    (member : job ∈ t.jobs) : job ∈ s.jobs ∨ t.taskOf job.caller = some job.task := by
  have waits {job : Job α} (queued : job ∈ s.shared.tasks) : job ∈ s.jobs :=
    List.mem_append_left _ queued
  have idle {i : Nat} {w : Worker α} {shared : Shared α} (quiet : w.current = [])
      (tasks : shared.tasks = s.shared.tasks)
      (member : job ∈ (s.putWorker i w shared).jobs) : job ∈ s.jobs := by
    rcases mem_jobs_putWorker member with queued | runs | old
    · exact waits (tasks ▸ queued)
    · rw [quiet] at runs
      cases runs
    · exact old
  cases moves with
  | lock i w here asks free => exact .inl (idle rfl rfl member)
  | pass i here ready => exact .inl (idle rfl rfl member)
  | wait i here isIdle empty => exact .inl (idle rfl rfl member)
  | block i here => exact .inl (idle rfl rfl member)
  | exit i here stopped empty => exact .inl (idle rfl rfl member)
  | take i first rest here queued =>
      rcases mem_jobs_putWorker member with later | runs | old
      · exact .inl (waits (queued ▸ List.mem_cons_of_mem _ later))
      · cases List.mem_singleton.mp runs
        exact .inl (waits (queued ▸ List.mem_cons_self))
      · exact .inl old
  | underflow i here isIdle empty => exact .inl (idle rfl rfl member)
  | finish i done promises here ran => exact .inl (idle rfl rfl member)
  | fail i failed f here ran =>
      rcases mem_jobs_putWorker member with queued | runs | old
      · exact .inl (waits queued)
      · exact .inl (List.mem_append_right _
          (List.mem_flatMap.mpr ⟨_, List.mem_of_getElem? here, runs⟩))
      · exact .inl old
  | spurious i here => exact .inl (idle rfl rfl member)
  | push i task here =>
      rcases List.mem_append.mp member with queued | runs
      · rcases List.mem_append.mp queued with old | new
        · exact .inl (waits old)
        · cases List.mem_singleton.mp new
          refine .inr (Eq.trans (taskOf_putCaller here (by rfl) _ i) ?_)
          rw [taskOf, here]
          rfl
      · exact .inl (List.mem_append_right _ runs)
  | notify i k task here blocked => exact .inl (idle rfl rfl member)
  | notifyAll notifying =>
      rcases List.mem_append.mp member with queued | runs
      · exact .inl (waits queued)
      · rw [List.flatMap_map] at runs
        obtain ⟨w, present, has⟩ := List.mem_flatMap.mp runs
        refine .inl (List.mem_append_right _ (List.mem_flatMap.mpr ⟨w, present, ?_⟩))
        cases w <;> exact has
  | call | acquire | get | notifyNone | stop | join | destroyed => exact .inl member

theorem ownTasks_step {s t : ThreadPool α} {e : Event α} (own : OwnTasks s)
    (moves : Moves s e t) : OwnTasks t := by
  intro job member
  rcases mem_jobs_step moves member with old | new
  · exact taskOf_kept moves (own job old)
  · exact new

/-! ## The end -/

/-- How many workers the destructor has joined. -/
def joinedCount (s : ThreadPool α) : Nat :=
  match s.destructor with
  | .alive | .notifying => 0
  | .joining k => k
  | .destroyed => s.workers.length

/-- The destructor is only past workers that have exited, and a worker only exits
from a stopped pool with nothing left to do. -/
structure Drained (s : ThreadPool α) : Prop where
  begun : s.shared.stop = true → s.destructor ≠ .alive
  through : Each (fun _ w => w = .exited → s.shared.stop = true ∧ s.shared.tasks = []) s.workers
  joined : Each (fun j w => j < s.joinedCount → w = .exited) s.workers

/-- Caller `i` is at `tasks.emplace`. -/
def isPushing (s : ThreadPool α) (i : Nat) : Bool :=
  match s.callers[i]? with
  | some ⟨_, .pushing⟩ => true
  | _ => false

/-- Tasks are enqueued before the destruction starts. -/
def BeforeDestruction (s : ThreadPool α) : Event α → Prop
  | .caller i => s.isPushing i = true → s.destructor = .alive
  | .call _ | .worker _ | .spurious _ | .notifyOne _ _ | .destructor => True

instance (s : ThreadPool α) (e : Event α) : Decidable (BeforeDestruction s e) :=
  match e with
  | .caller i => inferInstanceAs (Decidable (s.isPushing i = true → s.destructor = .alive))
  | .call _ | .worker _ | .spurious _ | .notifyOne _ _ | .destructor => .isTrue trivial

theorem drained_create (numThreads : Nat) : Drained (create numThreads : ThreadPool α) where
  begun := nofun
  through := Each.replicate (fun _ => nofun) numThreads
  joined := Each.replicate (fun _ below => absurd below (Nat.not_lt_zero _)) numThreads

theorem Drained.putWorker {s : ThreadPool α} (drained : Drained s) {i : Nat} {w w' : Worker α}
    {shared : Shared α} (here : s.workers[i]? = some w) (going : w ≠ .exited)
    (stop : shared.stop = s.shared.stop) (tasks : s.shared.tasks = [] → shared.tasks = [])
    (own : w' = .exited → shared.stop = true ∧ shared.tasks = []) :
    Drained (s.putWorker i w' shared) where
  begun := fun stopped => drained.begun (stop.symm.trans stopped)
  through := by
    refine drained.through.set own fun j v _ _ kept exited => ?_
    obtain ⟨stopped, empty⟩ := kept exited
    exact ⟨stop.trans stopped, tasks empty⟩
  joined := by
    have same : (s.putWorker i w' shared).joinedCount = s.joinedCount := by
      simp [joinedCount, ThreadPool.putWorker]
    rw [same]
    refine drained.joined.set (fun below => ?_) fun _ _ _ _ kept => kept
    exact absurd (drained.joined i w here below) going

theorem drained_step {s t : ThreadPool α} {e : Event α} (drained : Drained s)
    (early : BeforeDestruction s e) (moves : Moves s e t) : Drained t := by
  cases moves with
  | lock i w here asks free =>
      exact drained.putWorker here (by rcases asks with rfl | rfl <;> nofun) rfl id nofun
  | pass i here ready => exact drained.putWorker here nofun rfl id nofun
  | wait i here idle empty => exact drained.putWorker here nofun rfl id nofun
  | block i here => exact drained.putWorker here nofun rfl id nofun
  | exit i here stopped empty =>
      exact drained.putWorker here nofun rfl id fun _ => ⟨stopped, empty⟩
  | take i job rest here queued =>
      refine drained.putWorker here nofun rfl (fun empty => ?_) nofun
      cases queued.symm.trans empty
  | underflow i here idle empty => exact drained.putWorker here nofun rfl id nofun
  | finish i job promises here ran => exact drained.putWorker here nofun rfl id nofun
  | fail i job f here ran => exact drained.putWorker here nofun rfl id nofun
  | spurious i here => exact drained.putWorker here nofun rfl id nofun
  | push i task here =>
      have alive : s.destructor = .alive := early (by rw [isPushing, here])
      refine { drained with through := drained.through.mono fun j w _ kept exited => ?_ }
      exact absurd alive (drained.begun (kept exited).1)
  | notify i k task here blocked =>
      exact Drained.putWorker (s := s.putCaller i _ s.shared) { drained with } blocked nofun rfl
        id nofun
  | stop alive =>
      refine ⟨nofun, drained.through.mono fun j w _ kept exited => ⟨rfl, (kept exited).2⟩, ?_⟩
      exact fun _ _ _ below => absurd below (Nat.not_lt_zero _)
  | notifyAll notifying =>
      refine ⟨nofun, drained.through.map fun j w _ kept exited => kept ?_, ?_⟩
      · cases w <;> first | rfl | cases exited
      · exact fun _ _ _ below => absurd below (Nat.not_lt_zero _)
  | join k joining exited =>
      refine ⟨nofun, drained.through, fun j w there below => ?_⟩
      rcases Nat.lt_succ_iff_lt_or_eq.mp below with earlier | rfl
      · exact drained.joined j w there (by rwa [joinedCount, joining])
      · exact (Option.some.inj (exited.symm.trans there)).symm
  | destroyed k joining past =>
      refine ⟨nofun, drained.through, fun j w there _ => ?_⟩
      obtain ⟨below, _⟩ := List.getElem?_eq_some_iff.mp there
      refine drained.joined j w there ?_
      rw [joinedCount, joining]
      exact below.trans_le (List.getElem?_eq_none_iff.mp past)
  | call | acquire | get | notifyNone => exact { drained with }

theorem length_workers_step {s t : ThreadPool α} {e : Event α} (moves : Moves s e t) :
    t.workers.length = s.workers.length := by
  cases moves <;> simp [putWorker, putCaller]

/-- Behind the destructor there is no worker, and no task that one has. -/
theorem Drained.destroyed {s : ThreadPool α} (drained : Drained s) (nonempty : s.workers ≠ [])
    (destroyed : s.destructor = .destroyed) :
    (∀ w ∈ s.workers, w = .exited) ∧ s.queued = [] ∧ s.running = [] := by
  have exited : ∀ w ∈ s.workers, w = .exited := by
    intro w member
    obtain ⟨j, there⟩ := List.mem_iff_getElem?.mp member
    obtain ⟨below, _⟩ := List.getElem?_eq_some_iff.mp there
    exact drained.joined j w there (by rwa [joinedCount, destroyed])
  obtain ⟨w, member⟩ := List.exists_mem_of_ne_nil _ nonempty
  obtain ⟨j, there⟩ := List.mem_iff_getElem?.mp member
  obtain ⟨_, empty⟩ := drained.through j w there (exited w member)
  have idle : s.workers.flatMap Worker.current = [] := by
    refine List.flatMap_eq_nil_iff.mpr fun v present => ?_
    rw [exited v present]
    rfl
  exact ⟨exited, by rw [queued, empty]; rfl, by rw [running, idle]; rfl⟩

/-- The queue is first in, first out, a task is started once, is at every moment
queued once, with one worker or finished once, and is finished when the destructor is. -/
structure TasksConserved (s : ThreadPool α) (log : List Mark) : Prop where
  inOrder : log.filterMap Mark.enqueued? = log.filterMap Mark.started? ++ s.queued
  once : (log.filterMap Mark.started?).Nodup
  onePlace : ∀ n ∈ log.filterMap Mark.enqueued?,
    s.queued.count n + s.running.count n + (log.filterMap Mark.finished?).count n = 1
  own : ∀ job ∈ s.jobs, s.taskOf job.caller = some job.task
  ended : s.destructor = .destroyed →
    (∀ n ∈ log.filterMap Mark.enqueued?, n ∈ log.filterMap Mark.finished?) ∧
      ∀ w ∈ s.workers, w = .exited

theorem Tracked.conserved {s : ThreadPool α} {log : List Mark} (tracked : Tracked s log)
    (own : OwnTasks s) (drained : Drained s) (nonempty : s.workers ≠ []) :
    TasksConserved s log where
  inOrder := tracked.inOrder
  once := (List.nodup_append.mp (tracked.inOrder ▸ tracked.once)).1
  onePlace := by
    intro n member
    have enqueued := List.count_eq_one_of_mem tracked.once member
    have started := tracked.kept.count_eq n
    rw [tracked.inOrder, List.count_append] at enqueued
    rw [List.count_append] at started
    omega
  own := own
  ended := by
    intro destroyed
    obtain ⟨exited, unqueued, idle⟩ := drained.destroyed nonempty destroyed
    refine ⟨fun n member => ?_, exited⟩
    have kept := tracked.kept
    rw [tracked.inOrder, unqueued, List.append_nil] at member
    rw [idle, List.append_nil] at kept
    exact kept.mem_iff.mpr member

/-- For any number of workers but none, and any tasks enqueued before the destruction. -/
theorem tasks_conserved {numThreads : Nat} (staffed : 1 ≤ numThreads)
    {events : List (Event α)} {s : ThreadPool α}
    (run : Trace (Takes next) (create numThreads) events s)
    (early : Stepwise (Takes next) BeforeDestruction (create numThreads) events) :
    ∃ log, Trace (Recording (Takes next) marks) (create numThreads, []) events (s, log) ∧
      TasksConserved s log := by
  let Inv (s : ThreadPool α) (log : List Mark) : Prop :=
    Tracked s log ∧ OwnTasks s ∧ Drained s ∧ s.workers.length = numThreads
  have start : Inv (create numThreads) [] :=
    ⟨tracked_create _, ownTasks_create _, drained_create _, List.length_replicate ..⟩
  have preserves : ∀ s log e t, Inv s log → BeforeDestruction s e → Takes next s e t →
      Inv t (log ++ marks s e) := by
    intro s log e t inv condition taken
    obtain ⟨tracked, own, drained, staff⟩ := inv
    have moves := (moves_of_next taken).2
    exact ⟨tracked_step tracked moves, ownTasks_step own moves,
      drained_step drained condition moves, (length_workers_step moves).trans staff⟩
  obtain ⟨log, recorded, tracked, own, drained, staff⟩ := early.exists_record preserves run start
  refine ⟨log, recorded, ?_⟩
  refine tracked.conserved own drained ?_
  intro idle
  rw [idle] at staff
  exact absurd staffed (by simp [← staff])

/-- Two workers, of which one sleeps and is woken for nothing, three tasks, and the
destruction with one of them still queued. -/
def threeTasks : List (Event Unit) :=
  [.worker 0, .worker 0, .worker 0, .call (.plain (.ok ())), .call (.promised (.ok ())),
    .call (.plain (.ok ())), .spurious 0, .worker 0, .worker 0, .worker 0,
    .caller 1, .caller 1, .notifyOne 1 (some 0), .caller 0, .caller 0, .notifyOne 0 none,
    .worker 1, .worker 1, .worker 1, .worker 0, .worker 0, .worker 0, .caller 2, .caller 2,
    .notifyOne 2 none, .destructor, .destructor, .worker 1, .worker 0, .caller 1,
    .worker 0, .worker 0, .worker 0, .worker 0, .worker 1, .worker 1, .worker 1,
    .worker 0, .worker 0, .worker 0, .destructor, .destructor, .destructor]

theorem three_tasks_finished :
    ∃ s log, Trace (Recording (Takes next) marks) (create 2, []) threeTasks (s, log) ∧
      TasksConserved s log ∧ s.destructor = .destroyed := by
  obtain ⟨s, run, ended⟩ : ∃ s, Trace (Takes next) (create 2) threeTasks s ∧
      decide (s.destructor = .destroyed) = true := exists_trace_of_follow (by decide +kernel)
  obtain ⟨log, recorded, conserved⟩ :=
    tasks_conserved (by decide) run (stepwise_of_along (by decide +kernel))
  exact ⟨s, log, recorded, conserved, of_decide_eq_true ended⟩

end ThreadPool
end DeribitTrading
