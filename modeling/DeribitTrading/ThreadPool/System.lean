import DeribitTrading.Faults
import DeribitTrading.Library.Interleaving
import DeribitTrading.Library.Runs

/-!
`ThreadPool` of `utils.cpp` with all its threads: the workers, the callers of
`enqueueTask` and `executeAsyncTask`, and the destructor. A step is what one
thread does between two points where another can get in: taking or releasing
`queueMutex`, the test of `condition.wait`, blocking, a notification, a write to
`stop`, a whole task.
-/
namespace DeribitTrading
open Runs Interleaving

/-- A task of `enqueueTask`, or the lambda of `executeAsyncTask` around its task. -/
inductive Task (α : Type) where
  | plain (outcome : Outcome Unit)
  | promised (outcome : Outcome α)

/-- A queued task and the caller whose promise it fulfils. -/
structure Job (α : Type) where
  caller : Nat
  task : Task α

inductive Owner where
  | worker (i : Nat)
  | caller (i : Nat)
  deriving DecidableEq, Repr

/-- What the threads share. -/
structure Shared (α : Type) where
  tasks : List (Job α)
  queueMutex : Option Owner
  stop : Bool
  /-- the promises of the callers, `none` until their value is set -/
  promises : Nat → Option α
  /-- the fault that has ended the process -/
  down : Option Fault

/-- `task()`; for `executeAsyncTask` that is `promise.set_value(task())`, which
throws itself on a promise that has its value. -/
def Job.run {α : Type} (job : Job α) (promises : Nat → Option α) : Outcome (Nat → Option α) :=
  match job.task with
  | .plain outcome => outcome.map fun _ => promises
  | .promised outcome => do
      let value ← outcome
      match promises job.caller with
      | none => return Function.update promises job.caller (some value)
      | some _ => throw .terminated

/-- The program point of `workerThread`. In `waiting` the predicate was false, the
mutex is still held and the thread not yet blocked. -/
inductive Worker (α : Type) where
  | locking
  | testing
  | waiting
  | blocked
  | woken
  | deciding
  | running (job : Job α)
  | exited

namespace Worker
variable {α : Type}

/-- `worker.lock(); …`: one step of worker `i`. -/
def step (i : Nat) (w : Worker α) (s : Shared α) : Option (Worker α × Shared α) :=
  match w with
  | .locking | .woken =>
      if s.queueMutex = none then some (.testing, { s with queueMutex := some (.worker i) })
      else none
  | .testing => some (if s.stop || !s.tasks.isEmpty then .deciding else .waiting, s)
  | .waiting => some (.blocked, { s with queueMutex := none })
  | .blocked => none
  | .deciding =>
      if s.stop && s.tasks.isEmpty then some (.exited, { s with queueMutex := none })
      else
        match s.tasks with
        | job :: rest => some (.running job, { s with tasks := rest, queueMutex := none })
        -- `front()` of an empty queue
        | [] => some (.deciding, { s with down := some .undefined })
  | .running job =>
      match job.run s.promises with
      | .ok promises => some (.locking, { s with promises })
      | .error f => some (.running job, { s with down := some f.uncaught })
  | .exited => none

def isBlocked : Worker α → Bool
  | .blocked => true
  | _ => false

def notified (w : Worker α) : Worker α := if w.isBlocked then .woken else w

end Worker

inductive CallerStage (α : Type) where
  | locking
  | pushing
  | notifying
  | awaiting
  | returned
  | received (value : α)

/-- A thread in `enqueueTask` or `executeAsyncTask`. -/
structure Caller (α : Type) where
  task : Task α
  stage : CallerStage α

namespace Caller
variable {α : Type}

/-- Behind `notify_one`, `executeAsyncTask` waits for its future. -/
def afterNotify (c : Caller α) : Caller α :=
  match c.task with
  | .plain _ => { c with stage := .returned }
  | .promised _ => { c with stage := .awaiting }

/-- The steps of caller `i` but for `notify_one`. -/
def step (i : Nat) (c : Caller α) (s : Shared α) : Option (Caller α × Shared α) :=
  match c.stage with
  | .locking =>
      if s.queueMutex = none then
        some ({ c with stage := .pushing }, { s with queueMutex := some (.caller i) })
      else none
  | .pushing =>
      some ({ c with stage := .notifying },
        { s with tasks := s.tasks ++ [⟨i, c.task⟩], queueMutex := none })
  | .awaiting => (s.promises i).map fun value => ({ c with stage := .received value }, s)
  | .notifying | .returned | .received _ => none

end Caller

/-- The destructor: not called, about to notify, at `worker.join()`, through. -/
inductive Destructor where
  | alive
  | notifying
  | joining (k : Nat)
  | destroyed
  deriving DecidableEq, Repr

structure ThreadPool (α : Type) where
  shared : Shared α
  workers : List (Worker α)
  callers : List (Caller α)
  destructor : Destructor

namespace ThreadPool
variable {α : Type}

def create (numThreads : Nat) : ThreadPool α where
  shared :=
    { tasks := [], queueMutex := none, stop := false, promises := fun _ => none, down := none }
  workers := List.replicate numThreads .locking
  callers := []
  destructor := .alive

inductive Event (α : Type) where
  | call (task : Task α)
  | worker (i : Nat)
  | spurious (i : Nat)
  | caller (i : Nat)
  /-- `notify_one` of caller `i`, and the blocked worker it wakes, if there is one -/
  | notifyOne (i : Nat) (chosen : Option Nat)
  | destructor

/-- `~ThreadPool`. -/
def destroy (s : ThreadPool α) : Option (ThreadPool α) :=
  match s.destructor with
  | .alive => some { s with shared := { s.shared with stop := true }, destructor := .notifying }
  | .notifying => some { s with workers := s.workers.map Worker.notified, destructor := .joining 0 }
  | .joining k =>
      match s.workers[k]? with
      | some .exited => some { s with destructor := .joining (k + 1) }
      | some _ => none
      | none => some { s with destructor := .destroyed }
  | .destroyed => none

def notifyOne (s : ThreadPool α) (i : Nat) (chosen : Option Nat) : Option (ThreadPool α) :=
  match s.callers[i]?, chosen with
  | some ⟨task, .notifying⟩, some k =>
      match s.workers[k]? with
      | some .blocked =>
          some { s with
            workers := s.workers.set k .woken
            callers := s.callers.set i (Caller.afterNotify ⟨task, .notifying⟩) }
      | _ => none
  | some ⟨task, .notifying⟩, none =>
      if s.workers.any Worker.isBlocked then none
      else some { s with callers := s.callers.set i (Caller.afterNotify ⟨task, .notifying⟩) }
  | _, _ => none

def move (s : ThreadPool α) : Event α → Option (ThreadPool α)
  | .call task => some { s with callers := s.callers ++ [⟨task, .locking⟩] }
  | .worker i =>
      s.workers[i]?.bind fun w =>
        (w.step i s.shared).map fun moved =>
          { s with shared := moved.2, workers := s.workers.set i moved.1 }
  | .spurious i =>
      match s.workers[i]? with
      | some .blocked => some { s with workers := s.workers.set i .woken }
      | _ => none
  | .caller i =>
      s.callers[i]?.bind fun c =>
        (c.step i s.shared).map fun moved =>
          { s with shared := moved.2, callers := s.callers.set i moved.1 }
  | .notifyOne i chosen => s.notifyOne i chosen
  | .destructor => s.destroy

/-- Nothing moves in a process that is down. -/
def next (s : ThreadPool α) (e : Event α) : Option (ThreadPool α) :=
  if s.shared.down = none then s.move e else none

def putWorker (s : ThreadPool α) (i : Nat) (w : Worker α) (shared : Shared α) : ThreadPool α :=
  { s with shared, workers := s.workers.set i w }

def putCaller (s : ThreadPool α) (i : Nat) (c : Caller α) (shared : Shared α) : ThreadPool α :=
  { s with shared, callers := s.callers.set i c }

/-- Everything that can happen in one step, with what the thread finds. -/
inductive Moves (s : ThreadPool α) : Event α → ThreadPool α → Prop
  | call (task : Task α) :
      Moves s (.call task) { s with callers := s.callers ++ [⟨task, .locking⟩] }
  | lock (i : Nat) (w : Worker α) : s.workers[i]? = some w → w = .locking ∨ w = .woken →
      s.shared.queueMutex = none →
      Moves s (.worker i)
        (s.putWorker i .testing { s.shared with queueMutex := some (.worker i) })
  | pass (i : Nat) : s.workers[i]? = some .testing → s.shared.stop = true ∨ s.shared.tasks ≠ [] →
      Moves s (.worker i) (s.putWorker i .deciding s.shared)
  | wait (i : Nat) : s.workers[i]? = some .testing → s.shared.stop = false →
      s.shared.tasks = [] → Moves s (.worker i) (s.putWorker i .waiting s.shared)
  | block (i : Nat) : s.workers[i]? = some .waiting →
      Moves s (.worker i) (s.putWorker i .blocked { s.shared with queueMutex := none })
  | exit (i : Nat) : s.workers[i]? = some .deciding → s.shared.stop = true →
      s.shared.tasks = [] →
      Moves s (.worker i) (s.putWorker i .exited { s.shared with queueMutex := none })
  | take (i : Nat) (job : Job α) (rest : List (Job α)) : s.workers[i]? = some .deciding →
      s.shared.tasks = job :: rest →
      Moves s (.worker i)
        (s.putWorker i (.running job) { s.shared with tasks := rest, queueMutex := none })
  | underflow (i : Nat) : s.workers[i]? = some .deciding → s.shared.stop = false →
      s.shared.tasks = [] →
      Moves s (.worker i) (s.putWorker i .deciding { s.shared with down := some .undefined })
  | finish (i : Nat) (job : Job α) (promises : Nat → Option α) :
      s.workers[i]? = some (.running job) → job.run s.shared.promises = .ok promises →
      Moves s (.worker i) (s.putWorker i .locking { s.shared with promises })
  | fail (i : Nat) (job : Job α) (f : Fault) :
      s.workers[i]? = some (.running job) → job.run s.shared.promises = .error f →
      Moves s (.worker i)
        (s.putWorker i (.running job) { s.shared with down := some f.uncaught })
  | spurious (i : Nat) : s.workers[i]? = some .blocked →
      Moves s (.spurious i) (s.putWorker i .woken s.shared)
  | acquire (i : Nat) (task : Task α) : s.callers[i]? = some ⟨task, .locking⟩ →
      s.shared.queueMutex = none →
      Moves s (.caller i)
        (s.putCaller i ⟨task, .pushing⟩ { s.shared with queueMutex := some (.caller i) })
  | push (i : Nat) (task : Task α) : s.callers[i]? = some ⟨task, .pushing⟩ →
      Moves s (.caller i)
        (s.putCaller i ⟨task, .notifying⟩
          { s.shared with tasks := s.shared.tasks ++ [⟨i, task⟩], queueMutex := none })
  | get (i : Nat) (task : Task α) (value : α) : s.callers[i]? = some ⟨task, .awaiting⟩ →
      s.shared.promises i = some value →
      Moves s (.caller i) (s.putCaller i ⟨task, .received value⟩ s.shared)
  | notify (i k : Nat) (task : Task α) : s.callers[i]? = some ⟨task, .notifying⟩ →
      s.workers[k]? = some .blocked →
      Moves s (.notifyOne i (some k))
        ((s.putCaller i (Caller.afterNotify ⟨task, .notifying⟩) s.shared).putWorker k .woken
          s.shared)
  | notifyNone (i : Nat) (task : Task α) : s.callers[i]? = some ⟨task, .notifying⟩ →
      (∀ w ∈ s.workers, w.isBlocked = false) →
      Moves s (.notifyOne i none)
        (s.putCaller i (Caller.afterNotify ⟨task, .notifying⟩) s.shared)
  | stop : s.destructor = .alive →
      Moves s .destructor
        { s with shared := { s.shared with stop := true }, destructor := .notifying }
  | notifyAll : s.destructor = .notifying →
      Moves s .destructor
        { s with workers := s.workers.map Worker.notified, destructor := .joining 0 }
  | join (k : Nat) : s.destructor = .joining k → s.workers[k]? = some .exited →
      Moves s .destructor { s with destructor := .joining (k + 1) }
  | destroyed (k : Nat) : s.destructor = .joining k → s.workers[k]? = none →
      Moves s .destructor { s with destructor := .destroyed }

theorem worker_moves {s t : ThreadPool α} {i : Nat} (taken : s.move (.worker i) = some t) :
    Moves s (.worker i) t := by
  obtain ⟨w, here, moved⟩ := Option.bind_eq_some_iff.mp taken
  obtain ⟨⟨w', shared⟩, stepped, rfl⟩ := Option.map_eq_some_iff.mp moved
  cases w with
  | locking | woken =>
      simp only [Worker.step] at stepped
      split at stepped
      · cases stepped
        exact .lock i _ here (by simp) (by assumption)
      · cases stepped
  | testing =>
      cases stepped
      by_cases ready : s.shared.stop = true ∨ s.shared.tasks ≠ []
      · rw [if_pos (by simpa using ready)]
        exact .pass i here ready
      · rw [if_neg (by simpa using ready)]
        obtain ⟨idle, empty⟩ := not_or.mp ready
        exact .wait i here (Bool.not_eq_true _ ▸ idle) (Classical.not_not.mp empty)
  | waiting =>
      cases stepped
      exact .block i here
  | blocked => cases stepped
  | deciding =>
      simp only [Worker.step] at stepped
      split at stepped
      · rename_i ended
        cases stepped
        simp only [Bool.and_eq_true, List.isEmpty_iff] at ended
        exact .exit i here ended.1 ended.2
      · rename_i going
        split at stepped
        · rename_i job rest queued
          cases stepped
          exact .take i job rest here queued
        · rename_i empty
          cases stepped
          exact .underflow i here (by simpa [empty] using going) empty
  | running job =>
      simp only [Worker.step] at stepped
      split at stepped
      · rename_i promises ran
        cases stepped
        exact .finish i job promises here ran
      · rename_i f ran
        cases stepped
        exact .fail i job f here ran
  | exited => cases stepped

theorem caller_moves {s t : ThreadPool α} {i : Nat} (taken : s.move (.caller i) = some t) :
    Moves s (.caller i) t := by
  obtain ⟨⟨task, stage⟩, here, moved⟩ := Option.bind_eq_some_iff.mp taken
  obtain ⟨⟨c', shared⟩, stepped, rfl⟩ := Option.map_eq_some_iff.mp moved
  cases stage with
  | locking =>
      simp only [Caller.step] at stepped
      split at stepped
      · cases stepped
        exact .acquire i task here (by assumption)
      · cases stepped
  | pushing =>
      cases stepped
      exact .push i task here
  | awaiting =>
      obtain ⟨value, set, same⟩ := Option.map_eq_some_iff.mp stepped
      cases same
      exact .get i task value here set
  | notifying | returned | received value => cases stepped

theorem notify_moves {s t : ThreadPool α} {i : Nat} {chosen : Option Nat}
    (taken : s.notifyOne i chosen = some t) : Moves s (.notifyOne i chosen) t := by
  unfold notifyOne at taken
  split at taken
  · rename_i task k here
    split at taken
    · rename_i blocked
      cases taken
      exact .notify i k task here blocked
    · cases taken
  · rename_i task here
    split at taken
    · cases taken
    · rename_i awake
      cases taken
      exact .notifyNone i task here (by simpa using awake)
  · cases taken

theorem destructor_moves {s t : ThreadPool α} (taken : s.destroy = some t) :
    Moves s .destructor t := by
  unfold destroy at taken
  split at taken
  · rename_i alive
    cases taken
    exact .stop alive
  · rename_i notifying
    cases taken
    exact .notifyAll notifying
  · rename_i k joining
    split at taken
    · rename_i exited
      cases taken
      exact .join k joining exited
    · cases taken
    · rename_i past
      cases taken
      exact .destroyed k joining past
  · cases taken

theorem moves_of_next {s t : ThreadPool α} {e : Event α} (taken : Takes next s e t) :
    s.shared.down = none ∧ Moves s e t := by
  unfold Takes next at taken
  split at taken
  · rename_i up
    refine ⟨up, ?_⟩
    cases e with
    | call task =>
        cases taken
        exact .call task
    | worker i => exact worker_moves taken
    | spurious i =>
        simp only [move] at taken
        split at taken
        · rename_i blocked
          cases taken
          exact .spurious i blocked
        · cases taken
    | caller i => exact caller_moves taken
    | notifyOne i chosen => exact notify_moves taken
    | destructor => exact destructor_moves taken
  · cases taken

/-! ## Mutual exclusion -/

/-- Between taking `queueMutex` and releasing it a worker is its owner, and knows
what it has seen of the queue. -/
def WorkerLocked (s : Shared α) (i : Nat) : Worker α → Prop
  | .testing => s.queueMutex = some (.worker i)
  | .waiting => s.queueMutex = some (.worker i) ∧ s.tasks = []
  | .deciding => s.queueMutex = some (.worker i) ∧ (s.stop = true ∨ s.tasks ≠ [])
  | .locking | .blocked | .woken | .running _ | .exited => True

def CallerLocked (s : Shared α) (i : Nat) (c : Caller α) : Prop :=
  match c.stage with
  | .pushing => s.queueMutex = some (.caller i)
  | _ => True

structure Locked (s : ThreadPool α) : Prop where
  workers : Each (WorkerLocked s.shared) s.workers
  callers : Each (CallerLocked s.shared) s.callers

theorem locked_create (numThreads : Nat) : Locked (create numThreads : ThreadPool α) where
  workers := Each.replicate (fun _ => trivial) numThreads
  callers := Each.nil

/-- A worker that does not own the mutex has seen nothing that could change. -/
theorem WorkerLocked.outside {s s' : Shared α} {j : Nat} {w : Worker α}
    (out : s.queueMutex ≠ some (.worker j)) (locked : WorkerLocked s j w) :
    WorkerLocked s' j w := by
  cases w with
  | testing => exact absurd locked out
  | waiting => exact absurd locked.1 out
  | deciding => exact absurd locked.1 out
  | locking | blocked | woken | running _ | exited => exact trivial

theorem WorkerLocked.unchanged {s s' : Shared α} (mutex : s'.queueMutex = s.queueMutex)
    (tasks : s'.tasks = s.tasks) (stop : s'.stop = s.stop) {j : Nat} {w : Worker α}
    (locked : WorkerLocked s j w) : WorkerLocked s' j w := by
  cases w with
  | testing => exact mutex.trans locked
  | waiting => exact ⟨mutex.trans locked.1, tasks.trans locked.2⟩
  | deciding =>
      refine ⟨mutex.trans locked.1, ?_⟩
      rw [stop, tasks]
      exact locked.2
  | locking | blocked | woken | running _ | exited => exact trivial

theorem WorkerLocked.stopped {s : Shared α} {j : Nat} {w : Worker α}
    (locked : WorkerLocked s j w) : WorkerLocked { s with stop := true } j w := by
  cases w with
  | deciding => exact ⟨locked.1, .inl rfl⟩
  | testing | waiting | locking | blocked | woken | running _ | exited => exact locked

theorem WorkerLocked.notified {s : Shared α} {j : Nat} {w : Worker α}
    (locked : WorkerLocked s j w) : WorkerLocked s j w.notified := by
  cases w with
  | blocked => exact trivial
  | testing | waiting | deciding | locking | woken | running _ | exited => exact locked

theorem CallerLocked.outside {s s' : Shared α} {j : Nat} {c : Caller α}
    (out : s.queueMutex ≠ some (.caller j)) (locked : CallerLocked s j c) :
    CallerLocked s' j c := by
  unfold CallerLocked at locked ⊢
  split
  · rename_i pushing
    rw [pushing] at locked
    exact absurd locked out
  · exact trivial

theorem callerLocked_afterNotify (s : Shared α) (i : Nat) (c : Caller α) :
    CallerLocked s i c.afterNotify := by
  unfold Caller.afterNotify
  cases c.task with
  | plain _ => exact trivial
  | promised _ => exact trivial

/-- The owner of the mutex, as seen by the others. -/
theorem Locked.others {s : ThreadPool α} (locked : Locked s) {owner : Owner}
    (held : s.shared.queueMutex = some owner) (shared : Shared α) :
    (∀ j w, owner ≠ .worker j → s.workers[j]? = some w → WorkerLocked shared j w) ∧
      ∀ j c, owner ≠ .caller j → s.callers[j]? = some c → CallerLocked shared j c := by
  constructor
  · intro j w other there
    refine (locked.workers j w there).outside ?_
    rw [held]
    exact fun same => other (Option.some.inj same)
  · intro j c other there
    refine (locked.callers j c there).outside ?_
    rw [held]
    exact fun same => other (Option.some.inj same)

theorem Locked.free {s : ThreadPool α} (locked : Locked s)
    (free : s.shared.queueMutex = none) (shared : Shared α) :
    Each (WorkerLocked shared) s.workers ∧ Each (CallerLocked shared) s.callers := by
  constructor
  · exact locked.workers.mono fun j w _ own => own.outside (by simp [free])
  · exact locked.callers.mono fun j c _ own => own.outside (by simp [free])

theorem Locked.release {s : ThreadPool α} (locked : Locked s) {i : Nat} {w : Worker α}
    (held : s.shared.queueMutex = some (.worker i)) {shared : Shared α}
    (own : WorkerLocked shared i w) : Locked (s.putWorker i w shared) := by
  obtain ⟨workers, callers⟩ := locked.others held shared
  constructor
  · refine locked.workers.set own fun j c other there _ => workers j c ?_ there
    exact fun same => other (Owner.worker.inj same).symm
  · exact locked.callers.mono fun j c there _ => callers j c (by simp) there

/-- A step of a worker that leaves the mutex and what it guards alone. -/
theorem Locked.putWorker {s : ThreadPool α} (locked : Locked s) {i : Nat} {w : Worker α}
    {shared : Shared α} (mutex : shared.queueMutex = s.shared.queueMutex)
    (tasks : shared.tasks = s.shared.tasks) (stop : shared.stop = s.shared.stop)
    (own : WorkerLocked shared i w) : Locked (s.putWorker i w shared) := by
  constructor
  · exact locked.workers.set own fun j c _ _ kept => kept.unchanged mutex tasks stop
  · refine locked.callers.mono fun j c _ kept => ?_
    unfold CallerLocked at kept ⊢
    split
    · rename_i pushing
      rw [pushing] at kept
      exact mutex.trans kept
    · exact trivial

theorem locked_step {s t : ThreadPool α} {e : Event α} (locked : Locked s)
    (moves : Moves s e t) : Locked t := by
  cases moves with
  | call task =>
      exact { locked with callers := locked.callers.append trivial fun _ _ _ own => own }
  | lock i w here asks free =>
      obtain ⟨workers, callers⟩ := locked.free free { s.shared with queueMutex := some (.worker i) }
      exact ⟨workers.set rfl fun _ _ _ _ own => own, callers⟩
  | pass i here ready => exact locked.putWorker rfl rfl rfl ⟨locked.workers i _ here, ready⟩
  | wait i here idle empty =>
      exact locked.putWorker rfl rfl rfl ⟨locked.workers i _ here, empty⟩
  | block i here => exact locked.release (locked.workers i _ here).1 trivial
  | exit i here stopped empty => exact locked.release (locked.workers i _ here).1 trivial
  | take i job rest here queued => exact locked.release (locked.workers i _ here).1 trivial
  | underflow i here idle empty => exact locked.putWorker rfl rfl rfl (locked.workers i _ here)
  | finish i job promises here ran => exact locked.putWorker rfl rfl rfl trivial
  | fail i job f here ran => exact locked.putWorker rfl rfl rfl trivial
  | spurious i here => exact locked.putWorker rfl rfl rfl trivial
  | acquire i task here free =>
      obtain ⟨workers, callers⟩ := locked.free free { s.shared with queueMutex := some (.caller i) }
      exact ⟨workers, callers.set rfl fun _ _ _ _ own => own⟩
  | push i task here =>
      obtain ⟨workers, callers⟩ := locked.others (locked.callers i _ here)
        { s.shared with tasks := s.shared.tasks ++ [⟨i, task⟩], queueMutex := none }
      constructor
      · exact locked.workers.mono fun j w there _ => workers j w (by simp) there
      · refine locked.callers.set trivial fun j c other there _ => callers j c ?_ there
        exact fun same => other (Owner.caller.inj same).symm
  | get i task value here set =>
      exact { locked with callers := locked.callers.set trivial fun _ _ _ _ own => own }
  | notify i k task here blocked =>
      constructor
      · exact locked.workers.set trivial fun _ _ _ _ own => own
      · exact locked.callers.set (callerLocked_afterNotify ..) fun _ _ _ _ own => own
  | notifyNone i task here awake =>
      exact { locked with
        callers := locked.callers.set (callerLocked_afterNotify ..) fun _ _ _ _ own => own }
  | stop alive => exact { locked with workers := locked.workers.mono fun _ _ _ own => own.stopped }
  | notifyAll notifying =>
      exact { locked with workers := locked.workers.map fun _ _ _ own => own.notified }
  | join k joining exited => exact { locked with }
  | destroyed k joining past => exact { locked with }

end ThreadPool

end DeribitTrading
