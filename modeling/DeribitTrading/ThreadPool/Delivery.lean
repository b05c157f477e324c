import DeribitTrading.ThreadPool.Conservation
import DeribitTrading.ThreadPool.Progress
import DeribitTrading.Client.Acknowledgement

/-!
What the callers of `executeAsyncTask` get. The promise is only set on the way on
which the task returns, and the worker has no handler, so one task that throws
takes the process with it. As long as tasks return, nothing that can still move
leaves a caller waiting, and what can move comes to an end.
-/
namespace DeribitTrading
open Runs Interleaving ByteString

/-- The task comes back with a value. -/
def Task.returns {α : Type} : Task α → Bool
  | .plain outcome => outcome.isOk
  | .promised outcome => outcome.isOk

namespace Caller
variable {α : Type}

/-- What the caller was given. -/
def value (c : Caller α) : Option α :=
  match c.stage with
  | .received value => some value
  | .locking | .pushing | .notifying | .awaiting | .returned => none

/-- The caller has what its task came to. -/
def Served (c : Caller α) : Prop :=
  match c.task with
  | .plain _ => c.stage = .returned
  | .promised outcome => ∃ value, outcome = .ok value ∧ c.stage = .received value

/-- The stage goes with the task, and a value with its outcome. -/
def Fitting (c : Caller α) : Prop :=
  match c.stage with
  | .awaiting => ∃ outcome, c.task = .promised outcome
  | .returned => ∃ outcome, c.task = .plain outcome
  | .received value => c.task = .promised (.ok value)
  | .locking | .pushing | .notifying => True

theorem fitting_afterNotify (task : Task α) : (Caller.afterNotify ⟨task, .notifying⟩).Fitting := by
  cases task with
  | plain outcome => exact ⟨outcome, rfl⟩
  | promised outcome => exact ⟨outcome, rfl⟩

theorem value_afterNotify (task : Task α) :
    (Caller.afterNotify ⟨task, .notifying⟩).value = none := by
  cases task <;> rfl

end Caller

/-- A task that came back has set its own promise, if it had one to set. -/
theorem Job.run_eq_ok {α : Type} {job : Job α} {promises promises' : Nat → Option α}
    (ran : job.run promises = .ok promises') :
    (∃ outcome, job.task = .plain outcome ∧ promises' = promises) ∨
      ∃ value, job.task = .promised (.ok value) ∧
        promises' = Function.update promises job.caller (some value) := by
  obtain ⟨caller, task⟩ := job
  cases task with
  | plain outcome =>
      cases outcome with
      | error f => cases ran
      | ok done =>
          cases ran
          exact .inl ⟨.ok done, rfl, rfl⟩
  | promised outcome =>
      cases outcome with
      | error f => cases ran
      | ok value =>
          cases set : promises caller with
          | none =>
              simp only [Job.run, ok_bind, set] at ran
              cases ran
              exact .inr ⟨value, rfl, rfl⟩
          | some old =>
              simp only [Job.run, ok_bind, set] at ran
              cases ran

/-- A task that returns can only fail on a promise that is set. -/
theorem Job.run_of_returns {α : Type} {job : Job α} {promises : Nat → Option α}
    (returns : job.task.returns = true) (unset : promises job.caller = none) :
    ∃ promises', job.run promises = .ok promises' := by
  obtain ⟨caller, task⟩ := job
  cases task with
  | plain outcome =>
      cases outcome with
      | error f => cases returns
      | ok done => exact ⟨promises, rfl⟩
  | promised outcome =>
      cases outcome with
      | error f => cases returns
      | ok value =>
          refine ⟨Function.update promises caller (some value), ?_⟩
          simp only [Job.run, ok_bind, unset]
          rfl

/-- A task that throws sets nothing, whatever else. -/
theorem Job.run_of_throws {α : Type} {job : Job α} (throws : job.task.returns = false)
    (promises : Nat → Option α) : ∃ f, job.run promises = .error f := by
  obtain ⟨caller, task⟩ := job
  cases task with
  | plain outcome =>
      cases outcome with
      | error f => exact ⟨f, rfl⟩
      | ok done => cases throws
  | promised outcome =>
      cases outcome with
      | error f => exact ⟨f, rfl⟩
      | ok value => cases throws

namespace ThreadPool
variable {α : Type}

/-! ## Promises -/

/-- The promises that are set are those of the finished tasks that had one. -/
structure Kept (s : ThreadPool α) (log : List Mark) : Prop where
  sound : ∀ n value, s.shared.promises n = some value →
    n ∈ log.filterMap Mark.finished? ∧ s.taskOf n = some (.promised (.ok value))
  complete : ∀ n ∈ log.filterMap Mark.finished?, ∀ outcome,
    s.taskOf n = some (.promised outcome) → ∃ value, s.shared.promises n = some value

theorem kept_create (numThreads : Nat) : Kept (create numThreads : ThreadPool α) [] where
  sound := nofun
  complete := nofun

/-- Only a task that comes back touches the promises and is put down as finished. -/
theorem finished_step {s t : ThreadPool α} {e : Event α} (moves : Moves s e t) :
    ((marks s e).filterMap Mark.finished? = [] ∧ t.shared.promises = s.shared.promises) ∨
      ∃ (i : Nat) (job : Job α), s.workers[i]? = some (.running job) ∧
        job.run s.shared.promises = .ok t.shared.promises ∧ marks s e = [.finished job.caller] := by
  cases moves with
  | lock i w here asks free =>
      rcases asks with rfl | rfl
      · exact .inl ⟨by simp [marks, here], rfl⟩
      · exact .inl ⟨by simp [marks, here], rfl⟩
  | pass i here ready => exact .inl ⟨by simp [marks, here], rfl⟩
  | wait i here idle empty => exact .inl ⟨by simp [marks, here], rfl⟩
  | block i here => exact .inl ⟨by simp [marks, here], rfl⟩
  | exit i here stopped empty => exact .inl ⟨by simp [marks, here, empty], rfl⟩
  | take i job rest here queued =>
      exact .inl ⟨by simp [marks, here, queued, Mark.finished?], rfl⟩
  | underflow i here idle empty => exact .inl ⟨by simp [marks, here, empty], rfl⟩
  | finish i job promises here ran => exact .inr ⟨i, job, here, ran, by simp [marks, here, ran]⟩
  | fail i job f here ran => exact .inl ⟨by simp [marks, here, ran], rfl⟩
  | acquire i task here free => exact .inl ⟨by simp [marks, here], rfl⟩
  | push i task here => exact .inl ⟨by simp [marks, here, Mark.finished?], rfl⟩
  | get i task value here set => exact .inl ⟨by simp [marks, here], rfl⟩
  | call | spurious | notify | notifyNone | stop | notifyAll | join | destroyed =>
      exact .inl ⟨rfl, rfl⟩

theorem Tracked.known {s : ThreadPool α} {log : List Mark} (tracked : Tracked s log) {n : Nat}
    (finished : n ∈ log.filterMap Mark.finished?) : ∃ task, s.taskOf n = some task := by
  have started := tracked.kept.mem_iff.mp (List.mem_append_left _ finished)
  have enqueued := tracked.inOrder ▸ List.mem_append_left s.queued started
  obtain ⟨c, here, _⟩ := (Option.any_eq_true ..).mp ((tracked.pushed n).mp enqueued)
  exact ⟨c.task, by rw [taskOf, here, Option.map_some]⟩

theorem mem_running {s : ThreadPool α} {i : Nat} {job : Job α}
    (here : s.workers[i]? = some (.running job)) : job ∈ s.jobs ∧ job.caller ∈ s.running := by
  have member : job ∈ s.workers.flatMap Worker.current :=
    List.mem_flatMap.mpr ⟨_, List.mem_of_getElem? here, List.mem_singleton_self job⟩
  exact ⟨List.mem_append_right _ member, List.mem_map_of_mem member⟩

theorem Tracked.unfinished {s : ThreadPool α} {log : List Mark} (tracked : Tracked s log)
    {n : Nat} (runs : n ∈ s.running) : n ∉ log.filterMap Mark.finished? := by
  intro finished
  have once := (List.nodup_append.mp (tracked.inOrder ▸ tracked.once)).1
  exact (List.nodup_append.mp (tracked.kept.nodup_iff.mpr once)).2.2 n finished n runs rfl

theorem kept_step {s t : ThreadPool α} {log : List Mark} {e : Event α} (kept : Kept s log)
    (tracked : Tracked s log) (own : OwnTasks s) (moves : Moves s e t) :
    Kept t (log ++ marks s e) := by
  have back {n : Nat} {task : Task α} (finished : n ∈ log.filterMap Mark.finished?)
      (later : t.taskOf n = some task) : s.taskOf n = some task := by
    obtain ⟨before, same⟩ := tracked.known finished
    exact same.trans ((taskOf_kept moves same).symm.trans later)
  obtain ⟨quiet, same⟩ | ⟨i, job, here, ran, mark⟩ := finished_step moves
  · constructor
    · intro n value set
      obtain ⟨finished, returned⟩ := kept.sound n value (same ▸ set)
      refine ⟨?_, taskOf_kept moves returned⟩
      rw [List.filterMap_append, quiet, List.append_nil]
      exact finished
    · intro n finished outcome is
      rw [List.filterMap_append, quiet, List.append_nil] at finished
      rw [same]
      exact kept.complete n finished outcome (back finished is)
  · obtain ⟨inPool, runs⟩ := mem_running here
    have mine := taskOf_kept moves (own job inPool)
    have finished : (log ++ marks s e).filterMap Mark.finished? =
        log.filterMap Mark.finished? ++ [job.caller] := by
      rw [mark, List.filterMap_append]
      rfl
    constructor
    · intro n value set
      rw [finished]
      obtain ⟨outcome, plain, same⟩ | ⟨result, promised, set'⟩ := Job.run_eq_ok ran
      · obtain ⟨before, returned⟩ := kept.sound n value (same ▸ set)
        exact ⟨List.mem_append_left _ before, taskOf_kept moves returned⟩
      · rw [set'] at set
        by_cases isOwn : n = job.caller
        · subst isOwn
          rw [Function.update_self] at set
          cases set
          exact ⟨List.mem_append_right _ (List.mem_singleton_self _), promised ▸ mine⟩
        · rw [Function.update_of_ne isOwn] at set
          obtain ⟨before, returned⟩ := kept.sound n value set
          exact ⟨List.mem_append_left _ before, taskOf_kept moves returned⟩
    · intro n isFinished outcome is
      rw [finished] at isFinished
      obtain ⟨outcome', plain, same⟩ | ⟨result, promised, set'⟩ := Job.run_eq_ok ran
      · rcases List.mem_append.mp isFinished with before | new
        · rw [same]
          exact kept.complete n before outcome (back before is)
        · cases List.mem_singleton.mp new
          cases (is.symm.trans mine).trans (congrArg some plain)
      · by_cases isOwn : n = job.caller
        · exact ⟨result, by rw [set', isOwn, Function.update_self]⟩
        · rcases List.mem_append.mp isFinished with before | new
          · rw [set', Function.update_of_ne isOwn]
            exact kept.complete n before outcome (back before is)
          · exact absurd (List.mem_singleton.mp new) isOwn

/-- The stages of the callers go with their tasks. -/
def AllFitting (s : ThreadPool α) : Prop := Each (fun _ c => c.Fitting) s.callers

theorem allFitting_create (numThreads : Nat) : AllFitting (create numThreads : ThreadPool α) :=
  Each.nil

theorem allFitting_step {s t : ThreadPool α} {log : List Mark} {e : Event α}
    (fitting : AllFitting s) (kept : Kept s log) (moves : Moves s e t) : AllFitting t := by
  have others {i : Nat} {c : Caller α} (own : c.Fitting) : AllFitting (s.putCaller i c s.shared) :=
    fitting.set own fun _ _ _ _ fits => fits
  cases moves with
  | call task => exact fitting.append trivial fun _ _ _ fits => fits
  | acquire i task here free => exact others (c := ⟨task, .pushing⟩) trivial
  | push i task here => exact others (c := ⟨task, .notifying⟩) trivial
  | get i task value here set =>
      have returned := (kept.sound i value set).2
      rw [taskOf, here] at returned
      exact others (c := ⟨task, .received value⟩) (Option.some.inj returned)
  | notify i k task here blocked => exact others (Caller.fitting_afterNotify task)
  | notifyNone i task here awake => exact others (Caller.fitting_afterNotify task)
  | lock | pass | wait | block | exit | take | underflow | finish | fail | spurious | stop
  | notifyAll | join | destroyed => exact fitting

/-! ## Receipts -/

/-- The values that `future.get()` hands out, with the callers. -/
def receipts (s : ThreadPool α) : Event α → List (Nat × α)
  | .caller i =>
      match s.callers[i]? with
      | some ⟨_, .awaiting⟩ => ((s.shared.promises i).map fun value => (i, value)).toList
      | _ => []
  | .call _ | .worker _ | .spurious _ | .notifyOne _ _ | .destructor => []

def valueOf (s : ThreadPool α) (n : Nat) : Option α := s.callers[n]?.bind Caller.value

/-- The record of the receipts is what the callers have, each once. -/
structure Received (s : ThreadPool α) (record : List (Nat × α)) : Prop where
  once : (record.map Prod.fst).Nodup
  holds : ∀ n value, (n, value) ∈ record ↔ s.valueOf n = some value

theorem received_create (numThreads : Nat) : Received (create numThreads : ThreadPool α) [] where
  once := List.nodup_nil
  holds := by simp [valueOf, create]

theorem valueOf_putCaller {s : ThreadPool α} {i : Nat} {c c' : Caller α}
    (here : s.callers[i]? = some c) (same : c'.value = c.value) (shared : Shared α) (n : Nat) :
    (s.putCaller i c' shared).valueOf n = s.valueOf n := by
  rw [valueOf, valueOf, callers_putCaller here]
  split
  · rename_i own
    rw [← own, here, Option.bind_some, Option.bind_some, same]
  · rfl

theorem Received.unchanged {s t : ThreadPool α} {record : List (Nat × α)}
    (received : Received s record) (same : ∀ n, t.valueOf n = s.valueOf n) :
    Received t (record ++ []) := by
  rw [List.append_nil]
  exact ⟨received.once, fun n value => by rw [same]; exact received.holds n value⟩

theorem received_step {s t : ThreadPool α} {record : List (Nat × α)} {e : Event α}
    (received : Received s record) (moves : Moves s e t) :
    Received t (record ++ receipts s e) := by
  cases moves with
  | call task =>
      refine received.unchanged fun n => ?_
      rw [valueOf, valueOf, getElem?_snoc]
      split
      · rename_i last
        rw [last, List.getElem?_eq_none le_rfl]
        rfl
      · rfl
  | acquire i task here free =>
      simp only [receipts, here]
      exact received.unchanged fun n => valueOf_putCaller here (by rfl) _ n
  | push i task here =>
      simp only [receipts, here]
      exact received.unchanged fun n => valueOf_putCaller here (by rfl) _ n
  | get i task value here set =>
      simp only [receipts, here, set, Option.map_some, Option.toList_some]
      have before : s.valueOf i = none := by
        rw [valueOf, here]
        rfl
      have after (n : Nat) : (s.putCaller i ⟨task, .received value⟩ s.shared).valueOf n =
          if i = n then some value else s.valueOf n := by
        rw [valueOf, callers_putCaller here]
        split <;> rfl
      constructor
      · rw [List.map_append]
        refine List.nodup_append.mpr ⟨received.once, List.nodup_singleton i, ?_⟩
        intro n old m new same
        cases List.mem_singleton.mp new
        subst same
        obtain ⟨⟨_, earlier⟩, member, rfl⟩ := List.mem_map.mp old
        cases before.symm.trans ((received.holds _ _).mp member)
      · intro n v
        rw [List.mem_append, List.mem_singleton, received.holds, after]
        by_cases same : i = n
        · subst same
          simp [before, eq_comm]
        · simp [same, Ne.symm same]
  | notify i k task here blocked =>
      refine received.unchanged fun n => ?_
      exact valueOf_putCaller here (Caller.value_afterNotify task) s.shared n
  | notifyNone i task here awake =>
      refine received.unchanged fun n => ?_
      exact valueOf_putCaller here (Caller.value_afterNotify task) s.shared n
  | lock | pass | wait | block | exit | take | underflow | finish | fail | spurious | stop
  | notifyAll | join | destroyed => exact received.unchanged fun n => rfl

/-! ## Faults -/

/-- Tasks return, and are enqueued before the destruction starts. -/
def Returning (s : ThreadPool α) (e : Event α) : Prop :=
  BeforeDestruction s e ∧ ∀ task, e = .call task → task.returns = true

def AllReturn (s : ThreadPool α) : Prop := ∀ n task, s.taskOf n = some task → task.returns = true

theorem allReturn_step {s t : ThreadPool α} {e : Event α} (all : AllReturn s)
    (returning : Returning s e) (moves : Moves s e t) : AllReturn t := by
  intro n task is
  obtain same | ⟨_, task', called, is'⟩ := taskOf_step moves n
  · exact all n task (same ▸ is)
  · cases is'.symm.trans is
    exact returning.2 task called

/-- While the tasks return nothing brings the process down. -/
theorem up_step {s t : ThreadPool α} {log : List Mark} {e : Event α} (up : s.shared.down = none)
    (all : AllReturn s) (locked : Locked s) (tracked : Tracked s log) (own : OwnTasks s)
    (kept : Kept s log) (moves : Moves s e t) : t.shared.down = none := by
  cases moves with
  | underflow i here idle empty =>
      obtain ⟨_, stopped | filled⟩ := locked.workers i _ here
      · cases idle.symm.trans stopped
      · exact absurd empty filled
  | fail i job f here ran =>
      obtain ⟨inPool, runs⟩ := mem_running here
      have unset : s.shared.promises job.caller = none := by
        cases set : s.shared.promises job.caller with
        | none => rfl
        | some value => exact absurd (kept.sound _ _ set).1 (tracked.unfinished runs)
      obtain ⟨promises, returned⟩ := Job.run_of_returns (all _ _ (own job inPool)) unset
      cases returned.symm.trans ran
  | call | lock | pass | wait | block | exit | take | finish | spurious | acquire | push | get
  | notify | notifyNone | stop | notifyAll | join | destroyed => exact up

/-! ## Nobody is left waiting -/

/-- For a task in the queue some worker is up, or is about to be woken. -/
def Attended (s : ThreadPool α) : Prop :=
  s.shared.tasks ≠ [] →
    (∃ (i : Nat) (task : Task α), s.callers[i]? = some ⟨task, .notifying⟩) ∨
      ∃ (i : Nat) (w : Worker α), s.workers[i]? = some w ∧ w.isBlocked = false ∧ w ≠ .exited

theorem attended_create (numThreads : Nat) : Attended (create numThreads : ThreadPool α) :=
  fun queued => absurd rfl queued

theorem Attended.putWorker {s : ThreadPool α} {i : Nat} {w w' : Worker α} {shared : Shared α}
    (here : s.workers[i]? = some w) (awake : w'.isBlocked = false) (going : w' ≠ .exited) :
    Attended (s.putWorker i w' shared) := by
  intro queued
  obtain ⟨below, _⟩ := List.getElem?_eq_some_iff.mp here
  exact .inr ⟨i, w', List.getElem?_set_self below, awake, going⟩

theorem Attended.putCaller {s : ThreadPool α} (attended : Attended s) {i : Nat} {task : Task α}
    {stage : CallerStage α} (here : s.callers[i]? = some ⟨task, stage⟩)
    (elsewhere : stage ≠ .notifying) {c : Caller α} {shared : Shared α}
    (tasks : shared.tasks = s.shared.tasks) : Attended (s.putCaller i c shared) := by
  intro queued
  obtain ⟨j, task', there⟩ | awake := attended (tasks ▸ queued)
  · refine .inl ⟨j, task', ?_⟩
    rw [callers_putCaller here, if_neg]
    · exact there
    · intro same
      subst same
      cases here.symm.trans there
      exact elsewhere rfl
  · exact .inr awake

theorem attended_step {s t : ThreadPool α} {e : Event α} (attended : Attended s)
    (locked : Locked s) (drained : Drained s) (staffed : s.workers ≠ []) (moves : Moves s e t) :
    Attended t := by
  cases moves with
  | call task =>
      intro queued
      obtain ⟨j, task', there⟩ | awake := attended queued
      · obtain ⟨below, _⟩ := List.getElem?_eq_some_iff.mp there
        exact .inl ⟨j, task', (List.getElem?_append_left below).trans there⟩
      · exact .inr awake
  | lock i w here asks free => exact Attended.putWorker here rfl nofun
  | pass i here ready => exact Attended.putWorker here rfl nofun
  | wait i here idle empty => exact Attended.putWorker here rfl nofun
  | block i here => exact fun queued => absurd (locked.workers i _ here).2 queued
  | exit i here stopped empty => exact fun queued => absurd empty queued
  | take i job rest here queued => exact Attended.putWorker here rfl nofun
  | underflow i here idle empty => exact Attended.putWorker here rfl nofun
  | finish i job promises here ran => exact Attended.putWorker here rfl nofun
  | fail i job f here ran => exact Attended.putWorker here rfl nofun
  | spurious i here => exact Attended.putWorker here rfl nofun
  | acquire i task here free => exact attended.putCaller here nofun rfl
  | push i task here =>
      intro queued
      exact .inl ⟨i, task, by rw [callers_putCaller here, if_pos rfl]⟩
  | get i task value here set => exact attended.putCaller here nofun rfl
  | notify i k task here blocked =>
      exact Attended.putWorker (s := s.putCaller i _ s.shared) blocked rfl nofun
  | notifyNone i task here awake =>
      intro queued
      obtain ⟨w, member⟩ := List.exists_mem_of_ne_nil _ staffed
      obtain ⟨j, there⟩ := List.mem_iff_getElem?.mp member
      refine .inr ⟨j, w, there, awake w member, fun exited => ?_⟩
      exact queued (drained.through j w there exited).2
  | notifyAll notifying =>
      intro queued
      obtain told | ⟨j, w, there, awake, going⟩ := attended queued
      · exact .inl told
      · refine .inr ⟨j, w, ?_, awake, going⟩
        rw [List.getElem?_map, there, Option.map_some, Worker.notified, if_neg (by simp [awake])]
  | stop | join | destroyed => exact attended

/-- What holds of a pool at any moment, whatever its tasks do. -/
structure Sound (s : ThreadPool α) (log : List Mark) : Prop where
  tracked : Tracked s log
  own : OwnTasks s
  kept : Kept s log
  fitting : AllFitting s

theorem sound_create (numThreads : Nat) : Sound (create numThreads : ThreadPool α) [] where
  tracked := tracked_create numThreads
  own := ownTasks_create numThreads
  kept := kept_create numThreads
  fitting := allFitting_create numThreads

theorem sound_step {s t : ThreadPool α} {log : List Mark} {e : Event α} (sound : Sound s log)
    (moves : Moves s e t) : Sound t (log ++ marks s e) where
  tracked := tracked_step sound.tracked moves
  own := ownTasks_step sound.own moves
  kept := kept_step sound.kept sound.tracked sound.own moves
  fitting := allFitting_step sound.fitting sound.kept moves

theorem sound_of_run {numThreads : Nat} {events : List (Event α)} {s : ThreadPool α}
    (run : Trace (Takes next) (create numThreads) events s) : ∃ log, Sound s log := by
  have preserves : ∀ (s : ThreadPool α) log e t, Sound s log → Takes next s e t →
      Sound t (log ++ marks s e) := by
    intro s log e t sound taken
    exact sound_step sound (moves_of_next taken).2
  obtain ⟨log, _, sound⟩ := run.exists_record preserves (sound_create numThreads)
  exact ⟨log, sound⟩

theorem Sound.outcome {s : ThreadPool α} {log : List Mark} (sound : Sound s log) {n : Nat}
    {value : α} (has : s.valueOf n = some value) : s.taskOf n = some (.promised (.ok value)) := by
  obtain ⟨⟨task, stage⟩, here, given⟩ := Option.bind_eq_some_iff.mp has
  have fits := sound.fitting n _ here
  cases stage with
  | received result =>
      cases given
      cases fits
      rw [taskOf, here, Option.map_some]
  | locking | pushing | notifying | awaiting | returned => cases given

/-- What holds besides while the tasks return. -/
structure Healthy (s : ThreadPool α) (log : List Mark) : Prop extends Sound s log where
  drained : Drained s
  locked : Locked s
  owned : Owned s
  attended : Attended s
  all : AllReturn s
  up : s.shared.down = none
  staffed : s.workers ≠ []

theorem healthy_create {numThreads : Nat} (staffed : 1 ≤ numThreads) :
    Healthy (create numThreads : ThreadPool α) [] where
  toSound := sound_create numThreads
  drained := drained_create numThreads
  locked := locked_create numThreads
  owned := owned_create numThreads
  attended := attended_create numThreads
  all := nofun
  up := rfl
  staffed := by
    intro idle
    have length : (create numThreads : ThreadPool α).workers.length = numThreads :=
      List.length_replicate
    rw [idle] at length
    exact absurd staffed (by simp [← length])

theorem healthy_step {s t : ThreadPool α} {log : List Mark} {e : Event α}
    (healthy : Healthy s log) (returning : Returning s e) (moves : Moves s e t) :
    Healthy t (log ++ marks s e) where
  toSound := sound_step healthy.toSound moves
  drained := drained_step healthy.drained returning.1 moves
  locked := locked_step healthy.locked moves
  owned := owned_step healthy.owned moves
  attended := attended_step healthy.attended healthy.locked healthy.drained healthy.staffed moves
  all := allReturn_step healthy.all returning moves
  up := up_step healthy.up healthy.all healthy.locked healthy.tracked healthy.own healthy.kept moves
  staffed := by
    intro idle
    have same := length_workers_step moves
    rw [idle] at same
    exact healthy.staffed (List.eq_nil_of_length_eq_zero same.symm)

/-- A task in the pool is on its way. -/
theorem Healthy.canMove_of_job {s : ThreadPool α} {log : List Mark} (healthy : Healthy s log)
    {job : Job α} (member : job ∈ s.jobs) : CanMove s := by
  rcases List.mem_append.mp member with queued | runs
  · obtain ⟨i, task, here⟩ | ⟨i, w, here, awake, going⟩ :=
      healthy.attended (List.ne_nil_of_mem queued)
    · exact canMove_of_notifying healthy.up here
    · exact canMove_of_awake healthy.up healthy.owned here awake going
  · obtain ⟨w, present, has⟩ := List.mem_flatMap.mp runs
    obtain ⟨i, here⟩ := List.mem_iff_getElem?.mp present
    cases w with
    | running current => exact canMove_of_awake healthy.up healthy.owned here rfl nofun
    | locking | testing | waiting | blocked | woken | deciding | exited => cases has

/-- A caller that waits for its future waits for a task in the pool, or for nothing. -/
theorem Healthy.canMove_of_awaiting {s : ThreadPool α} {log : List Mark}
    (healthy : Healthy s log) {i : Nat} {task : Task α}
    (here : s.callers[i]? = some ⟨task, .awaiting⟩) : CanMove s := by
  have tracked := healthy.tracked
  have is : s.taskOf i = some task := by rw [taskOf, here, Option.map_some]
  have enqueued := (tracked.pushed i).mpr (by rw [hasPushed, here]; rfl)
  rw [tracked.inOrder, List.mem_append, ← tracked.kept.mem_iff, List.mem_append] at enqueued
  obtain (finished | runs) | queued := enqueued
  · obtain ⟨outcome, promised⟩ := healthy.fitting i _ here
    obtain ⟨value, set⟩ := healthy.kept.complete i finished outcome (is.trans (congrArg _ promised))
    refine canMove_caller healthy.up here ?_
    simp [Caller.step, set]
  · obtain ⟨job, member, _⟩ := List.mem_map.mp runs
    exact healthy.canMove_of_job (List.mem_append_right _ member)
  · obtain ⟨job, member, _⟩ := List.mem_map.mp queued
    exact healthy.canMove_of_job (List.mem_append_left _ member)

/-- Where nothing can move no task is left and every caller has been served. -/
theorem Healthy.settled {s : ThreadPool α} {log : List Mark} (healthy : Healthy s log)
    (still : ¬ CanMove s) : s.jobs = [] ∧ ∀ c ∈ s.callers, c.Served := by
  constructor
  · cases pool : s.jobs with
    | nil => rfl
    | cons job rest =>
        exact absurd (healthy.canMove_of_job (pool ▸ List.mem_cons_self)) still
  · intro c member
    obtain ⟨i, here⟩ := List.mem_iff_getElem?.mp member
    have fits := healthy.fitting i c here
    obtain ⟨task, stage⟩ := c
    cases stage with
    | locking => exact absurd (canMove_of_locking healthy.up healthy.owned here) still
    | pushing => exact absurd (canMove_caller healthy.up here rfl) still
    | notifying => exact absurd (canMove_of_notifying healthy.up here) still
    | awaiting => exact absurd (healthy.canMove_of_awaiting here) still
    | returned =>
        obtain ⟨outcome, plain⟩ := fits
        subst plain
        rfl
    | received value =>
        cases fits
        exact ⟨value, rfl, rfl⟩

/-! ## The threads come to rest -/

end ThreadPool

def Worker.work {α : Type} : Worker α → Nat
  | .blocked | .exited => 0
  | .waiting | .deciding => 1
  | .testing => 2
  | .locking | .woken => 3
  | .running _ => 4

/-- A caller's own steps, with those it gives the workers to do. -/
def Caller.work {α : Type} (c : Caller α) : Nat :=
  match c.stage with
  | .locking => 11
  | .pushing => 10
  | .notifying => 5
  | .awaiting => 1
  | .returned | .received _ => 0

def Destructor.work (numThreads : Nat) : Destructor → Nat
  | .alive => 4 * numThreads + 3
  | .notifying => 4 * numThreads + 2
  | .joining k => numThreads - k + 1
  | .destroyed => 0

theorem Worker.work_notified_le {α : Type} (w : Worker α) : w.notified.work ≤ w.work + 3 := by
  cases w <;> simp [Worker.notified, Worker.isBlocked, Worker.work]

theorem Caller.work_afterNotify_le {α : Type} (task : Task α) :
    (Caller.afterNotify ⟨task, .notifying⟩).work ≤ 1 := by
  cases task <;> simp [Caller.afterNotify, Caller.work]

namespace ThreadPool
variable {α : Type}

/-- The steps that the pool has left to do. -/
def work (s : ThreadPool α) : Nat :=
  if s.shared.down = none then
    4 * s.shared.tasks.length + (s.workers.map Worker.work).sum +
      (s.callers.map Caller.work).sum + s.destructor.work s.workers.length
  else 0

/-- What comes from outside: a new call, a wake-up for nothing. -/
def Event.gain : Event α → Nat
  | .call _ => 11
  | .spurious _ => 3
  | .worker _ | .caller _ | .notifyOne _ _ | .destructor => 0

def Event.cost : Event α → Nat
  | .call _ | .spurious _ => 0
  | .worker _ | .caller _ | .notifyOne _ _ | .destructor => 1

theorem sum_work_notified_le (workers : List (Worker α)) :
    ((workers.map Worker.notified).map Worker.work).sum ≤
      (workers.map Worker.work).sum + 3 * workers.length := by
  induction workers with
  | nil => simp
  | cons w rest ih =>
      have first := w.work_notified_le
      simp only [List.map_cons, List.sum_cons, List.length_cons]
      omega

theorem work_putWorker {s : ThreadPool α} {i : Nat} {w w' : Worker α} {shared : Shared α}
    (here : s.workers[i]? = some w) (up : s.shared.down = none) (up' : shared.down = none) {n : Nat}
    (less : 4 * shared.tasks.length + w'.work + n ≤ 4 * s.shared.tasks.length + w.work) :
    (s.putWorker i w' shared).work + n ≤ s.work := by
  have moved := sum_set Worker.work here w'
  simp only [work, putWorker, up, up', if_true, List.length_set]
  omega

theorem work_putCaller {s : ThreadPool α} {i : Nat} {c c' : Caller α} {shared : Shared α}
    (here : s.callers[i]? = some c) (up : s.shared.down = none) (up' : shared.down = none) {n : Nat}
    (less : 4 * shared.tasks.length + c'.work + n ≤ 4 * s.shared.tasks.length + c.work) :
    (s.putCaller i c' shared).work + n ≤ s.work := by
  have moved := sum_set Caller.work here c'
  simp only [work, putCaller, up, up', if_true]
  omega

/-- A worker that brings the process down was not done. -/
theorem work_down {s : ThreadPool α} {i : Nat} {w w' : Worker α} {shared : Shared α}
    (here : s.workers[i]? = some w) (up : s.shared.down = none) (busy : 1 ≤ w.work)
    (down : shared.down ≠ none) : (s.putWorker i w' shared).work + 1 ≤ s.work := by
  have idle : (s.putWorker i w' shared).work = 0 := if_neg down
  have left : (s.putWorker i .exited s.shared).work + 1 ≤ s.work :=
    work_putWorker here up up (Nat.add_le_add_left busy (4 * s.shared.tasks.length))
  omega

/-- Every step of a thread leaves one step less to do. -/
theorem work_step {s t : ThreadPool α} {e : Event α} (taken : Takes next s e t) :
    t.work + e.cost ≤ s.work + e.gain := by
  obtain ⟨up, moves⟩ := moves_of_next taken
  cases moves with
  | call task =>
      simp only [work, up, if_true, List.map_append, List.sum_append, List.map_singleton,
        List.sum_singleton, Caller.work, Event.cost, Event.gain]
      omega
  | lock i w here asks free =>
      rcases asks with rfl | rfl
      · exact work_putWorker here up up (Nat.le_refl _)
      · exact work_putWorker here up up (Nat.le_refl _)
  | pass i here ready => exact work_putWorker here up up (Nat.le_refl _)
  | wait i here idle empty => exact work_putWorker here up up (Nat.le_refl _)
  | block i here => exact work_putWorker here up up (Nat.le_refl _)
  | exit i here stopped empty => exact work_putWorker here up up (Nat.le_refl _)
  | take i job rest here queued =>
      refine work_putWorker here up ?_ ?_
      · exact up
      · rw [queued, List.length_cons]
        exact Nat.le_refl _
  | underflow i here idle empty => exact work_down here up (Nat.le_refl _) nofun
  | finish i job promises here ran => exact work_putWorker here up up (Nat.le_refl _)
  | fail i job f here ran => exact work_down here up (Nat.le_of_ble_eq_true rfl) nofun
  | spurious i here =>
      have moved := sum_set Worker.work here .woken
      simp only [work, putWorker, up, if_true, List.length_set, Event.cost, Event.gain,
        Worker.work] at moved ⊢
      omega
  | acquire i task here free => exact work_putCaller here up up (Nat.le_refl _)
  | push i task here =>
      refine work_putCaller here up ?_ ?_
      · exact up
      · rw [List.length_append]
        exact Nat.le_refl _
  | get i task value here set => exact work_putCaller here up up (Nat.le_refl _)
  | notify i k task here blocked =>
      have answered := Caller.work_afterNotify_le task
      have told : ((⟨task, .notifying⟩ : Caller α)).work = 5 := rfl
      have woken := sum_set Worker.work blocked .woken
      have moved := sum_set Caller.work here (Caller.afterNotify ⟨task, .notifying⟩)
      simp only [work, putWorker, putCaller, up, if_true, List.length_set, Worker.work,
        Event.cost, Event.gain] at woken ⊢
      omega
  | notifyNone i task here awake =>
      have answered := Caller.work_afterNotify_le task
      refine work_putCaller here up up ?_
      simp only [Caller.work, Event.cost] at answered ⊢
      omega
  | stop alive =>
      simp only [work, up, if_true, alive, Destructor.work, Event.cost, Event.gain]
      omega
  | notifyAll notifying =>
      have woken := sum_work_notified_le s.workers
      simp only [work, up, if_true, notifying, Destructor.work, Event.cost, Event.gain,
        List.length_map]
      omega
  | join k joining exited =>
      obtain ⟨below, _⟩ := List.getElem?_eq_some_iff.mp exited
      simp only [work, up, if_true, joining, Destructor.work, Event.cost, Event.gain]
      omega
  | destroyed k joining past =>
      simp only [work, up, if_true, joining, Destructor.work, Event.cost, Event.gain]
      omega

/-- The outcomes reach the callers: no fault, one receipt for each value and the
value its task came to, and nobody waiting where nothing can move. -/
structure Delivered (s : ThreadPool α) (record : List (Nat × α)) : Prop where
  up : s.shared.down = none
  once : (record.map Prod.fst).Nodup
  holds : ∀ n value, (n, value) ∈ record ↔ s.valueOf n = some value
  outcome : ∀ n value, (n, value) ∈ record → s.taskOf n = some (.promised (.ok value))
  settled : ¬ CanMove s → s.jobs = [] ∧ ∀ c ∈ s.callers, c.Served

theorem Healthy.delivered {s : ThreadPool α} {log : List Mark} {record : List (Nat × α)}
    (healthy : Healthy s log) (received : Received s record) : Delivered s record where
  up := healthy.up
  once := received.once
  holds := received.holds
  outcome := fun n value member => healthy.outcome ((received.holds n value).mp member)
  settled := healthy.settled

theorem healthy_of_run {numThreads : Nat} (staffed : 1 ≤ numThreads) {events : List (Event α)}
    {s : ThreadPool α} (run : Trace (Takes next) (create numThreads) events s)
    (returning : Stepwise (Takes next) Returning (create numThreads) events) :
    ∃ log, Healthy s log := by
  have preserves : ∀ (s : ThreadPool α) log e t, Healthy s log → Returning s e →
      Takes next s e t → Healthy t (log ++ marks s e) := by
    intro s log e t healthy condition taken
    exact healthy_step healthy condition (moves_of_next taken).2
  obtain ⟨log, _, healthy⟩ := returning.exists_record preserves run (healthy_create staffed)
  exact ⟨log, healthy⟩

/-- The worker that runs a task that throws takes the process down, and nothing
moves after it. -/
theorem down_of_throws {s : ThreadPool α} (up : s.shared.down = none) {i : Nat} {job : Job α}
    (here : s.workers[i]? = some (.running job)) (throws : job.task.returns = false) :
    ∃ t, Takes next s (.worker i) t ∧ t.shared.down ≠ none ∧ ∀ e, t.next e = none := by
  obtain ⟨f, ran⟩ := Job.run_of_throws throws s.shared.promises
  let t : ThreadPool α :=
    s.putWorker i (.running job) { s.shared with down := some f.uncaught }
  have taken : Takes next s (.worker i) t := by
    rw [Takes, next, if_pos up, move, here, Option.bind_some, Worker.step, ran]
    rfl
  have down : t.shared.down ≠ none := Option.some_ne_none _
  exact ⟨t, taken, down, fun e => if_neg down⟩

/-- Without workers no promise is ever set and no caller ever receives anything. -/
structure Unstaffed (s : ThreadPool α) : Prop where
  idle : s.workers = []
  unset : ∀ n, s.shared.promises n = none
  nothing : Received s []

theorem receipts_of_unset {s : ThreadPool α} (unset : ∀ n, s.shared.promises n = none)
    (e : Event α) : receipts s e = [] := by
  cases e with
  | caller i =>
      simp only [receipts]
      split
      · rw [unset i]
        rfl
      · rfl
  | call | worker | spurious | notifyOne | destructor => rfl

theorem unstaffed_step {s t : ThreadPool α} {e : Event α} (unstaffed : Unstaffed s)
    (moves : Moves s e t) : Unstaffed t where
  idle := by
    have same := length_workers_step moves
    rw [unstaffed.idle] at same
    exact List.eq_nil_of_length_eq_zero same
  unset := by
    obtain ⟨_, same⟩ | ⟨i, job, here, _⟩ := finished_step moves
    · rw [same]
      exact unstaffed.unset
    · rw [unstaffed.idle] at here
      cases here
  nothing := by
    have received := received_step unstaffed.nothing moves
    rwa [receipts_of_unset unstaffed.unset] at received

theorem nothing_without_workers {events : List (Event α)} {s : ThreadPool α}
    (run : Trace (Takes next) (create 0) events s) (n : Nat) : s.valueOf n = none := by
  have unstaffed : Unstaffed s := by
    refine run.invariant ?_ ⟨rfl, fun _ => rfl, received_create 0⟩
    intro s e t unstaffed taken
    exact unstaffed_step unstaffed (moves_of_next taken).2
  cases has : s.valueOf n with
  | none => rfl
  | some value => cases (unstaffed.nothing.holds n value).mpr has

/-- In every run whose tasks return the outcomes are delivered, and the threads come
to rest but for new calls and idle wake-ups; a task that throws ends the process, and
without workers nobody receives anything. -/
theorem outcomes_delivered {numThreads : Nat} {events : List (Event α)} {s : ThreadPool α}
    (run : Trace (Takes next) (create numThreads) events s) :
    (1 ≤ numThreads → Stepwise (Takes next) Returning (create numThreads) events →
      ∃ record, Trace (Recording (Takes next) receipts) (create numThreads, []) events (s, record) ∧
        Delivered s record ∧
        ∀ later t, Trace (Takes next) s later t →
          (later.map Event.cost).sum ≤ s.work + (later.map Event.gain).sum) ∧
    (s.shared.down = none → ∀ i job, s.workers[i]? = some (.running job) →
      job.task.returns = false →
        ∃ t, Takes next s (.worker i) t ∧ t.shared.down ≠ none ∧ ∀ e, t.next e = none) ∧
    (numThreads = 0 → ∀ n, s.valueOf n = none) := by
  refine ⟨?_, ?_, ?_⟩
  · intro staffed returning
    obtain ⟨log, healthy⟩ := healthy_of_run staffed run returning
    have preserves : ∀ (s : ThreadPool α) record e t, Received s record → Takes next s e t →
        Received t (record ++ receipts s e) := by
      intro s record e t received taken
      exact received_step received (moves_of_next taken).2
    obtain ⟨record, recorded, received⟩ :=
      run.exists_record preserves (received_create numThreads)
    refine ⟨record, recorded, healthy.delivered received, fun later t trace => ?_⟩
    have spent : t.work + (later.map Event.cost).sum ≤ s.work + (later.map Event.gain).sum :=
      trace.spent fun _ _ _ taken => work_step taken
    exact (Nat.le_add_left _ _).trans spent
  · intro up i job here throws
    exact down_of_throws up here throws
  · intro unstaffed
    subst unstaffed
    exact nothing_without_workers run

/-- The order operations take `executeAsyncTask` for a function of the outcome. The
pool does what it says: its value is the only one a caller gets, its fault is the
one the process goes down with. -/
theorem executeAsyncTask_refined {numThreads : Nat} {events : List (Event α)} {s : ThreadPool α}
    (run : Trace (Takes next) (create numThreads) events s) :
    (∀ n outcome value, s.taskOf n = some (.promised outcome) → s.valueOf n = some value →
      executeAsyncTask outcome = .ok value) ∧
    (s.shared.down = none → ∀ i job outcome f, s.workers[i]? = some (.running job) →
      job.task = .promised outcome → executeAsyncTask outcome = .error f →
        ∃ t, Takes next s (.worker i) t ∧ t.shared.down = some f) := by
  obtain ⟨log, sound⟩ := sound_of_run run
  constructor
  · intro n outcome value is has
    cases is.symm.trans (sound.outcome has)
    rfl
  · intro up i job outcome f here is fault
    cases outcome with
    | ok value => cases fault
    | error g =>
        cases fault
        have ran : job.run s.shared.promises = .error g := by
          rw [Job.run, is]
          rfl
        refine ⟨s.putWorker i (.running job) { s.shared with down := some g.uncaught }, ?_, rfl⟩
        rw [Takes, next, if_pos up, move, here, Option.bind_some, Worker.step, ran]
        rfl

/-- Two tasks of `executeAsyncTask` with one worker, up to both values. -/
def bothReturn : List (Event Bool) :=
  [.call (.promised (.ok true)), .call (.promised (.ok false)), .caller 0, .caller 0,
    .notifyOne 0 none, .caller 1, .caller 1, .worker 0, .worker 0, .worker 0, .notifyOne 1 none,
    .worker 0, .caller 0, .worker 0, .worker 0, .worker 0, .worker 0, .caller 1]

theorem both_delivered :
    ∃ s record, Trace (Recording (Takes next) receipts) (create 1, []) bothReturn (s, record) ∧
      Delivered s record ∧ (0, true) ∈ record ∧ (1, false) ∈ record := by
  let values (s : ThreadPool Bool) : Bool :=
    s.valueOf 0 = some true && s.valueOf 1 = some false
  obtain ⟨s, run, shown⟩ : ∃ s, Trace (Takes next) (create 1) bothReturn s ∧ values s = true :=
    exists_trace_of_follow (by decide +kernel)
  simp only [values, Bool.and_eq_true, decide_eq_true_eq] at shown
  have returning : Stepwise (Takes next) Returning (create 1) bothReturn := by
    refine .and (stepwise_of_along (by decide +kernel)) (.of_forall ?_)
    intro e member s task called
    subst called
    simp only [bothReturn, List.mem_cons, Event.call.injEq, reduceCtorEq, or_false,
      List.not_mem_nil] at member
    rcases member with rfl | rfl <;> rfl
  obtain ⟨record, recorded, delivered, _⟩ := (outcomes_delivered run).1 (le_refl 1) returning
  exact ⟨s, record, recorded, delivered, (delivered.holds 0 true).mpr shown.1,
    (delivered.holds 1 false).mpr shown.2⟩

/-- A response without a separator: `substr` throws in the task of `cancelOrder`. -/
def bareScript : List Transfer := [⟨.ok, [bytes "x"]⟩]

/-- The cancellation, and a task behind it. -/
def throwsThenReturns : List (Event Bool) :=
  [.call (.promised (sampleClient.cancelOrderRequest (.ofTable []) scripted (intactContext 64)
      (bytes "A") bareScript).1),
    .call (.promised (.ok true)), .caller 0, .caller 0, .notifyOne 0 none, .caller 1, .caller 1,
    .notifyOne 1 none, .worker 0, .worker 0, .worker 0, .worker 0]

theorem thrown_outcome_lost :
    (sampleClient.cancelOrderRequest (.ofTable []) scripted (intactContext 64) (bytes "A")
      bareScript).1 = .error .outOfRange ∧
    ∃ s, Trace (Takes next) (create 1) throwsThenReturns s ∧
      s.shared.down = some .terminated ∧ s.valueOf 0 = none ∧ s.queued = [1] ∧
      ∀ e, s.next e = none := by
  refine ⟨rfl, ?_⟩
  let lost (s : ThreadPool Bool) : Bool :=
    s.shared.down = some .terminated && s.valueOf 0 = none && s.queued = [1]
  obtain ⟨s, run, shown⟩ : ∃ s, Trace (Takes next) (create 1) throwsThenReturns s ∧
      lost s = true := exists_trace_of_follow (by decide +kernel)
  simp only [lost, Bool.and_eq_true, decide_eq_true_eq] at shown
  obtain ⟨⟨down, unserved⟩, queued⟩ := shown
  exact ⟨s, run, down, unserved, queued, fun e => if_neg (by simp [down])⟩

end ThreadPool
end DeribitTrading
