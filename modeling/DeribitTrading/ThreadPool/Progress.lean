import DeribitTrading.ThreadPool.System

/-!
What can move. Whoever owns `queueMutex` is at a point where it goes on, so a pool
in which nothing moves has no owner, and then every thread that is not asleep or
through would have moved.
-/
namespace DeribitTrading
open Runs Interleaving

/-- The worker is between taking and releasing the mutex. -/
def Worker.inside {α : Type} : Worker α → Bool
  | .testing | .waiting | .deciding => true
  | .locking | .blocked | .woken | .running _ | .exited => false

namespace ThreadPool
variable {α : Type}

/-- The owner is a thread of the pool, at a point inside. -/
def Inside (s : ThreadPool α) : Owner → Prop
  | .worker i => ∃ w, s.workers[i]? = some w ∧ w.inside = true
  | .caller i => ∃ task, s.callers[i]? = some ⟨task, .pushing⟩

def Owned (s : ThreadPool α) : Prop := ∀ owner, s.shared.queueMutex = some owner → Inside s owner

theorem owned_create (numThreads : Nat) : Owned (create numThreads : ThreadPool α) := by
  intro owner held
  cases held

/-- Another thread's step leaves the owner inside. -/
theorem Inside.putWorker {s : ThreadPool α} {owner : Owner} (inside : Inside s owner) {i : Nat}
    {w w' : Worker α} (here : s.workers[i]? = some w) (kept : w.inside = true → w'.inside = true)
    (shared : Shared α) : Inside (s.putWorker i w' shared) owner := by
  cases owner with
  | worker j =>
      obtain ⟨v, there, isInside⟩ := inside
      by_cases same : i = j
      · subst same
        cases here.symm.trans there
        obtain ⟨below, _⟩ := List.getElem?_eq_some_iff.mp here
        exact ⟨w', List.getElem?_set_self below, kept isInside⟩
      · exact ⟨v, (List.getElem?_set_ne same).trans there, isInside⟩
  | caller j => exact inside

theorem Inside.putCaller {s : ThreadPool α} {owner : Owner} (inside : Inside s owner) {i : Nat}
    {task : Task α} {stage : CallerStage α} (here : s.callers[i]? = some ⟨task, stage⟩)
    (outside : stage ≠ .pushing) (c : Caller α) (shared : Shared α) :
    Inside (s.putCaller i c shared) owner := by
  cases owner with
  | worker j => exact inside
  | caller j =>
      obtain ⟨task', there⟩ := inside
      have different : i ≠ j := by
        intro same
        subst same
        cases here.symm.trans there
        exact outside rfl
      exact ⟨task', (List.getElem?_set_ne different).trans there⟩

theorem owned_step {s t : ThreadPool α} {e : Event α} (owned : Owned s)
    (moves : Moves s e t) : Owned t := by
  intro owner held
  cases moves with
  | call task =>
      have inside := owned owner held
      cases owner with
      | worker j => exact inside
      | caller j =>
          obtain ⟨task', there⟩ := inside
          obtain ⟨below, _⟩ := List.getElem?_eq_some_iff.mp there
          exact ⟨task', (List.getElem?_append_left below).trans there⟩
  | lock i w here asks free =>
      cases held
      obtain ⟨below, _⟩ := List.getElem?_eq_some_iff.mp here
      exact ⟨.testing, List.getElem?_set_self below, rfl⟩
  | pass i here ready => exact (owned owner held).putWorker here (fun _ => rfl) _
  | wait i here idle empty => exact (owned owner held).putWorker here (fun _ => rfl) _
  | block i here => cases held
  | exit i here stopped empty => cases held
  | take i job rest here queued => cases held
  | underflow i here idle empty => exact (owned owner held).putWorker here (fun _ => rfl) _
  | finish i job promises here ran => exact (owned owner held).putWorker here nofun _
  | fail i job f here ran => exact (owned owner held).putWorker here nofun _
  | spurious i here => exact (owned owner held).putWorker here nofun _
  | acquire i task here free =>
      cases held
      obtain ⟨below, _⟩ := List.getElem?_eq_some_iff.mp here
      exact ⟨task, List.getElem?_set_self below⟩
  | push i task here => cases held
  | get i task value here set => exact (owned owner held).putCaller here nofun _ _
  | notify i k task here blocked =>
      exact ((owned owner held).putCaller here nofun _ s.shared).putWorker blocked nofun _
  | notifyNone i task here awake => exact (owned owner held).putCaller here nofun _ _
  | stop alive => exact owned owner held
  | notifyAll notifying =>
      have inside := owned owner held
      cases owner with
      | worker j =>
          obtain ⟨w, there, isInside⟩ := inside
          refine ⟨w.notified, ?_, ?_⟩
          · rw [List.getElem?_map, there]
            rfl
          · cases w <;> exact isInside
      | caller j => exact inside
  | join k joining exited => exact owned owner held
  | destroyed k joining past => exact owned owner held

/-- Some thread of the pool or some caller can take a step of its own. -/
def CanMove (s : ThreadPool α) : Prop :=
  (∃ i t, s.next (.worker i) = some t) ∨ (∃ i t, s.next (.caller i) = some t) ∨
    ∃ i chosen t, s.next (.notifyOne i chosen) = some t

theorem canMove_worker {s : ThreadPool α} (up : s.shared.down = none) {i : Nat} {w : Worker α}
    (here : s.workers[i]? = some w) (able : (w.step i s.shared).isSome) : CanMove s := by
  obtain ⟨moved, stepped⟩ := Option.isSome_iff_exists.mp able
  refine .inl ⟨i, s.putWorker i moved.1 moved.2, ?_⟩
  rw [next, if_pos up, move, here, Option.bind_some, stepped]
  rfl

theorem canMove_caller {s : ThreadPool α} (up : s.shared.down = none) {i : Nat} {c : Caller α}
    (here : s.callers[i]? = some c) (able : (c.step i s.shared).isSome) : CanMove s := by
  obtain ⟨moved, stepped⟩ := Option.isSome_iff_exists.mp able
  refine .inr (.inl ⟨i, s.putCaller i moved.1 moved.2, ?_⟩)
  rw [next, if_pos up, move, here, Option.bind_some, stepped]
  rfl

/-- An owner of the mutex goes on. -/
theorem canMove_of_owner {s : ThreadPool α} (up : s.shared.down = none) (owned : Owned s)
    {owner : Owner} (held : s.shared.queueMutex = some owner) : CanMove s := by
  have inside := owned owner held
  cases owner with
  | worker i =>
      obtain ⟨w, here, isInside⟩ := inside
      refine canMove_worker up here ?_
      cases w with
      | testing | waiting => rfl
      | deciding =>
          simp only [Worker.step]
          split
          · rfl
          · split <;> rfl
      | locking | blocked | woken | running _ | exited => cases isInside
  | caller i =>
      obtain ⟨task, here⟩ := inside
      exact canMove_caller up here rfl

/-- A worker that is neither asleep nor through goes on, or waits for an owner that does. -/
theorem canMove_of_awake {s : ThreadPool α} (up : s.shared.down = none) (owned : Owned s)
    {i : Nat} {w : Worker α} (here : s.workers[i]? = some w) (awake : w.isBlocked = false)
    (going : w ≠ .exited) : CanMove s := by
  cases held : s.shared.queueMutex with
  | some owner => exact canMove_of_owner up owned held
  | none =>
      refine canMove_worker up here ?_
      cases w with
      | locking | woken => simp [Worker.step, held]
      | testing | waiting => rfl
      | blocked => cases awake
      | deciding =>
          simp only [Worker.step]
          split
          · rfl
          · split <;> rfl
      | running job =>
          simp only [Worker.step]
          split <;> rfl
      | exited => exact absurd rfl going

theorem canMove_of_locking {s : ThreadPool α} (up : s.shared.down = none) (owned : Owned s)
    {i : Nat} {task : Task α} (here : s.callers[i]? = some ⟨task, .locking⟩) : CanMove s := by
  cases held : s.shared.queueMutex with
  | some owner => exact canMove_of_owner up owned held
  | none =>
      refine canMove_caller up here ?_
      simp [Caller.step, held]

/-- `notify_one` never waits: it wakes a blocked worker, or there is none. -/
theorem canMove_of_notifying {s : ThreadPool α} (up : s.shared.down = none) {i : Nat}
    {task : Task α} (here : s.callers[i]? = some ⟨task, .notifying⟩) : CanMove s := by
  by_cases asleep : ∃ k : Nat, s.workers[k]? = some Worker.blocked
  · obtain ⟨k, blocked⟩ := asleep
    refine .inr (.inr ⟨i, some k, ?_⟩)
    simp [next, up, move, notifyOne, here, blocked]
  · refine .inr (.inr ⟨i, none, ?_⟩)
    simp only [next, up, move, notifyOne, here, if_true]
    rw [if_neg]
    · exact ⟨_, rfl⟩
    intro found
    obtain ⟨w, member, blocked⟩ := List.any_eq_true.mp found
    obtain ⟨k, there⟩ := List.mem_iff_getElem?.mp member
    cases w <;> first | exact asleep ⟨k, there⟩ | cases blocked

end ThreadPool
end DeribitTrading
