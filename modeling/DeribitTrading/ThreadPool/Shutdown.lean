import DeribitTrading.ThreadPool.Progress

/-!
The destructor sets `stop` without the mutex, so it can fall, with the
notification, between a worker's test and its blocking. That window is all there
is to it: a notification that finds no worker there leaves nobody asleep.
-/
namespace DeribitTrading
open Runs Interleaving

def Worker.isWaiting {α : Type} : Worker α → Bool
  | .waiting => true
  | _ => false

namespace ThreadPool
variable {α : Type}

def PastNotify (s : ThreadPool α) : Prop :=
  (∃ k, s.destructor = .joining k) ∨ s.destructor = .destroyed

/-- Past the notification no worker is blocked without a wake-up under way. -/
def NoneAsleep (s : ThreadPool α) : Prop :=
  PastNotify s → ∀ w ∈ s.workers, w.isBlocked = false

def NotifiesNobodyWaiting (s : ThreadPool α) : Event α → Prop
  | .destructor => s.destructor = .notifying → ∀ w ∈ s.workers, w.isWaiting = false
  | .call _ | .worker _ | .spurious _ | .caller _ | .notifyOne _ _ => True

instance (s : ThreadPool α) (e : Event α) : Decidable (NotifiesNobodyWaiting s e) :=
  match e with
  | .destructor => inferInstanceAs (Decidable (s.destructor = .notifying → _))
  | .call _ | .worker _ | .spurious _ | .caller _ | .notifyOne _ _ => .isTrue trivial

/-- Past the notification no worker is blocked, or about to be. -/
structure Alerted (s : ThreadPool α) : Prop where
  stopped : s.destructor ≠ .alive → s.shared.stop = true
  awake : PastNotify s → Each (fun _ w => w.isBlocked = false ∧ w.isWaiting = false) s.workers

theorem alerted_create (numThreads : Nat) : Alerted (create numThreads : ThreadPool α) where
  stopped := fun destroyed => absurd rfl destroyed
  awake := by
    intro past
    rcases past with ⟨k, joining⟩ | destroyed
    · cases joining
    · cases destroyed

theorem Alerted.putWorker {s : ThreadPool α} (alerted : Alerted s) {i : Nat} {w : Worker α}
    {shared : Shared α} (stop : shared.stop = s.shared.stop)
    (own : PastNotify s → w.isBlocked = false ∧ w.isWaiting = false) :
    Alerted (s.putWorker i w shared) where
  stopped := fun destroyed => stop.trans (alerted.stopped destroyed)
  awake := fun past => (alerted.awake past).set (own past) fun _ _ _ _ kept => kept

theorem alerted_step {s t : ThreadPool α} {e : Event α} (alerted : Alerted s)
    (clear : NotifiesNobodyWaiting s e) (moves : Moves s e t) : Alerted t := by
  cases moves with
  | call task => exact { alerted with }
  | lock i w here asks free => exact alerted.putWorker rfl fun _ => ⟨rfl, rfl⟩
  | pass i here ready => exact alerted.putWorker rfl fun _ => ⟨rfl, rfl⟩
  | wait i here idle empty =>
      refine alerted.putWorker rfl fun past => ?_
      have stopped := alerted.stopped (by
        intro alive
        rcases past with ⟨k, joining⟩ | destroyed
        · cases alive.symm.trans joining
        · cases alive.symm.trans destroyed)
      cases idle.symm.trans stopped
  | block i here =>
      refine alerted.putWorker rfl fun past => ?_
      cases (alerted.awake past i _ here).2
  | exit i here stopped empty => exact alerted.putWorker rfl fun _ => ⟨rfl, rfl⟩
  | take i job rest here queued => exact alerted.putWorker rfl fun _ => ⟨rfl, rfl⟩
  | underflow i here idle empty => exact alerted.putWorker rfl fun _ => ⟨rfl, rfl⟩
  | finish i job promises here ran => exact alerted.putWorker rfl fun _ => ⟨rfl, rfl⟩
  | fail i job f here ran => exact alerted.putWorker rfl fun _ => ⟨rfl, rfl⟩
  | spurious i here => exact alerted.putWorker rfl fun _ => ⟨rfl, rfl⟩
  | acquire i task here free => exact { alerted with }
  | push i task here => exact { alerted with }
  | get i task value here set => exact { alerted with }
  | notify i k task here blocked =>
      exact Alerted.putWorker (s := s.putCaller i _ s.shared) { alerted with } rfl
        fun _ => ⟨rfl, rfl⟩
  | notifyNone i task here awake => exact { alerted with }
  | stop alive =>
      refine ⟨fun _ => rfl, fun past => ?_⟩
      rcases past with ⟨k, joining⟩ | destroyed
      · cases joining
      · cases destroyed
  | notifyAll notifying =>
      refine ⟨fun _ => alerted.stopped (by simp [notifying]), fun _ j w there => ?_⟩
      rw [List.getElem?_map, Option.map_eq_some_iff] at there
      obtain ⟨w, before, rfl⟩ := there
      have notWaiting := clear notifying w (List.mem_of_getElem? before)
      cases w <;> first | exact ⟨rfl, rfl⟩ | cases notWaiting
  | join k joining exited =>
      exact ⟨fun _ => alerted.stopped (by simp [joining]),
        fun _ => alerted.awake (.inl ⟨k, joining⟩)⟩
  | destroyed k joining past =>
      exact ⟨fun _ => alerted.stopped (by simp [joining]),
        fun _ => alerted.awake (.inl ⟨k, joining⟩)⟩

/-- The other way: whoever is in the window when the destructor notifies can go on
to block, and then sleeps past the notification. -/
theorem asleep_of_waiting {s : ThreadPool α} (up : s.shared.down = none)
    (notifying : s.destructor = .notifying) {i : Nat} (here : s.workers[i]? = some .waiting) :
    ∃ t, Trace (Takes next) s [.destructor, .worker i] t ∧ ¬ NoneAsleep t := by
  let m : ThreadPool α :=
    { s with workers := s.workers.map Worker.notified, destructor := .joining 0 }
  have notified : Takes next s .destructor m := by
    rw [Takes, next, if_pos up, move, destroy, notifying]
  have still : m.workers[i]? = some .waiting := by
    rw [List.getElem?_map, here]
    rfl
  have blocks : Takes next m (.worker i)
      (m.putWorker i .blocked { m.shared with queueMutex := none }) := by
    rw [Takes, next, if_pos up, move, still]
    rfl
  refine ⟨_, .cons notified (.single blocks), fun quiet => ?_⟩
  obtain ⟨below, _⟩ := List.getElem?_eq_some_iff.mp still
  have asleep := quiet (.inl ⟨0, rfl⟩) .blocked
    (List.mem_of_getElem? (List.getElem?_set_self below))
  cases asleep

/-- In every run with any number of workers: if the destructor never notifies while
a worker is in the window, nobody is asleep past the notification; and whenever it
does, two more steps may leave one asleep. -/
theorem no_lost_shutdown (numThreads : Nat) {events : List (Event α)} {s : ThreadPool α}
    (run : Trace (Takes next) (create numThreads) events s) :
    (Stepwise (Takes next) NotifiesNobodyWaiting (create numThreads) events →
      Throughout (Takes next) NoneAsleep (create numThreads) events) ∧
    (¬ NotifiesNobodyWaiting s .destructor → s.shared.down = none →
      ∃ i t, Trace (Takes next) (create numThreads) (events ++ [.destructor, .worker i]) t ∧
        ¬ NoneAsleep t) := by
  constructor
  · intro clear
    have alerted : Throughout (Takes next) Alerted (create numThreads) events := by
      refine clear.throughout ?_ (alerted_create numThreads)
      intro s e t inv cond taken
      exact alerted_step inv cond (moves_of_next taken).2
    refine alerted.mono fun s inv past w member => ?_
    obtain ⟨j, there⟩ := List.mem_iff_getElem?.mp member
    exact (inv.awake past j w there).1
  · intro caught up
    simp only [NotifiesNobodyWaiting, Classical.not_imp, not_forall, Bool.not_eq_false] at caught
    obtain ⟨notifying, w, member, waiting⟩ := caught
    obtain ⟨i, there⟩ := List.mem_iff_getElem?.mp member
    have here : s.workers[i]? = some .waiting := by
      cases w <;> first | exact there | cases waiting
    obtain ⟨t, later, asleep⟩ := asleep_of_waiting up notifying here
    exact ⟨i, t, run.append later, asleep⟩

def sleptThenStopped : List (Event Unit) :=
  [.worker 0, .worker 0, .worker 0, .destructor, .destructor, .worker 0, .worker 0, .worker 0,
    .destructor, .destructor]

theorem slept_then_stopped :
    ∃ s, Trace (Takes next) (create 1) sleptThenStopped s ∧ s.destructor = .destroyed ∧
      Throughout (Takes next) NoneAsleep (create 1) sleptThenStopped := by
  obtain ⟨s, run, ended⟩ : ∃ s, Trace (Takes next) (create 1) sleptThenStopped s ∧
      decide (s.destructor = .destroyed) = true := exists_trace_of_follow (by decide +kernel)
  refine ⟨s, run, of_decide_eq_true ended, (no_lost_shutdown 1 run).1 ?_⟩
  exact stepwise_of_along (by decide +kernel)

/-- The same worker, told to stop between its test and its sleep. -/
def stoppedInWindow : List (Event Unit) :=
  [.worker 0, .worker 0, .destructor, .destructor, .worker 0]

/-- The worker sleeps, the destructor waits for it, and neither can move. -/
theorem shutdown_lost :
    ∃ s, Trace (Takes next) (create 1) stoppedInWindow s ∧ ¬ NoneAsleep s ∧
      s.next .destructor = none ∧ s.next (.worker 0) = none ∧ s.callers.length = 0 := by
  let stuck (s : ThreadPool Unit) : Bool :=
    s.destructor = .joining 0 && s.workers.any Worker.isBlocked &&
      (s.next .destructor).isNone && (s.next (.worker 0)).isNone && s.callers.length == 0
  obtain ⟨s, run, shown⟩ : ∃ s, Trace (Takes next) (create 1) stoppedInWindow s ∧
      stuck s = true := exists_trace_of_follow (by decide +kernel)
  simp only [stuck, Bool.and_eq_true, decide_eq_true_eq, Option.isNone_iff_eq_none, beq_iff_eq,
    List.any_eq_true] at shown
  obtain ⟨⟨⟨⟨joining, w, member, blocked⟩, noJoin⟩, noWork⟩, noCaller⟩ := shown
  refine ⟨s, run, ?_, noJoin, noWork, noCaller⟩
  intro quiet
  cases blocked.symm.trans (quiet (.inl ⟨0, joining⟩) w member)

end ThreadPool
end DeribitTrading
