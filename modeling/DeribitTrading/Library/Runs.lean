import Mathlib.Algebra.GroupWithZero.Nat
import Mathlib.Data.List.Basic

/-!
Finite runs of a labelled transition relation. A property of every run is
proved from one lemma about a single step and one of the rules of this file;
the relation, its states and its events stay arbitrary.
-/
namespace Runs

variable {σ ε : Type*} {step : σ → ε → σ → Prop}

/-- The events, taken in this order, lead from the first state to the last. -/
inductive Trace (step : σ → ε → σ → Prop) : σ → List ε → σ → Prop
  | nil (s : σ) : Trace step s [] s
  | cons {s m t : σ} {e : ε} {events : List ε} :
      step s e m → Trace step m events t → Trace step s (e :: events) t

theorem Trace.append {s m t : σ} {first rest : List ε}
    (before : Trace step s first m) (after : Trace step m rest t) :
    Trace step s (first ++ rest) t := by
  induction before with
  | nil s => exact after
  | cons head tail ih => exact .cons head (ih after)

theorem Trace.single {s t : σ} {e : ε} (taken : step s e t) : Trace step s [e] t :=
  .cons taken (.nil t)

theorem Trace.snoc {s m t : σ} {events : List ε} {e : ε}
    (trace : Trace step s events m) (taken : step m e t) :
    Trace step s (events ++ [e]) t := trace.append (.single taken)

theorem Trace.split {s t : σ} {first rest : List ε} (trace : Trace step s (first ++ rest) t) :
    ∃ m, Trace step s first m ∧ Trace step m rest t := by
  induction first generalizing s with
  | nil => exact ⟨s, .nil s, trace⟩
  | cons e first ih =>
      cases trace with
      | cons head tail =>
          obtain ⟨m, before, after⟩ := ih tail
          exact ⟨m, .cons head before, after⟩

/-- The one induction behind every safety result: an invariant kept by each step
is kept by each run. -/
theorem Trace.invariant {Inv : σ → Prop}
    (preserves : ∀ s e t, Inv s → step s e t → Inv t)
    {s t : σ} {events : List ε} (trace : Trace step s events t) (start : Inv s) : Inv t := by
  induction trace with
  | nil s => exact start
  | cons head tail ih => exact ih (preserves _ _ _ start head)

/-- What a run brings about, one of its steps does. -/
theorem Trace.arises {P : σ → Prop} {s t : σ} {events : List ε} (trace : Trace step s events t)
    (start : ¬ P s) (last : P t) :
    ∃ before e after m m', events = before ++ e :: after ∧ Trace step s before m ∧ ¬ P m ∧
      step m e m' ∧ P m' ∧ Trace step m' after t := by
  induction trace with
  | nil s => exact absurd last start
  | @cons s m t e events head tail ih =>
      by_cases there : P m
      · exact ⟨[], e, events, s, m, rfl, .nil s, start, head, there, tail⟩
      · obtain ⟨before, e', after, n, n', same, prior, fresh, taken, now, later⟩ := ih there last
        exact ⟨e :: before, e', after, n, n', by rw [same]; rfl, .cons head prior, fresh, taken,
          now, later⟩

/-- What the run from an event on brings about, and the event itself does not, one
of the later steps does. -/
theorem Trace.arises_after {P : σ → Prop} {s t : σ} {first during : List ε} {e : ε}
    (trace : Trace step s (first ++ e :: during) t) (starts : ∀ m m', step m e m' → ¬ P m')
    (last : P t) :
    ∃ before e' after m m', during = before ++ e' :: after ∧
      Trace step s (first ++ e :: before) m ∧ ¬ P m ∧ step m e' m' ∧ P m' := by
  obtain ⟨m, early, late⟩ := trace.split
  cases late with
  | @cons _ next _ _ _ taken later =>
      obtain ⟨before, e', after, a, b, same, prior, fresh, taken', now, _⟩ :=
        later.arises (starts m next taken) last
      exact ⟨before, e', after, a, b, same, early.append (.cons taken prior), fresh, taken', now⟩

/-- A quantity that one step raises by at most its event's weight is bounded
along a run by the sum of the weights. -/
theorem Trace.bounded {measure : σ → ℕ} {weight : ε → ℕ}
    (grows : ∀ s e t, step s e t → measure t ≤ measure s + weight e)
    {s t : σ} {events : List ε} (trace : Trace step s events t) :
    measure t ≤ measure s + (events.map weight).sum := by
  induction trace with
  | nil s => simp
  | cons head tail ih =>
      have first := grows _ _ _ head
      simp only [List.map_cons, List.sum_cons]
      omega

/-- Every step costs something of what the run started with or gained on its way. -/
theorem Trace.spent {m : σ → ℕ} {gain cost : ε → ℕ}
    (pays : ∀ s e t, step s e t → m t + cost e ≤ m s + gain e)
    {s t : σ} {events : List ε} (trace : Trace step s events t) :
    m t + (events.map cost).sum ≤ m s + (events.map gain).sum := by
  induction trace with
  | nil s => simp
  | cons head tail ih =>
      have first := pays _ _ _ head
      simp only [List.map_cons, List.sum_cons]
      omega

/-- What can always take a step that brings it closer can be brought to its end. -/
theorem exists_completion {P D : σ → Prop} {m : σ → ℕ}
    (closer : ∀ s, P s → ¬ D s → ∃ e t, step s e t ∧ P t ∧ m t < m s)
    {s : σ} (start : P s) : ∃ events t, Trace step s events t ∧ D t := by
  induction left : m s using Nat.strongRecOn generalizing s with
  | ind n ih =>
      by_cases ended : D s
      · exact ⟨[], s, .nil s, ended⟩
      · obtain ⟨e, next, taken, kept, less⟩ := closer s start ended
        obtain ⟨events, t, trace, done⟩ := ih _ (left ▸ less) kept rfl
        exact ⟨e :: events, t, .cons taken trace, done⟩

/-- The steps of `step` that also meet a condition on the state they leave. -/
def Guarded (step : σ → ε → σ → Prop) (Cond : σ → ε → Prop) (s : σ) (e : ε) (t : σ) : Prop :=
  Cond s e ∧ step s e t

/-- `P` holds of every state that the run from `s` along `events` visits. -/
def Throughout (step : σ → ε → σ → Prop) (P : σ → Prop) (s : σ) (events : List ε) : Prop :=
  ∀ before after m, events = before ++ after → Trace step s before m → P m

/-- Every step of the run from `s` along `events` is taken under the condition. -/
def Stepwise (step : σ → ε → σ → Prop) (Cond : σ → ε → Prop) (s : σ) (events : List ε) : Prop :=
  ∀ before e after m, events = before ++ e :: after → Trace step s before m → Cond m e

theorem Stepwise.tail {Cond : σ → ε → Prop} {s m : σ} {e : ε} {events : List ε}
    (all : Stepwise step Cond s (e :: events)) (taken : step s e m) :
    Stepwise step Cond m events := by
  intro before e' after n same trace
  exact all (e :: before) e' after n (by rw [same, List.cons_append]) (.cons taken trace)

theorem Stepwise.nil {Cond : σ → ε → Prop} {s : σ} : Stepwise step Cond s [] := by
  intro before e after m same _
  simp at same

theorem Stepwise.cons {Cond : σ → ε → Prop} {s : σ} {e : ε} {events : List ε} (here : Cond s e)
    (later : ∀ m, step s e m → Stepwise step Cond m events) :
    Stepwise step Cond s (e :: events) := by
  intro before e' after m same trace
  cases trace with
  | nil s =>
      cases same
      exact here
  | cons head tail =>
      cases same
      exact later _ head _ e' after m rfl tail

theorem Stepwise.of_forall {Cond : σ → ε → Prop} {s : σ} {events : List ε}
    (all : ∀ e ∈ events, ∀ s, Cond s e) : Stepwise step Cond s events := by
  intro before e after m same trace
  exact all e (by rw [same]; simp) m

theorem Trace.guarded {Cond : σ → ε → Prop} {s t : σ} {events : List ε}
    (trace : Trace step s events t) (all : Stepwise step Cond s events) :
    Trace (Guarded step Cond) s events t := by
  induction trace with
  | nil s => exact .nil s
  | @cons s m t e events head tail ih =>
      exact .cons ⟨all [] e events s rfl (.nil s), head⟩ (ih (all.tail head))

theorem Trace.unique (functional : ∀ s e t t', step s e t → step s e t' → t = t')
    {s t t' : σ} {events : List ε} (trace : Trace step s events t)
    (other : Trace step s events t') : t = t' := by
  induction trace with
  | nil s => cases other; rfl
  | cons head tail ih =>
      cases other with
      | cons head' tail' =>
          cases functional _ _ _ _ head head'
          exact ih tail'

theorem Stepwise.initial {Cond : σ → ε → Prop} {s : σ} {first rest : List ε}
    (all : Stepwise step Cond s (first ++ rest)) : Stepwise step Cond s first := by
  intro before e after m same trace
  exact all before e (after ++ rest) m (by rw [same, List.append_assoc, List.cons_append]) trace

/-- The condition under which each step keeps the invariant, met by every step. -/
theorem Stepwise.throughout {Inv : σ → Prop} {Cond : σ → ε → Prop}
    (sufficient : ∀ s e t, Inv s → Cond s e → step s e t → Inv t)
    {s : σ} {events : List ε} (all : Stepwise step Cond s events) (start : Inv s) :
    Throughout step Inv s events := by
  intro before after m same trace
  subst same
  refine (trace.guarded all.initial).invariant ?_ start
  intro a e b inv taken
  exact sufficient a e b inv taken.1 taken.2

/-- The relation of a machine that is a function, and refuses what it cannot take. -/
def Takes (next : σ → ε → Option σ) (s : σ) (e : ε) (t : σ) : Prop := next s e = some t

theorem Takes.functional {next : σ → ε → Option σ} (s : σ) (e : ε) (t t' : σ)
    (taken : Takes next s e t) (taken' : Takes next s e t') : t = t' :=
  Option.some.inj (taken.symm.trans taken')

def follow (next : σ → ε → Option σ) : σ → List ε → Option σ
  | s, [] => some s
  | s, e :: events => (next s e).bind fun m => follow next m events

theorem follow_trace {next : σ → ε → Option σ} {s t : σ} {events : List ε}
    (followed : follow next s events = some t) : Trace (Takes next) s events t := by
  induction events generalizing s with
  | nil =>
      cases followed
      exact .nil _
  | cons e events ih =>
      obtain ⟨m, head, tail⟩ := Option.bind_eq_some_iff.mp followed
      exact .cons head (ih tail)

/-- A run found by evaluation, with what is evaluated of its last state. -/
theorem exists_trace_of_follow {next : σ → ε → Option σ} {P : σ → Bool} {s : σ}
    {events : List ε} (shown : (follow next s events).any P = true) :
    ∃ t, Trace (Takes next) s events t ∧ P t = true := by
  obtain ⟨t, followed, holds⟩ := (Option.any_eq_true ..).mp shown
  exact ⟨t, follow_trace followed, holds⟩

/-- Whether every step is taken under the condition, by evaluation. -/
def along (next : σ → ε → Option σ) (P : σ → ε → Bool) : σ → List ε → Bool
  | _, [] => true
  | s, e :: events => P s e && (next s e).all fun m => along next P m events

theorem stepwise_of_along {next : σ → ε → Option σ} {Cond : σ → ε → Prop}
    [∀ s e, Decidable (Cond s e)] {s : σ} {events : List ε}
    (shown : along next (fun s e => decide (Cond s e)) s events = true) :
    Stepwise (Takes next) Cond s events := by
  induction events generalizing s with
  | nil => exact .nil
  | cons e events ih =>
      rw [along, Bool.and_eq_true, decide_eq_true_iff] at shown
      obtain ⟨here, later⟩ := shown
      refine .cons here fun m taken => ih ?_
      exact (Option.all_eq_true ..).mp later m taken

/-- The steps of `step`, with a record that `out` extends kept beside the state. -/
def Recording {ο : Type*} (step : σ → ε → σ → Prop) (out : σ → ε → List ο)
    (s : σ × List ο) (e : ε) (t : σ × List ο) : Prop :=
  step s.1 e t.1 ∧ t.2 = s.2 ++ out s.1 e

theorem Recording.functional {ο : Type*} {out : σ → ε → List ο}
    (functional : ∀ s e t t', step s e t → step s e t' → t = t') (s : σ × List ο) (e : ε)
    (t t' : σ × List ο) (taken : Recording step out s e t) (taken' : Recording step out s e t') :
    t = t' :=
  Prod.ext (functional _ _ _ _ taken.1 taken'.1) (taken.2.trans taken'.2.symm)

theorem Trace.record_eq {ο : Type*} {out : ε → List ο} {s t : σ × List ο} {events : List ε}
    (trace : Trace (Recording step fun _ e => out e) s events t) :
    t.2 = s.2 ++ events.flatMap out := by
  induction trace with
  | nil s => simp
  | cons head tail ih => rw [ih, head.2, List.flatMap_cons, List.append_assoc]

/-- Keeping a record forbids no run. -/
theorem Trace.recorded {ο : Type*} {out : σ → ε → List ο} {s t : σ} {events : List ε}
    (trace : Trace step s events t) (log : List ο) :
    ∃ log', Trace (Recording step out) (s, log) events (t, log') := by
  induction trace generalizing log with
  | nil s => exact ⟨log, .nil _⟩
  | cons head tail ih =>
      obtain ⟨log', later⟩ := ih (log ++ out _ _)
      exact ⟨log', .cons ⟨head, rfl⟩ later⟩

/-- An invariant of the state with its record: each step under the condition keeps
it, with what the step puts on record, and so does each run of such steps. -/
theorem Stepwise.exists_record {ο : Type*} {out : σ → ε → List ο} {Cond : σ → ε → Prop}
    {Inv : σ → List ο → Prop}
    (preserves : ∀ s log e t, Inv s log → Cond s e → step s e t → Inv t (log ++ out s e))
    {s t : σ} {events : List ε} (all : Stepwise step Cond s events)
    (trace : Trace step s events t) {log : List ο} (start : Inv s log) :
    ∃ log', Trace (Recording step out) (s, log) events (t, log') ∧ Inv t log' := by
  induction trace generalizing log with
  | nil s => exact ⟨log, .nil _, start⟩
  | @cons s m t e events head tail ih =>
      have here : Cond s e := all [] e events s rfl (.nil s)
      obtain ⟨log', later, kept⟩ := ih (all.tail head) (preserves _ _ _ _ start here head)
      exact ⟨log', .cons ⟨head, rfl⟩ later, kept⟩

theorem Trace.exists_record {ο : Type*} {out : σ → ε → List ο} {Inv : σ → List ο → Prop}
    (preserves : ∀ s log e t, Inv s log → step s e t → Inv t (log ++ out s e))
    {s t : σ} {events : List ε} (trace : Trace step s events t) {log : List ο}
    (start : Inv s log) :
    ∃ log', Trace (Recording step out) (s, log) events (t, log') ∧ Inv t log' := by
  have free : Stepwise step (fun _ _ => True) s events := .of_forall fun _ _ _ => trivial
  refine free.exists_record ?_ trace start
  intro s log e t inv _ taken
  exact preserves s log e t inv taken

theorem Trace.forget {ο : Type*} {out : σ → ε → List ο} {s t : σ × List ο} {events : List ε}
    (trace : Trace (Recording step out) s events t) : Trace step s.1 events t.1 := by
  induction trace with
  | nil s => exact .nil s.1
  | cons head tail ih => exact .cons head.1 ih

theorem stepwise_recording_iff {ο : Type*} {out : σ → ε → List ο} {Cond : σ → ε → Prop} {s : σ}
    {log : List ο} {events : List ε} :
    Stepwise (Recording step out) (fun r e => Cond r.1 e) (s, log) events ↔
      Stepwise step Cond s events := by
  constructor
  · intro all before e after m same trace
    obtain ⟨log', recorded⟩ : ∃ log', Trace (Recording step out) (s, log) before (m, log') :=
      trace.recorded log
    exact all before e after (m, log') same recorded
  · intro all before e after m same trace
    exact all before e after m.1 same trace.forget

/-- A machine that keeps the record itself. -/
def recordingNext {ο : Type*} (next : σ → ε → Option σ) (out : σ → ε → List ο) (s : σ × List ο)
    (e : ε) : Option (σ × List ο) := (next s.1 e).map fun t => (t, s.2 ++ out s.1 e)

theorem takes_recordingNext {ο : Type*} (next : σ → ε → Option σ) (out : σ → ε → List ο) :
    Takes (recordingNext next out) = Recording (Takes next) out := by
  funext s e t
  obtain ⟨t, log⟩ := t
  ext
  simp only [Takes, recordingNext, Recording, Option.map_eq_some_iff, Prod.mk.injEq]
  constructor
  · intro ⟨t', taken, same, written⟩
    exact ⟨same ▸ taken, written.symm⟩
  · intro ⟨taken, written⟩
    exact ⟨t, taken, rfl, written.symm⟩

theorem Throughout.mono {P Q : σ → Prop} {s : σ} {events : List ε}
    (all : Throughout step P s events) (weaker : ∀ s, P s → Q s) :
    Throughout step Q s events := by
  intro before after m same trace
  exact weaker m (all before after m same trace)

theorem Stepwise.and {A B : σ → ε → Prop} {s : σ} {events : List ε}
    (first : Stepwise step A s events) (second : Stepwise step B s events) :
    Stepwise step (fun s e => A s e ∧ B s e) s events := by
  intro before e after m same trace
  exact ⟨first before e after m same trace, second before e after m same trace⟩

theorem Throughout.taken {P : σ → Prop} {s : σ} {events : List ε}
    (all : Throughout step P s events) : Stepwise step (fun s _ => P s) s events := by
  intro before e after m same trace
  exact all before (e :: after) m same trace

/-- If only steps under the condition keep the invariant, a run that keeps it
throughout takes no other step. What is known of the run's steps may help. -/
theorem Throughout.stepwise {Inv : σ → Prop} {Given Cond : σ → ε → Prop}
    (functional : ∀ s e t t', step s e t → step s e t' → t = t')
    (necessary : ∀ s e t, Given s e → Inv s → step s e t → Inv t → Cond s e)
    {s t : σ} {events : List ε} (trace : Trace step s events t)
    (all : Throughout step Inv s events) (given : Stepwise step Given s events) :
    Stepwise step Cond s events := by
  intro before e after m same prior
  have here : Inv m := all before (e :: after) m same prior
  have helped : Given m e := given before e after m same prior
  rw [same] at trace
  obtain ⟨m', early, late⟩ := trace.split
  cases prior.unique functional early
  cases late with
  | @cons _ n _ _ _ head tail =>
      have next : Inv n :=
        all (before ++ [e]) after n (by rw [same, List.append_assoc]; rfl) (prior.snoc head)
      exact necessary m e n helped here head next

end Runs
