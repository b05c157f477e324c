import DeribitTrading.Server.System

/-!
Connections that have ended: when no thread subscribes or sends for one. A thread
looks for its connection at the head of its loop only, so this is a matter of
where the threads are when it closes, and of what they read and fetch later.
-/
namespace DeribitTrading
open ByteString Runs

/-- No connection that has ended has an entry, under the key it had or the one it has now. -/
def Cleared (s : WebSocketServer) : Prop :=
  ∀ hdl, (s.phase hdl).ended → s.lock hdl ∉ s.subscriptions ∧ some hdl ∉ s.subscriptions

/-- In this event a thread calls `send` for a connection that has ended. -/
def SendsEnded (s : WebSocketServer) : Event → Prop
  | .run tid _ _ => ∃ thread ∈ s.threads[tid]?, thread.stage.sending ∧ (s.phase thread.hdl).ended
  | _ => False

instance (s : WebSocketServer) : (e : Event) → Decidable (SendsEnded s e)
  | .run tid _ _ => inferInstanceAs (Decidable (∃ thread ∈ s.threads[tid]?,
      thread.stage.sending ∧ (s.phase thread.hdl).ended))
  | .opened _ | .message _ _ _ | .closed _ | .destroyed _ => inferInstanceAs (Decidable False)

structure NoActivity (L : Libraries) (events : List Event) : Prop where
  keys : Throughout (Serves L) Cleared .create events
  sends : Stepwise (Serves L) (fun s e => ¬ SendsEnded s e) .create events

/-- The message or the upstream server has what the thread then passes on. -/
def Thread.Brings (L : Libraries) (u : Upstream) (thread : Thread) : Prop :=
  match thread.stage with
  | .start => ∃ symbol, AsksFor L thread.receivedMillis thread.payload symbol
  | .fetch symbol | .refetch symbol => HasBook L u symbol
  | _ => False

instance (L : Libraries) (u : Upstream) : (thread : Thread) → Decidable (thread.Brings L u)
  | ⟨_, payload, receivedMillis, .start⟩ =>
      inferInstanceAs (Decidable (∃ symbol, AsksFor L receivedMillis payload symbol))
  | ⟨_, _, _, .fetch symbol⟩ | ⟨_, _, _, .refetch symbol⟩ =>
      inferInstanceAs (Decidable (HasBook L u symbol))
  | ⟨_, _, _, .send _ _⟩ | ⟨_, _, _, .check _⟩ | ⟨_, _, _, .sleep _⟩ | ⟨_, _, _, .resend _ _⟩
  | ⟨_, _, _, .done⟩ => inferInstanceAs (Decidable False)

/-- No connection closes with a send pending, and its threads bring nothing afterwards. -/
def Restful (L : Libraries) (s : WebSocketServer) : Event → Prop
  | .closed hdl => ∀ thread ∈ s.threads, thread.hdl = hdl → thread.stage.sending = false
  | .run tid u _ => ∀ thread ∈ s.threads[tid]?, (s.phase thread.hdl).ended → ¬ thread.Brings L u
  | _ => True

instance (L : Libraries) (s : WebSocketServer) : (e : Event) → Decidable (Restful L s e)
  | .closed hdl => inferInstanceAs (Decidable (∀ thread ∈ s.threads,
      thread.hdl = hdl → thread.stage.sending = false))
  | .run tid u _ => inferInstanceAs (Decidable (∀ thread ∈ s.threads[tid]?,
      (s.phase thread.hdl).ended → ¬ thread.Brings L u))
  | .opened _ | .message _ _ _ | .destroyed _ => inferInstanceAs (Decidable True)

/-- What restful events keep. -/
structure Idle (s : WebSocketServer) : Prop where
  unkeyed : ∀ hdl, (s.phase hdl).ended → some hdl ∉ s.subscriptions
  unlocked : none ∉ s.subscriptions
  silent : ∀ thread ∈ s.threads, (s.phase thread.hdl).ended → thread.stage.sending = false

theorem Idle.cleared {s : WebSocketServer} (idle : Idle s) : Cleared s := by
  intro hdl ended
  refine ⟨?_, idle.unkeyed hdl ended⟩
  unfold WebSocketServer.lock
  split
  · exact idle.unlocked
  · exact idle.unkeyed hdl ended

theorem Idle.not_sendsEnded {s : WebSocketServer} (idle : Idle s) (e : Event) :
    ¬ SendsEnded s e := by
  cases e with
  | run tid u now =>
      intro ⟨thread, here, sending, ended⟩
      have silent := idle.silent thread (List.mem_of_getElem? here) ended
      rw [silent] at sending
      cases sending
  | _ => exact False.elim

theorem idle_create : Idle .create where
  unkeyed := fun hdl ended => by cases ended
  unlocked := AList.notMem_empty _
  silent := fun thread member => by cases member

theorem Idle.subscribe {s : WebSocketServer} (idle : Idle s) {hdl : Hdl}
    (alive : (s.phase hdl).ended = false) (symbol : Bytes) : Idle (s.subscribe hdl symbol) := by
  have key : s.lock hdl = some hdl := s.lock_of_not_ended alive
  constructor
  · intro other ended member
    obtain same | member := (AList.mem_insert _).mp member
    · cases same.trans key
      exact Bool.false_ne_true (alive.symm.trans ended)
    · exact idle.unkeyed other ended member
  · intro member
    obtain same | member := (AList.mem_insert _).mp member
    · cases same.trans key
    · exact idle.unlocked member
  · exact idle.silent

theorem Idle.open {s : WebSocketServer} (idle : Idle s) (hdl : Hdl) :
    Idle (s.enter hdl .opened) := by
  constructor
  · intro other ended
    obtain ⟨_, ended⟩ | ⟨_, ended⟩ := (s.ended_enter ..).mp ended
    · cases ended
    · exact idle.unkeyed other ended
  · exact idle.unlocked
  · intro thread member ended
    obtain ⟨_, ended⟩ | ⟨_, ended⟩ := (s.ended_enter ..).mp ended
    · cases ended
    · exact idle.silent thread member ended

theorem Idle.close {s : WebSocketServer} (idle : Idle s) {hdl : Hdl}
    (quiet : ∀ thread ∈ s.threads, thread.hdl = hdl → thread.stage.sending = false) :
    Idle ((s.enter hdl .closed).onClose hdl) := by
  have key := s.lock_enter hdl (show Phase.closed ≠ .destroyed by decide)
  constructor
  · intro other ended member
    obtain ⟨different, member⟩ := AList.mem_erase.mp member
    rw [key] at different
    obtain ⟨same, _⟩ | ⟨_, ended⟩ := (s.ended_enter ..).mp ended
    · exact different (congrArg some same)
    · exact idle.unkeyed other ended member
  · intro member
    exact idle.unlocked (AList.mem_erase.mp member).2
  · intro thread member ended
    obtain ⟨same, _⟩ | ⟨_, ended⟩ := (s.ended_enter ..).mp ended
    · exact quiet thread member same
    · exact idle.silent thread member ended

theorem Idle.destroy {s : WebSocketServer} (idle : Idle s) {hdl : Hdl}
    (isClosed : s.phase hdl = .closed) : Idle (s.enter hdl .destroyed) := by
  have before : ∀ other, ((s.enter hdl .destroyed).phase other).ended → (s.phase other).ended := by
    intro other ended
    obtain ⟨rfl, _⟩ | ⟨_, ended⟩ := (s.ended_enter ..).mp ended
    · rw [isClosed]
      rfl
    · exact ended
  exact ⟨fun other ended => idle.unkeyed other (before other ended), idle.unlocked,
    fun thread member ended => idle.silent thread member (before _ ended)⟩

theorem Idle.onMessage {s : WebSocketServer} (idle : Idle s) (hdl : Hdl) (payload : Bytes)
    (receivedMillis : Int64) : Idle (s.onMessage hdl payload receivedMillis) := by
  refine ⟨idle.unkeyed, idle.unlocked, ?_⟩
  intro thread member ended
  obtain old | new := List.mem_append.mp member
  · exact idle.silent thread old ended
  · cases List.mem_singleton.mp new
    rfl

theorem Idle.move {s : WebSocketServer} (idle : Idle s) (tid : Nat) {thread : Thread}
    {stage : Stage} (quiet : (s.phase thread.hdl).ended → stage.sending = false) :
    Idle (s.move tid thread stage) := by
  refine ⟨idle.unkeyed, idle.unlocked, ?_⟩
  intro other member ended
  obtain old | rfl := s.mem_move member
  · exact idle.silent other old ended
  · exact quiet ended

/-- A send is made pending by something brought only. -/
theorem Goes.brings {L : Libraries} {s : WebSocketServer} {u : Upstream} {now : Int64}
    {thread : Thread} {stage stage' : Stage} (goes : Goes L s u now thread stage stage')
    (here : thread.stage = stage) (sending : stage'.sending) : thread.Brings L u := by
  unfold Thread.Brings
  rw [here]
  cases goes with
  | fetched found => exact hasBook_of_firstUpdate found
  | refetched found => exact hasBook_of_periodicUpdate found
  | _ => cases sending

theorem idle_step {L : Libraries} (s : WebSocketServer) (e : Event) (t : WebSocketServer)
    (idle : Idle s) (restful : Restful L s e) (step : Serves L s e t) : Idle t := by
  obtain ⟨_, served⟩ := step.cases
  cases served with
  | @opened hdl fresh =>
      refine (idle.open hdl).subscribe ?_ []
      simp [WebSocketServer.enter, Phase.ended]
  | message isOpen => exact idle.onMessage ..
  | closed isOpen => exact idle.close restful
  | destroyed isClosed => exact idle.destroy isClosed
  | @goes tid u now thread stage here taken =>
      -- the only turns that end in a pending send are the two fetches
      refine idle.move tid fun ended => ?_
      have nothing := restful thread here ended
      exact Bool.eq_false_iff.mpr fun sending => nothing ((turn_eq_goes taken).brings rfl sending)
  | @subscribes tid u now thread symbol here taken =>
      have asked : thread.Brings L u := by
        obtain ⟨start, asked⟩ := turn_eq_subscribes taken
        simp only [Thread.Brings, start]
        exact ⟨symbol, asked⟩
      have alive := Bool.eq_false_iff.mpr fun ended => restful thread here ended asked
      exact (idle.subscribe alive symbol).move tid fun _ => rfl
  | dies here taken => exact ⟨idle.unkeyed, idle.unlocked, idle.silent⟩

theorem noActivity_of_restful {L : Libraries} {events : List Event}
    (restful : Stepwise (Serves L) (Restful L) .create events) : NoActivity L events := by
  have idle : Throughout (Serves L) Idle .create events :=
    restful.throughout idle_step idle_create
  constructor
  · intro before after s same prior
    exact (idle before after s same prior).cleared
  · intro before e after s same prior
    exact (idle before (e :: after) s same prior).not_sendsEnded e

theorem serves_run {L : Libraries} {s : WebSocketServer} {tid : Nat} {thread : Thread}
    {turn : Turn} {u : Upstream} {now : Int64} (up : s.down = none)
    (here : s.threads[tid]? = some thread) (taken : s.turn L u now thread = some turn) :
    Serves L s (.run tid u now) (s.take tid thread turn) := by
  simp [Takes, WebSocketServer.next, up, here, taken]

/-- A thread with a send pending can take its turn at once. -/
theorem sends_next (L : Libraries) {s : WebSocketServer} {tid : Nat} {thread : Thread}
    (up : s.down = none) (here : s.threads[tid]? = some thread) (sending : thread.stage.sending)
    (ended : (s.phase thread.hdl).ended) :
    ∃ e t, Serves L s e t ∧ SendsEnded s e := by
  let u : Upstream := ⟨fun _ => .noHandle, 0⟩
  have turn : ∃ turn, s.turn L u 0 thread = some turn := by
    unfold WebSocketServer.turn
    cases stage : thread.stage with
    | send symbol update => exact ⟨_, rfl⟩
    | resend symbol update => exact ⟨_, rfl⟩
    | _ =>
        rw [stage] at sending
        cases sending
  obtain ⟨turn, taken⟩ := turn
  exact ⟨.run tid u 0, _, serves_run up here taken, thread, here, sending, ended⟩

/-- What is brought is entered or has a send pending. -/
theorem turn_of_brings {L : Libraries} (zlib : L.deflate.Reliable) (s : WebSocketServer)
    {u : Upstream} (now : Int64) {thread : Thread} (brings : thread.Brings L u) :
    (∃ symbol, s.turn L u now thread = some (.subscribes symbol)) ∨
      ∃ stage, stage.sending ∧ s.turn L u now thread = some (.goes stage) := by
  unfold Thread.Brings at brings
  unfold WebSocketServer.turn
  cases stage : thread.stage with
  | start =>
      simp only [stage] at brings
      obtain ⟨symbol, asked⟩ := brings
      rw [(readRequest_eq_some_iff ..).mpr asked]
      exact .inl ⟨symbol, rfl⟩
  | fetch symbol =>
      simp only [stage] at brings
      obtain ⟨update, made⟩ := firstUpdate_of_hasBook zlib brings
      exact .inr ⟨.send symbol update, rfl, by simp only [made, WebSocketServer.fetched]⟩
  | refetch symbol =>
      simp only [stage] at brings
      obtain ⟨update, made⟩ := periodicUpdate_of_hasBook zlib now brings
      exact .inr ⟨.resend symbol update, rfl, by simp only [made, WebSocketServer.fetched]⟩
  | _ => simp only [stage] at brings

theorem not_cleared_subscribe (s : WebSocketServer) {hdl : Hdl} (ended : (s.phase hdl).ended)
    (symbol : Bytes) : ¬ Cleared (s.subscribe hdl symbol) := by
  intro cleared
  exact (cleared hdl ended).1 ((AList.mem_insert _).mpr (.inl rfl))

/-- After a step that is not restful, `NoActivity` is broken or about to break. -/
theorem restless_step {L : Libraries} (zlib : L.deflate.Reliable) {s t : WebSocketServer}
    {e : Event} (restless : ¬ Restful L s e) (step : Serves L s e t) :
    ¬ Cleared t ∨ ∃ e' t', Serves L t e' t' ∧ SendsEnded t e' := by
  have up := step.cases.1
  cases e with
  | closed hdl =>
      simp only [Restful, not_forall, Bool.not_eq_false] at restless
      obtain ⟨thread, member, same, sending⟩ := restless
      obtain ⟨_, served⟩ := step.cases
      cases served
      obtain ⟨tid, here⟩ := List.getElem?_of_mem member
      refine .inr (sends_next L up here sending ?_)
      exact ((s.ended_enter ..).mpr (.inl ⟨same, rfl⟩))
  | run tid u now =>
      simp only [Restful, not_forall, not_not] at restless
      obtain ⟨thread, here, ended, brings⟩ := restless
      obtain ⟨symbol, taken⟩ | ⟨stage, sending, taken⟩ := turn_of_brings zlib s now brings
      · cases Takes.functional _ _ _ _ step (serves_run up here taken)
        exact .inl (not_cleared_subscribe s ended symbol)
      · cases Takes.functional _ _ _ _ step (serves_run up here taken)
        have inside := (List.getElem?_eq_some_iff.mp here).1
        exact .inr (sends_next L up (List.getElem?_set_self inside) sending ended)
  | _ => exact absurd trivial restless

/-- With restful steps only, nothing happens on a connection that has ended. In any
other run it does, or can with one event put after a first part of the run. -/
theorem no_activity_on_closed_connections (L : Libraries) {events : List Event}
    {t : WebSocketServer} (run : Trace (Serves L) .create events t) :
    (Stepwise (Serves L) (Restful L) .create events → NoActivity L events) ∧
      (L.deflate.Reliable → ¬ Stepwise (Serves L) (Restful L) .create events →
        ∃ first rest next s, events = first ++ rest ∧ next.length ≤ 1 ∧
          Trace (Serves L) .create (first ++ next) s ∧ ¬ NoActivity L (first ++ next)) := by
  refine ⟨noActivity_of_restful, fun zlib restless => ?_⟩
  simp only [Stepwise, not_forall] at restless
  obtain ⟨before, e, after, s, same, prior, restless⟩ := restless
  have whole : events = (before ++ [e]) ++ after := by simp [same]
  rw [same] at run
  obtain ⟨s', early, late⟩ := run.split
  cases prior.unique Takes.functional early
  cases late with
  | @cons _ m _ _ _ step tail =>
      have first := prior.snoc step
      obtain kept | ⟨e', t', next, sends⟩ := restless_step zlib restless step
      · refine ⟨before ++ [e], after, [], m, whole, by simp, by simpa using first, ?_⟩
        intro idle
        exact kept (idle.keys (before ++ [e]) [] m (by simp) first)
      · refine ⟨before ++ [e], after, [e'], t', whole, by simp, first.snoc next, ?_⟩
        intro idle
        exact idle.sends (before ++ [e]) e' [] m (by simp) first sends

/-- The upstream server cannot be reached. -/
def noUpstream : Upstream := ⟨fun _ => .failed 28, 0⟩

/-- A first update, a check, and then the end of the connection while the thread sleeps. -/
def sampleSession : List Event :=
  [.opened 0, .message 0 samplePayload 1700000000005, .run 0 sampleUpstream 0,
    .run 0 sampleUpstream 0, .run 0 sampleUpstream 0, .run 0 sampleUpstream 0, .closed 0,
    .run 0 sampleUpstream 0]

theorem sampleSession_quiet :
    NoActivity sampleServer (sampleSession ++ [.run 0 noUpstream 0, .run 0 noUpstream 0]) := by
  have followed : (follow (WebSocketServer.next sampleServer) .create
      (sampleSession ++ [.run 0 noUpstream 0, .run 0 noUpstream 0])).any (fun _ => true) := by
    decide +kernel
  obtain ⟨t, run, _⟩ := exists_trace_of_follow followed
  exact (no_activity_on_closed_connections sampleServer run).1
    (stepwise_of_along (by decide +kernel))

/-- The thread that sleeps at the close wakes up, fetches a book and sends it; the
exception then ends the process. -/
theorem sampleSession_sends :
    ∃ t, Trace (Serves sampleServer) .create
        (sampleSession ++ [.run 0 sampleUpstream 1, .run 0 sampleUpstream 0]) t ∧
      t.down = some .badConnection ∧
      ¬ NoActivity sampleServer
        (sampleSession ++ [.run 0 sampleUpstream 1, .run 0 sampleUpstream 0]) := by
  have whole : (follow (WebSocketServer.next sampleServer) .create
      (sampleSession ++ [.run 0 sampleUpstream 1, .run 0 sampleUpstream 0])).any
        (fun t => t.down == some .badConnection) := by decide +kernel
  have first : (follow (WebSocketServer.next sampleServer) .create
      (sampleSession ++ [.run 0 sampleUpstream 1])).any
        (fun s => decide (SendsEnded s (.run 0 sampleUpstream 0))) := by decide +kernel
  obtain ⟨t, run, ended⟩ := exists_trace_of_follow whole
  obtain ⟨s, prior, sends⟩ := exists_trace_of_follow first
  refine ⟨t, run, by simpa using ended, fun idle => ?_⟩
  exact idle.sends _ _ [] s rfl prior (of_decide_eq_true sends)

end DeribitTrading
