import DeribitTrading.Feed.Agreement
import DeribitTrading.Server.Agreement

/-!
The feed does not get stuck: as long as a connection is open at both ends and the
upstream server has a book, there is always a way to one more update on the display.
-/
namespace DeribitTrading
open ByteString Runs Nlohmann

/-- The thread of a connection that is open has not ended. -/
def Going (s : WebSocketServer) : Prop :=
  ∀ thread ∈ s.threads, s.phase thread.hdl = .opened → thread.stage ≠ .done

section
variable {L : Libraries} {inflate : Streaming.Codec} {F : Streaming.Format}
  {Seen : FeedEvent → Prop}

theorem Going.move {s : WebSocketServer} (going : Going s) {tid : Nat} {thread : Thread}
    {stage : Stage} (own : s.phase thread.hdl = .opened → stage ≠ .done) :
    Going (s.move tid thread stage) := by
  intro other there isOpen
  obtain old | rfl := s.mem_move there
  · exact going other old isOpen
  · exact own isOpen

theorem Goes.ends {s : WebSocketServer} {u : Upstream} {now : Int64} {thread : Thread}
    {stage : Stage} (goes : Goes L s u now thread stage .done) :
    readRequest L thread.receivedMillis thread.payload = .ok none ∨
      s.lock thread.hdl ∉ s.subscriptions := by
  cases goes with
  | ignored read => exact .inl read
  | unlisted absent => exact .inr absent

theorem Going.served {s t : WebSocketServer} {log : Log} {e : Event} (going : Going s)
    (logged : Logged L s log)
    (asks : ∀ thread ∈ s.threads,
      readRequest L thread.receivedMillis thread.payload = .ok (some perpetual))
    (served : Served L s e t) : Going t := by
  cases served with
  | @opened hdl fresh =>
      intro thread there isOpen
      obtain ⟨same, _⟩ | ⟨_, isOpen⟩ := (s.phase_enter ..).mp isOpen
      · exact absurd (same ▸ fresh) (logged.known thread there)
      · exact going thread there isOpen
  | message _ =>
      intro thread there isOpen
      obtain old | new := List.mem_append.mp there
      · exact going thread old isOpen
      · cases List.mem_singleton.mp new
        exact nofun
  | closed _ =>
      intro thread there isOpen
      obtain ⟨_, no⟩ | ⟨_, isOpen⟩ := (s.phase_enter ..).mp isOpen
      · cases no
      · exact going thread there isOpen
  | destroyed _ =>
      intro thread there isOpen
      obtain ⟨_, no⟩ | ⟨_, isOpen⟩ := (s.phase_enter ..).mp isOpen
      · cases no
      · exact going thread there isOpen
  | @goes tid u now thread stage here taken =>
      refine going.move fun isOpen ended => ?_
      have goes := turn_eq_goes taken
      rw [ended] at goes
      obtain ignored | absent := goes.ends
      · cases ignored.symm.trans (asks thread (List.mem_of_getElem? here))
      · exact absent (logged.listed isOpen)
  | subscribes _ _ => exact going.move fun _ => nofun
  | dies _ _ => exact going

variable (L inflate F Seen)

/-- What holds of every state that a fair run reaches. -/
structure Kept (s : Feed) : Prop where
  sound : ∃ log, Sound L inflate F Seen s log
  logged : ∃ log, Logged L s.server log
  going : Going s.server

theorem kept_create : Kept L inflate F Seen .create where
  sound := ⟨[], sound_create L inflate F Seen⟩
  logged := ⟨[], logged_create L⟩
  going := fun thread there => by cases there

variable {L inflate F Seen}

theorem Sound.asks {s : Feed} {log : List (Hdl × Bytes)} (sound : Sound L inflate F Seen s log) :
    ∀ thread ∈ s.server.threads,
      readRequest L thread.receivedMillis thread.payload = .ok (some perpetual) := by
  intro thread there
  obtain ⟨tid, here⟩ := List.getElem?_of_mem there
  obtain ⟨_, _, asks, received, _⟩ := (sound.connections thread.hdl).alone here
  exact asks _ received

theorem Kept.serves {s : Feed} {t : WebSocketServer} {e : Event} (kept : Kept L inflate F Seen s)
    (step : Serves L s.server e t) : (∃ log, Logged L t log) ∧ Going t := by
  obtain ⟨_, sound⟩ := kept.sound
  obtain ⟨_, logged⟩ := kept.logged
  obtain ⟨_, served⟩ := step.cases
  exact ⟨⟨_, logged.served served⟩, kept.going.served logged sound.asks served⟩

theorem Kept.step {s t : Feed} {e : FeedEvent} (kept : Kept L inflate F Seen s)
    (fair : FairSeen L inflate F Seen s e) (step : Feeds L inflate s e t) :
    Kept L inflate F Seen t := by
  obtain ⟨log, sound⟩ := kept.sound
  have later := sound.step fair step
  cases step.cases with
  | server _ taken | delivered _ taken =>
      obtain ⟨logged, going⟩ := kept.serves taken
      exact ⟨⟨_, later⟩, logged, going⟩
  | client _ _ _ | arrived _ _ _ => exact ⟨⟨_, later⟩, kept.logged, kept.going⟩

/-- The updates that the client is through with. -/
def WebSocketClient.shown (c : WebSocketClient) : Nat :=
  c.readers.countP fun reader => reader.result.isSome

def WebSocketClient.waiting (c : WebSocketClient) : Bool :=
  c.readers.any fun reader => reader.result.isNone

/-- How far a thread is from having sent an update that is then read. -/
def Stage.distance : Stage → Nat
  | .done => 0
  | .send _ _ | .resend _ _ => 3
  | .fetch _ | .refetch _ => 4
  | .start | .sleep _ => 5
  | .check _ => 6

def Feed.remaining (s : Feed) (hdl : Hdl) : Nat :=
  if (s.clients hdl).waiting then 1
  else if s.updates hdl = [] then
    if s.requests hdl = [] then ((s.server.threadsFor hdl).map fun t => t.stage.distance).sum else 7
  else 2

variable (L inflate F) in
/-- A connection that is open at both ends, in a feed that is up. -/
structure Ready (hdl : Hdl) (s : Feed) : Prop where
  kept : Kept L inflate F (fun _ => True) s
  up : s.server.down = none
  served : s.server.phase hdl = .opened
  client : (s.clients hdl).phase = .opened

/-- The turn of a thread as an event of the feed. -/
theorem feeds_run {s : Feed} {tid : Nat} {thread : Thread} {u : Upstream} {now : Int64}
    {turn : Turn} (up : s.server.down = none) (here : s.server.threads[tid]? = some thread)
    (taken : s.server.turn L u now thread = some turn) :
    Feeds L inflate s (.server (.run tid u now)) { s with
      server := s.server.take tid thread turn
      updates := fun hdl => s.updates hdl ++ framesFor (thread.sent turn) hdl } := by
  simp [Feeds, Takes, Feed.next, Event.isMessage, WebSocketServer.next, up, here, taken, framesSent]

theorem phase_take (s : WebSocketServer) (tid : Nat) (thread : Thread) (turn : Turn) :
    (s.take tid thread turn).phase = s.phase := by
  cases turn <;> rfl

/-- What the next turn of a thread leads to while its connection is open. -/
theorem exists_turn {s : Feed} {hdl : Hdl} {tid : Nat} {thread : Thread} {u : Upstream}
    {now : Int64} {frames : List Bytes} (ready : Ready L inflate F hdl s)
    (zlib : Passable L inflate F u now) (book : HasBook L u perpetual)
    (here : s.server.threads[tid]? = some thread) (own : thread.hdl = hdl)
    (asks : AsksForPerpetual L thread.payload) (received : 0 ≤ thread.receivedMillis)
    (track : OnTrack L inflate F (fun _ => True) thread.stage frames) :
    ∃ turn stage, s.server.turn L u now thread = some turn ∧
      (s.server.take tid thread turn).down = none ∧
      (s.server.take tid thread turn).threads =
        s.server.threads.set tid { thread with stage := stage } ∧
      (framesFor (thread.sent turn) hdl ≠ [] ∨ stage.distance < thread.stage.distance) ∧
      2 < thread.stage.distance := by
  obtain ⟨rs, bookOf⟩ := book
  have updates (stamp : Option Int64) (stamping : stamp = none ∨ stamp = some now) :
      ∃ z, updateOf L u perpetual stamp = .ok (some z) := by
    obtain ⟨z, made, _⟩ := update_shown bookOf (zlib.carried rs stamp bookOf stamping)
    exact ⟨z, made⟩
  have isOpen : s.server.phase thread.hdl = .opened := own ▸ ready.served
  have up := ready.up
  cases standing : thread.stage with
  | start =>
      refine ⟨.subscribes perpetual, .fetch perpetual, ?_, up, rfl, .inr ?_, ?_⟩
      · simp only [WebSocketServer.turn, standing, readRequest_of_asks asks received]
      · simp [Stage.distance]
      · simp [Stage.distance]
  | fetch symbol =>
      rw [standing] at track
      cases track
      obtain ⟨z, made⟩ := updates none (.inl rfl)
      refine ⟨.goes (.send perpetual z), .send perpetual z, ?_, up, rfl, .inr ?_, ?_⟩
      · simp only [WebSocketServer.turn, standing]
        exact congrArg (fun found => some (WebSocketServer.fetched perpetual _ found)) made
      · simp [Stage.distance]
      · simp [Stage.distance]
  | send symbol update =>
      refine ⟨.goes (.check symbol), .check symbol, ?_, up, rfl, .inl ?_, by simp [Stage.distance]⟩
      · simp only [WebSocketServer.turn, standing, WebSocketServer.sent, if_pos isOpen]
      · simp [Thread.sent, standing, framesFor, own]
  | check symbol =>
      obtain ⟨_, logged⟩ := ready.kept.logged
      refine ⟨.goes (.sleep symbol), .sleep symbol, ?_, up, rfl, .inr ?_, ?_⟩
      · simp only [WebSocketServer.turn, standing, if_pos (logged.listed isOpen)]
      · simp [Stage.distance]
      · simp [Stage.distance]
  | sleep symbol =>
      refine ⟨.goes (.refetch symbol), .refetch symbol, ?_, up, rfl, .inr ?_, ?_⟩
      · simp only [WebSocketServer.turn, standing]
      · simp [Stage.distance]
      · simp [Stage.distance]
  | refetch symbol =>
      rw [standing] at track
      cases track
      obtain ⟨z, made⟩ := updates (some now) (.inr rfl)
      refine ⟨.goes (.resend perpetual z), .resend perpetual z, ?_, up, rfl, .inr ?_, ?_⟩
      · simp only [WebSocketServer.turn, standing]
        exact congrArg (fun found => some (WebSocketServer.fetched perpetual _ found)) made
      · simp [Stage.distance]
      · simp [Stage.distance]
  | resend symbol update =>
      refine ⟨.goes (.check symbol), .check symbol, ?_, up, rfl, .inl ?_, by simp [Stage.distance]⟩
      · simp only [WebSocketServer.turn, standing, WebSocketServer.sent, if_pos isOpen]
      · simp [Thread.sent, standing, framesFor, own]
  | done =>
      exact absurd standing (ready.kept.going thread (List.mem_of_getElem? here) isOpen)

theorem feeds_read {s : Feed} {hdl : Hdl} {rid : Nat} {reader : Reader} {now : Int64}
    {result : Option Shown} (up : (s.clients hdl).down = none)
    (isOpen : (s.clients hdl).phase = .opened) (here : (s.clients hdl).readers[rid]? = some reader)
    (unread : reader.result = none)
    (returned : onMessage L inflate now reader.payload = .ok result) :
    Feeds L inflate s (.client hdl (.read rid now)) { s with
      clients := Function.update s.clients hdl ((s.clients hdl).settle rid reader result)
      requests := Function.update s.requests hdl (s.requests hdl ++ []) } := by
  simp [Feeds, Takes, Feed.next, ClientEvent.isMessage, WebSocketClient.next, up, isOpen, here,
    unread, returned, WebSocketClient.finish]

theorem shown_settle {c : WebSocketClient} {rid : Nat} {reader : Reader}
    (here : c.readers[rid]? = some reader) (unread : reader.result = none)
    (result : Option Shown) : (c.settle rid reader result).shown = c.shown + 1 := by
  obtain ⟨inside, same⟩ := List.getElem?_eq_some_iff.mp here
  have counted := List.countP_set (p := fun r : Reader => r.result.isSome)
    (a := { reader with result := some result }) inside
  rw [same, unread] at counted
  simpa [WebSocketClient.shown, WebSocketClient.settle] using counted

theorem Connection.serving {phase : Phase} {frames : List Bytes} {threads : List Thread}
    (connection : Connection L inflate F Seen phase [] threads frames) (began : phase ≠ .fresh) :
    ∃ thread, threads = [thread] := by
  cases connection with
  | idle => exact absurd rfl began
  | @served _ thread _ _ _ _ _ => exact ⟨thread, rfl⟩

variable (L inflate F) in
/-- A fair step leads to one more update shown, or nearer to one. -/
def HasCloser (hdl : Hdl) (s : Feed) : Prop :=
  ∃ e t, Guarded (Feeds L inflate) (Fair L inflate F) s e t ∧ Ready L inflate F hdl t ∧
    ((t.clients hdl).shown = (s.clients hdl).shown + 1 ∧ 0 < s.remaining hdl ∨
      (t.clients hdl).shown = (s.clients hdl).shown ∧ t.remaining hdl < s.remaining hdl)

theorem Ready.keeps {hdl : Hdl} {s t : Feed} {e : FeedEvent} (ready : Ready L inflate F hdl s)
    (fair : Fair L inflate F s e) (step : Feeds L inflate s e t) :
    Kept L inflate F (fun _ => True) t :=
  ready.kept.step ⟨fair, trivial⟩ step

/-- A reader that has its update goes on to show it. -/
theorem Ready.reads {s : Feed} {hdl : Hdl} {now : Int64} (ready : Ready L inflate F hdl s)
    (clock : 0 ≤ now) (waiting : (s.clients hdl).waiting = true) :
    HasCloser L inflate F hdl s := by
  obtain ⟨log, sound⟩ := ready.kept.sound
  obtain ⟨reader, there, unread⟩ := List.any_eq_true.mp waiting
  obtain ⟨rid, here⟩ := List.getElem?_of_mem there
  have unread : reader.result = none := Option.isNone_iff_eq_none.mp unread
  obtain ⟨shown, returned⟩ := sound.reads there clock
  have step := feeds_read (sound.up hdl) ready.client here unread returned
  have fair : Fair L inflate F s (.client hdl (.read rid now)) := clock
  refine ⟨_, _, ⟨fair, step⟩, ⟨ready.keeps fair step, ready.up, ready.served, ?_⟩, .inl ⟨?_, ?_⟩⟩
  · simpa [WebSocketClient.settle] using ready.client
  · simpa using shown_settle here unread (some shown)
  · simp [Feed.remaining, waiting]

/-- Where nothing is under way the thread of the connection takes its next turn. -/
theorem Ready.runs {s : Feed} {hdl : Hdl} {u : Upstream} {now : Int64}
    (ready : Ready L inflate F hdl s) (clock : 0 ≤ now) (answers : Passable L inflate F u now)
    (book : HasBook L u perpetual) (read : (s.clients hdl).waiting = false)
    (updates : s.updates hdl = []) (requests : s.requests hdl = []) :
    HasCloser L inflate F hdl s := by
  obtain ⟨log, sound⟩ := ready.kept.sound
  have connection := sound.connections hdl
  rw [requests] at connection
  obtain ⟨thread, single⟩ := connection.serving (by simp [ready.client])
  obtain ⟨there, own⟩ : thread ∈ s.server.threads ∧ thread.hdl = hdl := by
    have member : thread ∈ s.server.threadsFor hdl := single ▸ List.mem_cons_self
    simpa [WebSocketServer.threadsFor] using member
  obtain ⟨tid, here⟩ := List.getElem?_of_mem there
  subst own
  obtain ⟨_, _, asks, received, track, alone⟩ := (sound.connections thread.hdl).alone here
  obtain ⟨turn, stage, taken, up, threads, closer, far⟩ :=
    exists_turn ready answers book here rfl asks received track
  have step : Feeds L inflate s (.server (.run tid u now)) _ := feeds_run ready.up here taken
  have fair : Fair L inflate F s (.server (.run tid u now)) := ⟨clock, answers⟩
  refine ⟨_, _, ⟨fair, step⟩, ⟨ready.keeps fair step, up, ?_, ready.client⟩, .inr ⟨rfl, ?_⟩⟩
  · exact (congrFun (phase_take ..) _).trans ready.served
  · have moved : (s.server.take tid thread turn).threadsFor thread.hdl =
        [{ thread with stage := stage }] := by
      rw [WebSocketServer.threadsFor, threads]
      exact alone { thread with stage := stage } rfl
    simp only [Feed.remaining, read, updates, requests, single, moved, List.nil_append,
      List.map_cons, List.map_nil, List.sum_cons, List.sum_nil, Nat.add_zero,
      Bool.false_eq_true, if_false, if_true]
    split
    · next quiet => exact closer.resolve_left fun sent => sent quiet
    · exact far

end

end DeribitTrading
