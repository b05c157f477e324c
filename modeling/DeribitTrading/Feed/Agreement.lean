import DeribitTrading.Feed.Delivery

/-!
What every run of the feed keeps: the connections as they were described, and for
each client the threads that hold, in the order of the sends, what has arrived.
-/
namespace DeribitTrading
open ByteString Runs Nlohmann

/-- The threads that captured this handle. -/
def WebSocketServer.threadsFor (s : WebSocketServer) (hdl : Hdl) : List Thread :=
  s.threads.filter fun thread => thread.hdl == hdl

theorem framesFor_append (first rest : List (Hdl × Bytes)) (hdl : Hdl) :
    framesFor (first ++ rest) hdl = framesFor first hdl ++ framesFor rest hdl := by
  rw [framesFor, List.filter_append, List.map_append]
  rfl

theorem framesFor_own {frames : List (Hdl × Bytes)} {hdl : Hdl}
    (own : ∀ frame ∈ frames, frame.1 = hdl) : framesFor frames hdl = frames.map Prod.snd := by
  rw [framesFor, List.filter_eq_self.mpr fun frame there => beq_iff_eq.mpr (own frame there)]

theorem framesFor_other {frames : List (Hdl × Bytes)} {hdl other : Hdl}
    (own : ∀ frame ∈ frames, frame.1 = hdl) (different : other ≠ hdl) :
    framesFor frames other = [] := by
  have none : frames.filter (fun frame => frame.1 == other) = [] := by
    refine List.filter_eq_nil_iff.mpr fun frame there same => different ?_
    exact (beq_iff_eq.mp same).symm.trans (own frame there)
  rw [framesFor, none, List.map_nil]

theorem Thread.sent_own (thread : Thread) (turn : Turn) :
    ∀ frame ∈ thread.sent turn, frame.1 = thread.hdl := by
  intro frame there
  cases turn with
  | goes stage =>
      cases standing : thread.stage with
      | send symbol update | resend symbol update =>
          simp only [Thread.sent, standing] at there
          rw [List.mem_singleton.mp there]
      | start | fetch _ | check _ | sleep _ | refetch _ | done =>
          simp only [Thread.sent, standing] at there
          cases there
  | subscribes symbol => cases there
  | dies fault => cases there

section
variable {L : Libraries} {inflate : Streaming.Codec} {F : Streaming.Format}
  {Seen : FeedEvent → Prop}

/-- A thread that is there is the only one of its connection. -/
theorem Connection.alone {phase : Phase} {requests frames : List Bytes} {threads : List Thread}
    {tid : Nat} {thread : Thread}
    (connection : Connection L inflate F Seen phase requests
      (threads.filter fun other => other.hdl == thread.hdl) frames)
    (here : threads[tid]? = some thread) :
    phase ≠ .fresh ∧ requests = [] ∧ AsksForPerpetual L thread.payload ∧
      0 ≤ thread.receivedMillis ∧ OnTrack L inflate F Seen thread.stage frames ∧
      ∀ moved : Thread, moved.hdl = thread.hdl →
        (threads.set tid moved).filter (fun other => other.hdl == thread.hdl) = [moved] := by
  have single (moved : Thread) (same : moved.hdl = thread.hdl) :=
    Interleaving.filter_set_own (p := fun other : Thread => other.hdl == thread.hdl) here
      (beq_self_eq_true _) (beq_iff_eq.mpr same)
  obtain ⟨before, after, old, _⟩ := single thread rfl
  rw [old] at connection
  cases before with
  | nil =>
      generalize found : [] ++ thread :: after = served at connection
      cases connection with
      | idle | asking _ _ => cases found
      | served began asks received track =>
          cases found
          refine ⟨began, rfl, asks, received, track, fun moved same => ?_⟩
          obtain ⟨before', after', old', new'⟩ := single moved same
          rw [old] at old'
          cases before' with
          | nil =>
              cases old'
              exact new'
          | cons first rest =>
              have short := congrArg List.length old'
              simp at short
  | cons first rest =>
      generalize found : (first :: rest) ++ thread :: after = served at connection
      have long : 2 ≤ served.length := by
        rw [← found]
        simp
        omega
      cases connection with
      | idle | asking _ _ => simp at long
      | served _ _ _ _ => simp at long

/-- One thread moves, and sends to its own connection only. -/
theorem connections_move {phase : Hdl → Phase} {requests : Hdl → List Bytes}
    {threads : List Thread} {log sent : List (Hdl × Bytes)} {tid : Nat} {thread : Thread}
    {stage : Stage}
    (all : ∀ hdl, Connection L inflate F Seen (phase hdl) (requests hdl)
      (threads.filter fun other => other.hdl == hdl) (framesFor log hdl))
    (here : threads[tid]? = some thread) (own : ∀ frame ∈ sent, frame.1 = thread.hdl)
    (moves : ∀ frames, AsksForPerpetual L thread.payload → 0 ≤ thread.receivedMillis →
      OnTrack L inflate F Seen thread.stage frames →
      OnTrack L inflate F Seen stage (frames ++ sent.map Prod.snd)) :
    ∀ hdl, Connection L inflate F Seen (phase hdl) (requests hdl)
      ((threads.set tid { thread with stage := stage }).filter fun other => other.hdl == hdl)
      (framesFor (log ++ sent) hdl) := by
  intro hdl
  rw [framesFor_append]
  by_cases same : hdl = thread.hdl
  · subst same
    obtain ⟨began, none, asks, received, track, single⟩ := (all thread.hdl).alone here
    rw [single { thread with stage := stage } rfl, none, framesFor_own own]
    exact .served began asks received (moves _ asks received track)
  · have other : (thread.hdl == hdl) = false := beq_false_of_ne (Ne.symm same)
    rw [framesFor_other own same, List.append_nil,
      Interleaving.filter_set_other (p := fun t : Thread => t.hdl == hdl)
        (b := { thread with stage := stage }) here other other]
    exact all hdl

variable (L inflate F Seen)

/-- What a run keeps, with the frames that were sent on record. -/
structure Sound (s : Feed) (log : List (Hdl × Bytes)) : Prop where
  connections : ∀ hdl, Connection L inflate F Seen (s.clients hdl).phase (s.requests hdl)
    (s.server.threadsFor hdl) (framesFor log hdl)
  frames : ∀ hdl, framesFor log hdl =
    (s.clients hdl).readers.map Reader.payload ++ s.updates hdl
  up : ∀ hdl, (s.clients hdl).down = none
  shown : ∀ hdl rid reader, (s.clients hdl).readers[rid]? = some reader →
    ∀ result, reader.result = some result → ∃ now, Seen (.client hdl (.read rid now)) ∧ 0 ≤ now ∧
      onMessage L inflate now reader.payload = .ok result
  fault : ∀ fault, s.server.down = some fault → fault = .badConnection

theorem sound_create : Sound L inflate F Seen .create [] where
  connections := fun _ => .idle
  frames := fun _ => rfl
  up := fun _ => rfl
  shown := fun _ rid reader here => by cases here
  fault := fun fault down => by cases down

variable {L inflate F Seen}

/-- A client that is given a frame of its connection shows it. -/
theorem Sound.reads {s : Feed} {log : List (Hdl × Bytes)} (sound : Sound L inflate F Seen s log)
    {hdl : Hdl} {reader : Reader} (there : reader ∈ (s.clients hdl).readers) {now : Int64}
    (clock : 0 ≤ now) : ∃ shown, onMessage L inflate now reader.payload = .ok (some shown) := by
  have member : reader.payload ∈ framesFor log hdl := by
    rw [sound.frames hdl]
    exact List.mem_append_left _ (List.mem_map_of_mem there)
  obtain ⟨stamp, u, rs, made⟩ := (sound.connections hdl).sequence.stamped member
  obtain ⟨delay, sells, buys, _, _, read⟩ := made.shown clock
  exact ⟨_, read⟩

/-- The server moves: its threads, and what it sends, stay on their connections. -/
theorem Sound.serves {s : Feed} {log sent : List (Hdl × Bytes)}
    (sound : Sound L inflate F Seen s log) {server : WebSocketServer}
    (connections : ∀ hdl, Connection L inflate F Seen (s.clients hdl).phase (s.requests hdl)
      (server.threadsFor hdl) (framesFor (log ++ sent) hdl))
    (fault : ∀ fault, server.down = some fault → fault = .badConnection) :
    Sound L inflate F Seen { s with
      server := server
      updates := fun hdl => s.updates hdl ++ framesFor sent hdl } (log ++ sent) where
  connections := connections
  frames := fun hdl => by
    rw [framesFor_append, sound.frames hdl, List.append_assoc]
  up := sound.up
  shown := sound.shown
  fault := fault

/-- What the conditions ask of one event, and that it is one of those seen. -/
def FairSeen (L : Libraries) (inflate : Streaming.Codec) (F : Streaming.Format)
    (Seen : FeedEvent → Prop) (s : Feed) (e : FeedEvent) : Prop :=
  Fair L inflate F s e ∧ Seen e

theorem Sound.server {s : Feed} {log : List (Hdl × Bytes)}
    (sound : Sound L inflate F Seen s log) {e : Event} {server : WebSocketServer}
    (other : e.isMessage = false) (fair : FairSeen L inflate F Seen s (.server e))
    (step : Serves L s.server e server) :
    Sound L inflate F Seen { s with
      server := server
      updates := fun hdl => s.updates hdl ++ framesFor (framesSent L s.server e) hdl }
      (log ++ framesSent L s.server e) := by
  obtain ⟨_, served⟩ := step.cases
  have still : ∀ fault, s.server.down = some fault → fault = .badConnection := sound.fault
  cases served with
  | opened _ | closed _ | destroyed _ =>
      refine sound.serves (fun hdl => ?_) still
      rw [framesFor_append]
      exact (List.append_nil (framesFor log hdl)).symm ▸ sound.connections hdl
  | message _ => cases other
  | @goes tid u now thread stage here taken =>
      obtain ⟨⟨clock, answers⟩, fetched⟩ := fair
      have sends : framesSent L s.server (.run tid u now) = thread.sent (.goes stage) := by
        simp only [framesSent, here, taken, Option.map_some, Option.getD_some]
      rw [sends]
      refine sound.serves (connections_move sound.connections here (thread.sent_own _) ?_) still
      intro frames asks received track
      exact track.goes asks received fetched clock answers (turn_eq_goes taken)
  | @subscribes tid u now thread symbol here taken =>
      have sends : framesSent L s.server (.run tid u now) = [] := by
        simp only [framesSent, here, taken, Option.map_some, Option.getD_some, Thread.sent]
      rw [sends]
      refine sound.serves (connections_move sound.connections here (by simp) ?_) still
      intro frames asks received track
      obtain ⟨start, reads⟩ := turn_eq_subscribes taken
      have same := (readRequest_of_asks asks received).symm.trans
        ((readRequest_eq_some_iff ..).mpr reads)
      cases same
      rw [start] at track
      cases track
      exact .fetch
  | @dies tid u now thread fault here taken =>
      obtain ⟨⟨clock, answers⟩, fetched⟩ := fair
      have sends : framesSent L s.server (.run tid u now) = [] := by
        simp only [framesSent, here, taken, Option.map_some, Option.getD_some, Thread.sent]
      rw [sends]
      refine sound.serves (fun hdl => ?_) ?_
      · rw [List.append_nil]
        exact sound.connections hdl
      · intro fault' down
        cases down
        obtain ⟨_, _, asks, received, track, _⟩ := (sound.connections thread.hdl).alone here
        exact (track.dies asks received answers taken).1

theorem Connection.enter {phase phase' : Phase} {requests frames : List Bytes}
    {threads : List Thread}
    (connection : Connection L inflate F Seen phase requests threads frames)
    (began : phase ≠ .fresh) (still : phase' ≠ .fresh) :
    Connection L inflate F Seen phase' requests threads frames := by
  cases connection with
  | idle => exact absurd rfl began
  | asking _ asks => exact .asking still asks
  | served _ asks received track => exact .served still asks received track

theorem Connection.asked {phase : Phase} {payload : Bytes} {rest frames : List Bytes}
    {threads : List Thread}
    (connection : Connection L inflate F Seen phase (payload :: rest) threads frames) :
    phase ≠ .fresh ∧ AsksForPerpetual L payload ∧ rest = [] ∧ threads = [] ∧ frames = [] := by
  cases connection with
  | asking began asks => exact ⟨began, asks, rfl, rfl, rfl⟩

theorem Connection.length_le_one {phase : Phase} {requests frames : List Bytes}
    {threads : List Thread}
    (connection : Connection L inflate F Seen phase requests threads frames) :
    threads.length ≤ 1 := by
  cases connection with
  | idle | asking _ _ => exact Nat.zero_le 1
  | served _ _ _ _ => exact Nat.le_refl 1

theorem Connection.fresh {requests frames : List Bytes} {threads : List Thread}
    (connection : Connection L inflate F Seen .fresh requests threads frames) :
    requests = [] ∧ threads = [] ∧ frames = [] := by
  cases connection with
  | idle => exact ⟨rfl, rfl, rfl⟩
  | asking began _ | served began _ _ _ => exact absurd rfl began

theorem Sound.delivered {s : Feed} {log : List (Hdl × Bytes)}
    (sound : Sound L inflate F Seen s log) {hdl : Hdl} {receivedMillis : Int64} {payload : Bytes}
    {rest : List Bytes} {server : WebSocketServer} (waiting : s.requests hdl = payload :: rest)
    (clock : 0 ≤ receivedMillis)
    (step : Serves L s.server (.message hdl payload receivedMillis) server) :
    Sound L inflate F Seen
      { s with server := server, requests := Function.update s.requests hdl rest } log := by
  obtain ⟨_, served⟩ := step.cases
  cases served
  refine ⟨fun other => ?_, sound.frames, sound.up, sound.shown, sound.fault⟩
  have before := sound.connections other
  simp only [WebSocketServer.threadsFor, WebSocketServer.onMessage, List.filter_append]
  by_cases same : other = hdl
  · subst same
    rw [waiting] at before
    obtain ⟨began, asks, rfl, none, early⟩ := before.asked
    have own : [(⟨other, payload, receivedMillis, .start⟩ : Thread)].filter
        (fun thread => thread.hdl == other) = [⟨other, payload, receivedMillis, .start⟩] := by
      simp
    rw [own, show s.server.threads.filter (fun thread => thread.hdl == other) = [] from none,
      early, Function.update_self]
    exact .served began asks clock .start
  · have none : [(⟨hdl, payload, receivedMillis, .start⟩ : Thread)].filter
        (fun thread => thread.hdl == other) = [] := by
      simp [Ne.symm same]
    rw [none, List.append_nil, Function.update_of_ne same]
    exact before

theorem settle_payloads {c : WebSocketClient} {rid : Nat} {reader : Reader}
    (here : c.readers[rid]? = some reader) (result : Option Shown) :
    (c.settle rid reader result).readers.map Reader.payload = c.readers.map Reader.payload := by
  rw [WebSocketClient.settle, List.map_set]
  refine List.ext_getElem? fun i => ?_
  rw [List.getElem?_set]
  split
  · next same =>
    subst same
    split
    · rw [List.getElem?_map, here, Option.map_some]
    · next beyond => rw [List.getElem?_eq_none (Nat.le_of_not_lt beyond)]
  · rfl

/-- A client that takes an event, and what it sends, against the rest of its connection. -/
theorem Sound.replace {s : Feed} {log : List (Hdl × Bytes)}
    (sound : Sound L inflate F Seen s log) {hdl : Hdl} {client : WebSocketClient}
    {requests updates : List Bytes}
    (connection : Connection L inflate F Seen client.phase requests
      (s.server.threadsFor hdl) (framesFor log hdl))
    (frames : framesFor log hdl = client.readers.map Reader.payload ++ updates)
    (up : client.down = none)
    (shown : ∀ rid reader, client.readers[rid]? = some reader →
      ∀ result, reader.result = some result → ∃ now, Seen (.client hdl (.read rid now)) ∧
        0 ≤ now ∧ onMessage L inflate now reader.payload = .ok result) :
    Sound L inflate F Seen { s with
      clients := Function.update s.clients hdl client
      requests := Function.update s.requests hdl requests
      updates := Function.update s.updates hdl updates } log := by
  constructor
  · intro other
    by_cases same : other = hdl
    · subst same
      simpa only [Function.update_self] using connection
    · simpa only [Function.update_of_ne same] using sound.connections other
  · intro other
    by_cases same : other = hdl
    · subst same
      simpa only [Function.update_self] using frames
    · simpa only [Function.update_of_ne same] using sound.frames other
  · intro other
    by_cases same : other = hdl
    · subst same
      simpa only [Function.update_self] using up
    · simpa only [Function.update_of_ne same] using sound.up other
  · intro other
    by_cases same : other = hdl
    · subst same
      simpa only [Function.update_self] using shown
    · simpa only [Function.update_of_ne same] using sound.shown other
  · exact sound.fault

theorem Sound.handled {s : Feed} {log : List (Hdl × Bytes)}
    (sound : Sound L inflate F Seen s log) {hdl : Hdl} {e : ClientEvent}
    {client : WebSocketClient} {sent : List Bytes} (other : e.isMessage = false)
    (fair : FairSeen L inflate F Seen s (.client hdl e))
    (handled : Handled L inflate (s.clients hdl) e client sent) :
    Sound L inflate F Seen { s with
      clients := Function.update s.clients hdl client
      requests := Function.update s.requests hdl (s.requests hdl ++ sent) } log := by
  have connection := sound.connections hdl
  have frames := sound.frames hdl
  have shown := sound.shown hdl
  have up := sound.up hdl
  have same : s.updates = Function.update s.updates hdl (s.updates hdl) :=
    (Function.update_eq_self ..).symm
  rw [same]
  cases handled with
  | @opened now payload fresh opening =>
      obtain ⟨⟨clock, rereads⟩, _⟩ := fair
      obtain ⟨payload', sends, asks⟩ := onOpenMessage_asks rereads clock
      cases opening.symm.trans sends
      rw [fresh] at connection
      obtain ⟨unasked, unserved, early⟩ := connection.fresh
      refine sound.replace ?_ frames up shown
      rw [unasked, unserved, early]
      exact .asking (by simp [WebSocketClient.enter]) asks
  | @failed now fault fresh opening =>
      obtain ⟨⟨clock, rereads⟩, _⟩ := fair
      obtain ⟨payload, sends, _⟩ := onOpenMessage_asks rereads clock
      cases opening.symm.trans sends
  | message _ => cases other
  | @read rid now reader result here unread returned =>
      rw [List.append_nil]
      refine sound.replace connection ?_ up ?_
      · rw [settle_payloads here]
        exact frames
      · intro rid' moved there result' read
        rw [WebSocketClient.settle, List.getElem?_set] at there
        split at there
        · next same =>
          subst same
          obtain ⟨_, moves⟩ := Option.ite_none_right_eq_some.mp there
          cases moves
          cases read
          exact ⟨now, fair.2, fair.1, returned⟩
        · exact shown rid' moved there result' read
  | @died rid now reader fault here unread threw =>
      obtain ⟨_, read⟩ := sound.reads (List.mem_of_getElem? here) fair.1
      cases threw.symm.trans read
  | closed isOpen =>
      rw [List.append_nil]
      exact sound.replace (connection.enter (by simp [isOpen]) (by simp [WebSocketClient.enter]))
        frames up shown
  | exited isClosed =>
      rw [List.append_nil]
      exact sound.replace (connection.enter (by simp [isClosed]) (by simp [WebSocketClient.enter]))
        frames up shown

theorem Sound.arrived {s : Feed} {log : List (Hdl × Bytes)}
    (sound : Sound L inflate F Seen s log) {hdl : Hdl} {payload : Bytes} {rest : List Bytes}
    (waiting : s.updates hdl = payload :: rest) :
    Sound L inflate F Seen { s with
      clients := Function.update s.clients hdl ((s.clients hdl).onMessage payload)
      updates := Function.update s.updates hdl rest } log := by
  have same : s.requests = Function.update s.requests hdl (s.requests hdl) :=
    (Function.update_eq_self ..).symm
  rw [same]
  refine sound.replace (sound.connections hdl) ?_ (sound.up hdl) ?_
  · rw [sound.frames hdl, waiting]
    simp [WebSocketClient.onMessage]
  · intro rid reader there result read
    rw [WebSocketClient.onMessage, Interleaving.getElem?_snoc] at there
    split at there
    · cases there
      cases read
    · exact sound.shown hdl rid reader there result read

/-- One event of the feed keeps all of it. -/
theorem Sound.step {s t : Feed} {log : List (Hdl × Bytes)} {e : FeedEvent}
    (sound : Sound L inflate F Seen s log) (fair : FairSeen L inflate F Seen s e)
    (step : Feeds L inflate s e t) : Sound L inflate F Seen t (log ++ feedFrames L s e) := by
  cases step.cases with
  | server other taken => exact sound.server other fair taken
  | delivered waiting taken =>
      rw [feedFrames, List.append_nil]
      exact sound.delivered waiting fair.1 taken
  | client other _ handled =>
      rw [feedFrames, List.append_nil]
      exact sound.handled other fair handled
  | arrived waiting _ _ =>
      rw [feedFrames, List.append_nil]
      exact sound.arrived waiting

/-- The stamp of an update, by its place on the connection. -/
theorem Sequence.stamped_at {frames : List Bytes} {frame : Bytes} {i : Nat}
    (sequence : Sequence L inflate F Seen frames) (here : frames[i]? = some frame) :
    ∃ stamp, Stamped L inflate F Seen stamp frame ∧ (stamp = none → i = 0) := by
  obtain ⟨stamps, all, timed⟩ := sequence
  obtain ⟨within, rfl⟩ := List.getElem?_eq_some_iff.mp here
  have inside : i < stamps.length := all.length_eq ▸ within
  refine ⟨stamps[i], List.Forall₂.get all inside within, fun unstamped => ?_⟩
  cases stamps with
  | nil => cases inside
  | cons first rest =>
      cases i with
      | zero => rfl
      | succ i =>
          rw [List.getElem_cons_succ] at unstamped
          exact absurd (unstamped ▸ List.getElem_mem _) timed

/-- In every fair run no client fails, and the server only by sending to a connection
that is not open. Each connection has one thread at most; what a client has got, and
what is still under way, is what was sent to it, in that order; and what it has shown
of an update is the book that was fetched for it in this run. -/
theorem feed_shows_upstream_books {events : List FeedEvent} {s : Feed}
    (run : Trace (Feeds L inflate) .create events s)
    (fair : Stepwise (Feeds L inflate) (Fair L inflate F) .create events) :
    ∃ log, Trace (Recording (Feeds L inflate) (feedFrames L)) (.create, []) events (s, log) ∧
      (∀ fault, s.server.down = some fault → fault = .badConnection) ∧
      ∀ hdl, (s.clients hdl).down = none ∧ (s.server.threadsFor hdl).length ≤ 1 ∧
        framesFor log hdl = (s.clients hdl).readers.map Reader.payload ++ s.updates hdl ∧
        ∀ rid reader result, (s.clients hdl).readers[rid]? = some reader →
          reader.result = some result →
            ∃ tid u fetchedAt rs stamp now delay sells buys,
              .server (.run tid u fetchedAt) ∈ events ∧ BookOf L u perpetual rs ∧
              (stamp = none ∨ stamp = some fetchedAt) ∧ (stamp = none → rid = 0) ∧
              .client hdl (.read rid now) ∈ events ∧ Delayed now stamp delay ∧
              Quoted rs sells buys ∧
              result = some ⟨delay, some u.processingLatency, (sells ++ buys).map Row.reread⟩ := by
  have seen : Stepwise (Feeds L inflate) (fun _ e => e ∈ events) .create events := by
    intro before e after m same _
    rw [same]
    exact List.mem_append_right _ List.mem_cons_self
  have preserves : ∀ s log e t, Sound L inflate F (· ∈ events) s log →
      FairSeen L inflate F (· ∈ events) s e → Feeds L inflate s e t →
        Sound L inflate F (· ∈ events) t (log ++ feedFrames L s e) := by
    intro s log e t sound conditions step
    exact sound.step conditions step
  obtain ⟨log, recorded, sound⟩ := (fair.and seen).exists_record preserves run
    (sound_create L inflate F _)
  refine ⟨log, recorded, sound.fault, fun hdl => ⟨sound.up hdl, ?_, sound.frames hdl, ?_⟩⟩
  · exact (sound.connections hdl).length_le_one
  · intro rid reader result here read
    obtain ⟨now, readAt, clock, returned⟩ := sound.shown hdl rid reader here result read
    have place : (framesFor log hdl)[rid]? = some reader.payload := by
      obtain ⟨within, _⟩ := List.getElem?_eq_some_iff.mp here
      rw [sound.frames hdl, List.getElem?_append_left (by simpa using within), List.getElem?_map,
        here, Option.map_some]
    obtain ⟨stamp, ⟨u, rs, made⟩, first⟩ := (sound.connections hdl).sequence.stamped_at place
    obtain ⟨tid, fetchedAt, fetched, _, _, stamping⟩ := made.fetched
    obtain ⟨delay, sells, buys, quoted, delayed, shown⟩ := made.shown clock
    cases returned.symm.trans shown
    exact ⟨tid, u, fetchedAt, rs, stamp, now, delay, sells, buys, fetched, made.book, stamping,
      first, readAt, delayed, quoted, rfl⟩

end

theorem sampleMarket_answers :
    Passable sampleFeed feedInflate feedFormat sampleMarket 1700000001000 where
  wellFormed := by
    intro readBuffer received book found
    cases received
    cases found
    exact .inr ⟨_, rfl, by rintro result ⟨⟩; exact .inr ⟨_, rfl⟩⟩
  quoted := by
    intro rs book
    cases (sampleMarket_bookOf_iff rs).mp book
    exact ⟨[⟨.numberUnsigned 101, .numberUnsigned 2, .sell⟩],
      [⟨.numberUnsigned 100, .numberUnsigned 1, .buy⟩], ⟨⟨_, rfl, rfl⟩, ⟨_, rfl, rfl⟩⟩⟩
  unstamped := by
    intro rs book
    cases (sampleMarket_bookOf_iff rs).mp book
    rfl
  carried := by
    intro rs stamp book stamping
    cases (sampleMarket_bookOf_iff rs).mp book
    exact sampleMarket_carried stamping

/-- One client from its connection to its second update. -/
def sampleFeeding : List FeedEvent :=
  [.server (.opened 0), .client 0 (.opened 1700000000000), .delivered 0 1700000000005] ++
    List.replicate 7 (.server (.run 0 sampleMarket 1700000001000)) ++
    [.arrived 0, .arrived 0, .client 0 (.read 1 1700000001004), .client 0 (.read 0 1700000001004)]

theorem sampleFeeding_fair (s : Feed) :
    Stepwise (Feeds sampleFeed feedInflate) (Fair sampleFeed feedInflate feedFormat) s
      sampleFeeding := by
  refine .of_forall fun e there s => ?_
  simp only [sampleFeeding, List.mem_append, List.mem_cons, List.mem_replicate,
    List.not_mem_nil, or_false] at there
  rcases there with ((rfl | rfl | rfl) | ⟨_, rfl⟩) | rfl | rfl | rfl | rfl
  · trivial
  · exact ⟨by decide, rfl, rfl⟩
  · exact (by decide : (0 : Int64) ≤ 1700000000005)
  · exact ⟨by decide, sampleMarket_answers⟩
  · trivial
  · trivial
  · exact (by decide : (0 : Int64) ≤ 1700000001004)
  · exact (by decide : (0 : Int64) ≤ 1700000001004)

theorem sampleFeeding_shown :
    ∃ s log, Trace (Recording (Feeds sampleFeed feedInflate) (feedFrames sampleFeed)) (.create, [])
        sampleFeeding (s, log) ∧
      (s.clients 0).readers.length = 2 ∧ (s.clients 0).down = none := by
  have followed : (follow (Feed.next sampleFeed feedInflate) .create sampleFeeding).any
      (fun s => (s.clients 0).readers.length == 2) := by decide +kernel
  obtain ⟨s, run, two⟩ := exists_trace_of_follow followed
  obtain ⟨log, recorded, _, each⟩ := feed_shows_upstream_books run (sampleFeeding_fair .create)
  exact ⟨s, log, recorded, beq_iff_eq.mp two, (each 0).1⟩

end DeribitTrading
