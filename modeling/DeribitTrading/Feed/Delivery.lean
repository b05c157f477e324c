import DeribitTrading.Feed.System

/-!
What goes over the wire in every run in which the clocks count from 1970 and the
answers of the upstream server can be passed on: none of them ends the server, a book
has rows of asks and bids and no `server_send_time` of its own, and the libraries carry
it to the client. A connection asks once and is served by one thread; each of its
updates is a book, and the client at its other end shows it.
-/
namespace DeribitTrading
open ByteString Runs Nlohmann

section
variable (L : Libraries) (inflate : Streaming.Codec) (F : Streaming.Format)

/-- What an answer of the upstream server has to be like for the feed to pass it on. -/
structure Passable (u : Upstream) (now : Int64) : Prop where
  -- any other answer that parses ends the server in `getOrderBook`
  wellFormed : ∀ readBuffer, u.body perpetual = some readBuffer →
    ∀ book, L.nlohmannParse readBuffer = some book → WellFormedBook book
  quoted : ∀ rs, BookOf L u perpetual rs → ∃ sells buys, Quoted rs sells buys
  -- the first update would be shown with the delay of this time
  unstamped : ∀ rs, BookOf L u perpetual rs →
    Members.lookup rs (bytes "server_send_time") = none
  carried : ∀ rs stamp, BookOf L u perpetual rs → stamp = none ∨ stamp = some now →
    Carried L inflate F (.object (bookSent u rs stamp))

/-- The conditions on the surroundings: every clock counts from 1970, every upstream
answer can be passed on, and the texts of an opening are read back. -/
def Fair (_ : Feed) : FeedEvent → Prop
  | .server (.run _ u now) => 0 ≤ now ∧ Passable L inflate F u now
  | .delivered _ receivedMillis => 0 ≤ receivedMillis
  | .client _ (.opened now) => 0 ≤ now ∧ ReadsOpening L now
  | .client _ (.read _ now) => 0 ≤ now
  | _ => True

variable (Seen : FeedEvent → Prop)

/-- An update with a book that was fetched in one of the events. -/
structure FrameOf (u : Upstream) (rs : Nlohmann.Members) (stamp : Option Int64) (frame : Bytes) :
    Prop where
  fetched : ∃ tid now, Seen (.server (.run tid u now)) ∧ 0 ≤ now ∧ Passable L inflate F u now ∧
    (stamp = none ∨ stamp = some now)
  book : BookOf L u perpetual rs
  made : updateOf L u perpetual stamp = .ok (some frame)

def Stamped (stamp : Option Int64) (frame : Bytes) : Prop :=
  ∃ u rs, FrameOf L inflate F Seen u rs stamp frame

/-- Only the first of the updates on a connection may be without the server's time. -/
def Sequence (frames : List Bytes) : Prop :=
  ∃ stamps, List.Forall₂ (Stamped L inflate F Seen) stamps frames ∧ none ∉ stamps.tail

/-- Where the thread of a connection stands when it has sent these frames. -/
inductive OnTrack : Stage → List Bytes → Prop
  | start : OnTrack .start []
  | fetch : OnTrack (.fetch perpetual) []
  | send {frame} : Stamped L inflate F Seen none frame → OnTrack (.send perpetual frame) []
  | check {frames} : Sequence L inflate F Seen frames → OnTrack (.check perpetual) frames
  | sleep {frames} : Sequence L inflate F Seen frames → OnTrack (.sleep perpetual) frames
  | refetch {frames} : Sequence L inflate F Seen frames → OnTrack (.refetch perpetual) frames
  | resend {frames frame now} : Sequence L inflate F Seen frames →
      Stamped L inflate F Seen (some now) frame → OnTrack (.resend perpetual frame) frames
  | done {frames} : Sequence L inflate F Seen frames → OnTrack .done frames

/-- A connection by its client's phase, its requests on their way, its threads and
the frames sent to it. -/
inductive Connection : Phase → List Bytes → List Thread → List Bytes → Prop
  | idle : Connection .fresh [] [] []
  | asking {phase payload} : phase ≠ .fresh → AsksForPerpetual L payload →
      Connection phase [payload] [] []
  | served {phase thread frames} : phase ≠ .fresh → AsksForPerpetual L thread.payload →
      0 ≤ thread.receivedMillis → OnTrack L inflate F Seen thread.stage frames →
      Connection phase [] [thread] frames

end

section
variable {L : Libraries} {inflate : Streaming.Codec} {F : Streaming.Format}
  {Seen : FeedEvent → Prop}

theorem Sequence.nil : Sequence L inflate F Seen [] := ⟨[], .nil, by simp⟩

theorem Sequence.single {stamp : Option Int64} {frame : Bytes}
    (stamped : Stamped L inflate F Seen stamp frame) : Sequence L inflate F Seen [frame] :=
  ⟨[stamp], .cons stamped .nil, by simp⟩

theorem Sequence.snoc {frames : List Bytes} {now : Int64} {frame : Bytes}
    (sequence : Sequence L inflate F Seen frames)
    (stamped : Stamped L inflate F Seen (some now) frame) :
    Sequence L inflate F Seen (frames ++ [frame]) := by
  obtain ⟨stamps, all, timed⟩ := sequence
  refine ⟨stamps ++ [some now], List.rel_append all (.cons stamped .nil), ?_⟩
  cases stamps with
  | nil => simp
  | cons first rest =>
      rw [List.cons_append, List.tail_cons, List.mem_append, List.mem_singleton, not_or]
      exact ⟨timed, nofun⟩

theorem OnTrack.sequence {stage : Stage} {frames : List Bytes}
    (track : OnTrack L inflate F Seen stage frames) : Sequence L inflate F Seen frames := by
  cases track with
  | start | fetch | send _ => exact .nil
  | check sequence | sleep sequence | refetch sequence | resend sequence _ | done sequence =>
      exact sequence

theorem Connection.sequence {phase : Phase} {requests : List Bytes} {threads : List Thread}
    {frames : List Bytes} (connection : Connection L inflate F Seen phase requests threads frames) :
    Sequence L inflate F Seen frames := by
  cases connection with
  | idle | asking _ _ => exact .nil
  | served _ _ _ track => exact track.sequence

theorem Sequence.stamped {frames : List Bytes} {frame : Bytes}
    (sequence : Sequence L inflate F Seen frames) (there : frame ∈ frames) :
    ∃ stamp, Stamped L inflate F Seen stamp frame := by
  obtain ⟨stamps, all, timed⟩ := sequence
  clear timed
  induction all with
  | nil => cases there
  | cons first _ ih =>
      rcases List.mem_cons.mp there with rfl | later
      · exact ⟨_, first⟩
      · exact ih later

/-- The delay that the client shows: none for an update without the server's time. -/
def Delayed (now : Int64) : Option Int64 → Option Int64 → Prop
  | none, delay => delay = none
  | some sent, delay => ∃ d, delay = some d ∧ d.toInt = now.toInt - sent.toInt

/-- The book is what the client shows, sells before buys. -/
theorem FrameOf.shown {u : Upstream} {rs : Nlohmann.Members} {stamp : Option Int64} {frame : Bytes}
    (made : FrameOf L inflate F Seen u rs stamp frame) {now : Int64} (clock : 0 ≤ now) :
    ∃ delay sells buys, Quoted rs sells buys ∧ Delayed now stamp delay ∧
      onMessage L inflate now frame =
        .ok (some ⟨delay, some u.processingLatency, (sells ++ buys).map Row.reread⟩) := by
  obtain ⟨_, fetchedAt, _, early, answers, stamping⟩ := made.fetched
  obtain ⟨sells, buys, quoted⟩ := answers.quoted rs made.book
  obtain ⟨z, sent, shown⟩ := update_shown made.book (answers.carried rs stamp made.book stamping)
  cases Option.some.inj (Except.ok.inj (made.made.symm.trans sent))
  obtain ⟨delay, delayed, read⟩ : ∃ delay, Delayed now stamp delay ∧
      delayShown now rs stamp = .ok delay := by
    cases stamp with
    | none =>
        have unstamped := answers.unstamped rs made.book
        exact ⟨none, rfl, by rw [delayShown, serverDelay_of_lookup, unstamped]; rfl⟩
    | some sentAt =>
        obtain same | same := stamping
        · cases same
        · cases same
          obtain ⟨d, between, value⟩ := delayBetween_of_nonneg clock early
          exact ⟨some d, ⟨d, rfl, value⟩, between⟩
  refine ⟨delay, sells, buys, quoted, delayed, ?_⟩
  have displays := displayOrderBook_of_quoted quoted
  simp only [onMessage, shown, read, displayed, ok_bind, displays]
  rfl

theorem readRequest_of_asks {thread : Thread} (asks : AsksForPerpetual L thread.payload)
    (clock : 0 ≤ thread.receivedMillis) :
    readRequest L thread.receivedMillis thread.payload = .ok (some perpetual) :=
  asks _ clock

theorem Passable.finishes {u : Upstream} {now : Int64} (answers : Passable L inflate F u now) :
    Finishes (getOrderBook L u perpetual) :=
  (getOrderBook_finishes_iff L u perpetual).mpr answers.wellFormed

theorem stamped_of_update {tid : Nat} {u : Upstream} {now : Int64}
    (fetched : Seen (.server (.run tid u now))) (clock : 0 ≤ now)
    (answers : Passable L inflate F u now) {stamp : Option Int64}
    (stamping : stamp = none ∨ stamp = some now) {frame : Bytes}
    (made : updateOf L u perpetual stamp = .ok (some frame)) :
    Stamped L inflate F Seen stamp frame := by
  obtain ⟨rs, book⟩ : HasBook L u perpetual := by
    obtain rfl | rfl := stamping
    · exact hasBook_of_firstUpdate made
    · exact hasBook_of_periodicUpdate made
  exact ⟨u, rs, ⟨tid, now, fetched, clock, answers, stamping⟩, book, made⟩

/-- A fetch does not throw: without a book there is nothing to send. -/
theorem Passable.update_finishes {u : Upstream} {now : Int64} (answers : Passable L inflate F u now)
    {stamp : Option Int64} (stamping : stamp = none ∨ stamp = some now) :
    Finishes (updateOf L u perpetual stamp) := by
  obtain ⟨book, got⟩ := answers.finishes
  obtain rfl | ⟨rs, book⟩ := hasBook_of_getOrderBook got
  · cases stamp with
    | none => simp [updateOf, firstUpdate, got, Json.empty, pure, Except.pure]
    | some now => simp [updateOf, periodicUpdate, got, Json.empty, pure, Except.pure]
  · obtain ⟨z, made, _⟩ := update_shown book (answers.carried rs stamp book stamping)
    exact ⟨_, made⟩

theorem OnTrack.goes {s : WebSocketServer} {tid : Nat} {u : Upstream} {now : Int64}
    {thread : Thread} {stage : Stage} {frames : List Bytes}
    (track : OnTrack L inflate F Seen thread.stage frames)
    (asks : AsksForPerpetual L thread.payload) (received : 0 ≤ thread.receivedMillis)
    (fetched : Seen (.server (.run tid u now))) (clock : 0 ≤ now)
    (answers : Passable L inflate F u now)
    (goes : Goes L s u now thread thread.stage stage) :
    OnTrack L inflate F Seen stage (frames ++ (thread.sent (.goes stage)).map Prod.snd) := by
  obtain ⟨hdl, payload, receivedMillis, here⟩ := thread
  simp only at track asks received goes
  simp only [Thread.sent]
  cases goes with
  | ignored read => cases read.symm.trans (asks _ received)
  | nothing _ | nothingNew _ =>
      rw [List.map_nil, List.append_nil]
      have sequence := track.sequence
      cases track
      exact .check sequence
  | listed _ =>
      rw [List.map_nil, List.append_nil]
      cases track with
      | check sequence => exact .sleep sequence
  | slept =>
      rw [List.map_nil, List.append_nil]
      cases track with
      | sleep sequence => exact .refetch sequence
  | unlisted _ =>
      rw [List.map_nil, List.append_nil]
      exact .done track.sequence
  | fetched made =>
      rw [List.map_nil, List.append_nil]
      cases track with
      | fetch => exact .send (stamped_of_update fetched clock answers (.inl rfl) made)
  | refetched made =>
      rw [List.map_nil, List.append_nil]
      cases track with
      | refetch sequence =>
          exact .resend sequence
            (stamped_of_update fetched clock answers (.inr rfl) made)
  | sent _ =>
      cases track with
      | send stamped => exact .check (.single stamped)
  | resent _ =>
      cases track with
      | resend sequence stamped => exact .check (sequence.snoc stamped)

/-- Only a `send` can end such a thread, and only on a connection that is not open. -/
theorem OnTrack.dies {s : WebSocketServer} {u : Upstream} {now : Int64} {thread : Thread}
    {frames : List Bytes} {fault : Fault} (track : OnTrack L inflate F Seen thread.stage frames)
    (asks : AsksForPerpetual L thread.payload) (received : 0 ≤ thread.receivedMillis)
    (answers : Passable L inflate F u now)
    (taken : s.turn L u now thread = some (.dies fault)) :
    fault = .badConnection ∧ s.phase thread.hdl ≠ .opened := by
  have fetches {stamp : Option Int64} (stamping : stamp = none ∨ stamp = some now)
      {sending : Bytes → Stage} (threw : WebSocketServer.fetched perpetual sending
        (updateOf L u perpetual stamp) = .dies fault) : False := by
    obtain ⟨found, made⟩ := answers.update_finishes stamping
    rw [made] at threw
    cases found <;> cases threw
  have sends {symbol : Bytes} (threw : s.sent thread.hdl symbol = .dies fault) :
      fault = .badConnection ∧ s.phase thread.hdl ≠ .opened := by
    unfold WebSocketServer.sent at threw
    split at threw
    · cases threw
    · next notOpen =>
      cases threw
      exact ⟨rfl, notOpen⟩
  unfold WebSocketServer.turn at taken
  cases stage : thread.stage with
  | start =>
      simp only [stage, readRequest_of_asks asks received] at taken
      cases taken
  | fetch symbol =>
      simp only [stage] at track taken
      cases track
      exact (fetches (.inl rfl) (Option.some.inj taken)).elim
  | refetch symbol =>
      simp only [stage] at track taken
      cases track
      exact (fetches (.inr rfl) (Option.some.inj taken)).elim
  | send symbol update | resend symbol update =>
      simp only [stage] at taken
      exact sends (Option.some.inj taken)
  | check symbol =>
      simp only [stage] at taken
      split at taken <;> cases taken
  | sleep symbol | done =>
      simp only [stage] at taken
      cases taken

end

end DeribitTrading
