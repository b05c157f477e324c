import Mathlib.Data.List.AList
import DeribitTrading.Library.Runs
import DeribitTrading.Server.Request

/-!
`WebSocketServer` with any number of connections and of detached threads, one
for each message. An event is one handler body or one turn of a thread, which
takes it over at most one operation that the others can see. A failure that
leaves a detached thread ends the process, and so does an undefined operation.
-/
namespace DeribitTrading
open ByteString Runs

/-- A `connection_hdl`; it is weak, and may outlive its connection. -/
abbrev Hdl := Nat

inductive Phase where
  | fresh
  | opened
  | closed
  | destroyed
  deriving DecidableEq, Repr

/-- `on_close` has run. -/
def Phase.ended : Phase → Bool
  | .closed | .destroyed => true
  | .fresh | .opened => false

theorem Phase.not_ended_of_opened {phase : Phase} (isOpen : phase = .opened) :
    phase.ended = false := by
  rw [isOpen]
  rfl

/-- Where a thread of `on_message` stands. From `check` to `resend` it is in the
loop of `send_order_book_updates`. -/
inductive Stage where
  | start
  | fetch (symbol : Bytes)
  | send (symbol update : Bytes)
  | check (symbol : Bytes)
  | sleep (symbol : Bytes)
  | refetch (symbol : Bytes)
  | resend (symbol update : Bytes)
  | done
  deriving DecidableEq, Repr

/-- The next operation is `m_server.send`. -/
def Stage.sending : Stage → Bool
  | .send _ _ | .resend _ _ => true
  | _ => false

/-- What the lambda captured, and how far it is. -/
structure Thread where
  hdl : Hdl
  payload : Bytes
  receivedMillis : Int64
  stage : Stage

/-- `down` is the exception that ended the process, if one did. -/
structure WebSocketServer where
  phase : Hdl → Phase
  subscriptions : AList fun _ : Option Hdl => Bytes
  threads : List Thread
  down : Option Fault

inductive Event where
  | opened (hdl : Hdl)
  | message (hdl : Hdl) (payload : Bytes) (receivedMillis : Int64)
  | closed (hdl : Hdl)
  | destroyed (hdl : Hdl)
  | run (tid : Nat) (upstream : Upstream) (now : Int64)

/-- What a thread does with its turn. -/
inductive Turn where
  | goes (stage : Stage)
  | subscribes (symbol : Bytes)
  | dies (fault : Fault)

namespace WebSocketServer

def create : WebSocketServer := ⟨fun _ => .fresh, ∅, [], none⟩

/-- `hdl.lock().get()`, by which the table hashes and compares its keys: all
handles of destroyed connections are one key. -/
def lock (s : WebSocketServer) (hdl : Hdl) : Option Hdl :=
  if s.phase hdl = .destroyed then none else some hdl

def enter (s : WebSocketServer) (hdl : Hdl) (phase : Phase) : WebSocketServer :=
  { s with phase := Function.update s.phase hdl phase }

def subscribe (s : WebSocketServer) (hdl : Hdl) (symbol : Bytes) : WebSocketServer :=
  { s with subscriptions := s.subscriptions.insert (s.lock hdl) symbol }

def onOpen (s : WebSocketServer) (hdl : Hdl) : WebSocketServer := s.subscribe hdl []

def onClose (s : WebSocketServer) (hdl : Hdl) : WebSocketServer :=
  { s with subscriptions := s.subscriptions.erase (s.lock hdl) }

def onMessage (s : WebSocketServer) (hdl : Hdl) (payload : Bytes) (receivedMillis : Int64) :
    WebSocketServer :=
  { s with threads := s.threads ++ [⟨hdl, payload, receivedMillis, .start⟩] }

def move (s : WebSocketServer) (tid : Nat) (thread : Thread) (stage : Stage) :
    WebSocketServer :=
  { s with threads := s.threads.set tid { thread with stage := stage } }

/-- An update to send, nothing to send, or an exception. -/
def fetched (symbol : Bytes) (sending : Bytes → Stage) : Outcome (Option Bytes) → Turn
  | .error fault => .dies fault
  | .ok none => .goes (.check symbol)
  | .ok (some update) => .goes (sending update)

/-- `send` on a closed handle throws. -/
def sent (s : WebSocketServer) (hdl : Hdl) (symbol : Bytes) : Turn :=
  if s.phase hdl = .opened then .goes (.check symbol) else .dies .badConnection

def turn (L : Libraries) (s : WebSocketServer) (u : Upstream) (now : Int64) (thread : Thread) :
    Option Turn :=
  match thread.stage with
  | .start =>
      match readRequest L thread.receivedMillis thread.payload with
      | .error fault => some (.dies fault)
      | .ok none => some (.goes .done)
      | .ok (some symbol) => some (.subscribes symbol)
  | .fetch symbol => some (fetched symbol (.send symbol) (firstUpdate L u symbol))
  | .send symbol _ => some (s.sent thread.hdl symbol)
  | .check symbol =>
      if s.lock thread.hdl ∈ s.subscriptions then some (.goes (.sleep symbol))
      else some (.goes .done)
  | .sleep symbol => some (.goes (.refetch symbol))
  | .refetch symbol => some (fetched symbol (.resend symbol) (periodicUpdate L u now symbol))
  | .resend symbol _ => some (s.sent thread.hdl symbol)
  | .done => none

def take (s : WebSocketServer) (tid : Nat) (thread : Thread) : Turn → WebSocketServer
  | .goes stage => s.move tid thread stage
  | .subscribes symbol => (s.subscribe thread.hdl symbol).move tid thread (.fetch symbol)
  | .dies fault => { s with down := some fault }

def next (L : Libraries) (s : WebSocketServer) (e : Event) : Option WebSocketServer :=
  if s.down.isSome then none else
  match e with
  | .opened hdl =>
      if s.phase hdl = .fresh then some ((s.enter hdl .opened).onOpen hdl) else none
  | .message hdl payload receivedMillis =>
      if s.phase hdl = .opened then some (s.onMessage hdl payload receivedMillis) else none
  | .closed hdl =>
      if s.phase hdl = .opened then some ((s.enter hdl .closed).onClose hdl) else none
  | .destroyed hdl => if s.phase hdl = .closed then some (s.enter hdl .destroyed) else none
  | .run tid u now => do
      let thread ← s.threads[tid]?
      let turn ← s.turn L u now thread
      return s.take tid thread turn

theorem phase_enter (s : WebSocketServer) (hdl : Hdl) (phase : Phase) (other : Hdl)
    (phase' : Phase) :
    (s.enter hdl phase).phase other = phase' ↔
      (other = hdl ∧ phase = phase') ∨ (other ≠ hdl ∧ s.phase other = phase') := by
  by_cases same : other = hdl
  · simp [enter, same]
  · simp [enter, same]

theorem ended_enter (s : WebSocketServer) (hdl : Hdl) (phase : Phase) (other : Hdl) :
    ((s.enter hdl phase).phase other).ended ↔
      (other = hdl ∧ phase.ended) ∨ (other ≠ hdl ∧ (s.phase other).ended) := by
  by_cases same : other = hdl
  · simp [enter, same]
  · simp [enter, same]

theorem lock_of_not_ended (s : WebSocketServer) {hdl : Hdl} (alive : (s.phase hdl).ended = false) :
    s.lock hdl = some hdl := by
  refine if_neg fun destroyed => ?_
  rw [destroyed] at alive
  cases alive

theorem lock_enter (s : WebSocketServer) (hdl : Hdl) {phase : Phase}
    (present : phase ≠ .destroyed) : (s.enter hdl phase).lock hdl = some hdl := by
  simp [lock, enter, present]

theorem lookup_subscribe (s : WebSocketServer) {hdl : Hdl}
    (alive : (s.phase hdl).ended = false) (symbol : Bytes) :
    (s.subscribe hdl symbol).subscriptions.lookup (some hdl) = some symbol := by
  simp only [subscribe, s.lock_of_not_ended alive, AList.lookup_insert]

theorem lookup_subscribe_of_ne (s : WebSocketServer) {hdl other : Hdl} (different : other ≠ hdl)
    (symbol : Bytes) :
    (s.subscribe hdl symbol).subscriptions.lookup (some other) =
      s.subscriptions.lookup (some other) := by
  refine AList.lookup_insert_ne ?_
  unfold lock
  split <;> simp [different]

theorem mem_move (s : WebSocketServer) {tid : Nat} {thread other : Thread} {stage : Stage}
    (member : other ∈ (s.move tid thread stage).threads) :
    other ∈ s.threads ∨ other = { thread with stage := stage } :=
  List.mem_or_eq_of_mem_set member

end WebSocketServer

/-- One event of the server. -/
abbrev Serves (L : Libraries) : WebSocketServer → Event → WebSocketServer → Prop :=
  Takes (WebSocketServer.next L)

/-- How a thread can get from one stage to another without subscribing. -/
inductive Goes (L : Libraries) (s : WebSocketServer) (u : Upstream) (now : Int64)
    (thread : Thread) : Stage → Stage → Prop
  | ignored : readRequest L thread.receivedMillis thread.payload = .ok none →
      Goes L s u now thread .start .done
  | nothing {symbol} : firstUpdate L u symbol = .ok none →
      Goes L s u now thread (.fetch symbol) (.check symbol)
  | fetched {symbol update} : firstUpdate L u symbol = .ok (some update) →
      Goes L s u now thread (.fetch symbol) (.send symbol update)
  | sent {symbol update} : s.phase thread.hdl = .opened →
      Goes L s u now thread (.send symbol update) (.check symbol)
  | listed {symbol} : s.lock thread.hdl ∈ s.subscriptions →
      Goes L s u now thread (.check symbol) (.sleep symbol)
  | unlisted {symbol} : s.lock thread.hdl ∉ s.subscriptions →
      Goes L s u now thread (.check symbol) .done
  | slept {symbol} : Goes L s u now thread (.sleep symbol) (.refetch symbol)
  | nothingNew {symbol} : periodicUpdate L u now symbol = .ok none →
      Goes L s u now thread (.refetch symbol) (.check symbol)
  | refetched {symbol update} : periodicUpdate L u now symbol = .ok (some update) →
      Goes L s u now thread (.refetch symbol) (.resend symbol update)
  | resent {symbol update} : s.phase thread.hdl = .opened →
      Goes L s u now thread (.resend symbol update) (.check symbol)

theorem fetched_eq_goes {symbol : Bytes} {sending : Bytes → Stage}
    {found : Outcome (Option Bytes)} {stage : Stage}
    (taken : WebSocketServer.fetched symbol sending found = .goes stage) :
    (found = .ok none ∧ stage = .check symbol) ∨
      ∃ update, found = .ok (some update) ∧ stage = sending update := by
  match found with
  | .error fault => cases taken
  | .ok none =>
      cases taken
      exact .inl ⟨rfl, rfl⟩
  | .ok (some update) =>
      cases taken
      exact .inr ⟨update, rfl, rfl⟩

theorem sent_eq_goes {s : WebSocketServer} {hdl : Hdl} {symbol : Bytes} {stage : Stage}
    (taken : s.sent hdl symbol = .goes stage) :
    s.phase hdl = .opened ∧ stage = .check symbol := by
  unfold WebSocketServer.sent at taken
  split at taken
  · next isOpen =>
    cases taken
    exact ⟨isOpen, rfl⟩
  · cases taken

theorem turn_eq_goes {L : Libraries} {s : WebSocketServer} {u : Upstream} {now : Int64}
    {thread : Thread} {stage' : Stage} (taken : s.turn L u now thread = some (.goes stage')) :
    Goes L s u now thread thread.stage stage' := by
  unfold WebSocketServer.turn at taken
  cases stage : thread.stage with
  | start =>
      simp only [stage] at taken
      split at taken
      · cases taken
      · next read =>
        cases taken
        exact .ignored read
      · cases taken
  | fetch symbol =>
      simp only [stage, Option.some.injEq] at taken
      obtain ⟨empty, rfl⟩ | ⟨update, found, rfl⟩ := fetched_eq_goes taken
      · exact .nothing empty
      · exact .fetched found
  | send symbol update =>
      simp only [stage, Option.some.injEq] at taken
      obtain ⟨isOpen, rfl⟩ := sent_eq_goes taken
      exact .sent isOpen
  | check symbol =>
      simp only [stage] at taken
      split at taken
      · next listed =>
        cases taken
        exact .listed listed
      · next unlisted =>
        cases taken
        exact .unlisted unlisted
  | sleep symbol =>
      simp only [stage] at taken
      cases taken
      exact .slept
  | refetch symbol =>
      simp only [stage, Option.some.injEq] at taken
      obtain ⟨empty, rfl⟩ | ⟨update, found, rfl⟩ := fetched_eq_goes taken
      · exact .nothingNew empty
      · exact .refetched found
  | resend symbol update =>
      simp only [stage, Option.some.injEq] at taken
      obtain ⟨isOpen, rfl⟩ := sent_eq_goes taken
      exact .resent isOpen
  | done => simp [stage] at taken

theorem fetched_ne_subscribes {symbol symbol' : Bytes} {sending : Bytes → Stage}
    (found : Outcome (Option Bytes)) :
    WebSocketServer.fetched symbol sending found ≠ .subscribes symbol' := by
  match found with
  | .error _ | .ok none | .ok (some _) => exact nofun

theorem sent_ne_subscribes {s : WebSocketServer} {hdl : Hdl} {symbol symbol' : Bytes} :
    s.sent hdl symbol ≠ .subscribes symbol' := by
  unfold WebSocketServer.sent
  split <;> exact nofun

/-- Only a thread that has just read its message subscribes, and to what that asks for. -/
theorem turn_eq_subscribes {L : Libraries} {s : WebSocketServer} {u : Upstream} {now : Int64}
    {thread : Thread} {symbol : Bytes}
    (taken : s.turn L u now thread = some (.subscribes symbol)) :
    thread.stage = .start ∧ AsksFor L thread.receivedMillis thread.payload symbol := by
  unfold WebSocketServer.turn at taken
  cases stage : thread.stage with
  | start =>
      refine ⟨rfl, (readRequest_eq_some_iff ..).mp ?_⟩
      simp only [stage] at taken
      split at taken
      · cases taken
      · cases taken
      · next read =>
        cases taken
        exact read
  | fetch _ | refetch _ =>
      simp only [stage, Option.some.injEq] at taken
      exact absurd taken (fetched_ne_subscribes _)
  | send _ _ | resend _ _ =>
      simp only [stage, Option.some.injEq] at taken
      exact absurd taken sent_ne_subscribes
  | check _ =>
      simp only [stage] at taken
      split at taken <;> cases taken
  | sleep _ | done =>
      simp only [stage] at taken
      cases taken

/-- Everything that an event can do. -/
inductive Served (L : Libraries) (s : WebSocketServer) : Event → WebSocketServer → Prop
  | opened {hdl} : s.phase hdl = .fresh →
      Served L s (.opened hdl) ((s.enter hdl .opened).onOpen hdl)
  | message {hdl payload receivedMillis} : s.phase hdl = .opened →
      Served L s (.message hdl payload receivedMillis) (s.onMessage hdl payload receivedMillis)
  | closed {hdl} : s.phase hdl = .opened →
      Served L s (.closed hdl) ((s.enter hdl .closed).onClose hdl)
  | destroyed {hdl} : s.phase hdl = .closed →
      Served L s (.destroyed hdl) (s.enter hdl .destroyed)
  | goes {tid u now thread stage} : s.threads[tid]? = some thread →
      s.turn L u now thread = some (.goes stage) →
      Served L s (.run tid u now) (s.move tid thread stage)
  | subscribes {tid u now thread symbol} : s.threads[tid]? = some thread →
      s.turn L u now thread = some (.subscribes symbol) →
      Served L s (.run tid u now)
        ((s.subscribe thread.hdl symbol).move tid thread (.fetch symbol))
  | dies {tid u now thread fault} : s.threads[tid]? = some thread →
      s.turn L u now thread = some (.dies fault) →
      Served L s (.run tid u now) { s with down := some fault }

/-- A server that is down takes no event; else the event did one of these. -/
theorem Serves.cases {L : Libraries} {s t : WebSocketServer} {e : Event} (step : Serves L s e t) :
    s.down = none ∧ Served L s e t := by
  unfold Serves Takes WebSocketServer.next at step
  cases down : s.down with
  | some fault => simp [down] at step
  | none =>
      refine ⟨rfl, ?_⟩
      rw [down, Option.isSome_none, if_neg Bool.false_ne_true] at step
      cases e with
      | opened hdl =>
          obtain ⟨fresh, same⟩ := Option.ite_none_right_eq_some.mp step
          cases same
          exact .opened fresh
      | message hdl payload receivedMillis =>
          obtain ⟨isOpen, same⟩ := Option.ite_none_right_eq_some.mp step
          cases same
          exact .message isOpen
      | closed hdl =>
          obtain ⟨isOpen, same⟩ := Option.ite_none_right_eq_some.mp step
          cases same
          exact .closed isOpen
      | destroyed hdl =>
          obtain ⟨isClosed, same⟩ := Option.ite_none_right_eq_some.mp step
          cases same
          exact .destroyed isClosed
      | run tid u now =>
          obtain ⟨thread, here, step⟩ := Option.bind_eq_some_iff.mp step
          obtain ⟨turn, taken, step⟩ := Option.bind_eq_some_iff.mp step
          cases step
          cases turn with
          | goes stage => exact .goes here taken
          | subscribes symbol => exact .subscribes here taken
          | dies fault => exact .dies here taken

end DeribitTrading
