import DeribitTrading.Server.System
import DeribitTrading.WebSocketClient.Updates

/-!
`WebSocketClient` as a process: the handlers that its `run` loop calls, and the
detached threads of `on_message`, each of which reads the clock when it runs. A
failure that leaves a handler or a thread ends the process.
-/
namespace DeribitTrading
open ByteString Numbers Nlohmann

/-- A thread of `on_message`: the message that it captured and, once it has run,
what it has shown, or `none` for its `catch` block. -/
structure Reader where
  payload : Bytes
  result : Option (Option Shown)

structure WebSocketClient where
  phase : Phase
  readers : List Reader
  down : Option Fault

inductive ClientEvent where
  | opened (now : Int64)
  | message (payload : Bytes)
  | read (rid : Nat) (now : Int64)
  | closed
  | exited

namespace WebSocketClient

def create : WebSocketClient := ⟨.fresh, [], none⟩

def enter (c : WebSocketClient) (phase : Phase) : WebSocketClient := { c with phase := phase }

def fail (c : WebSocketClient) (fault : Fault) : WebSocketClient := { c with down := some fault }

def onMessage (c : WebSocketClient) (payload : Bytes) : WebSocketClient :=
  { c with readers := c.readers ++ [⟨payload, none⟩] }

/-- What goes out through `m_hdl`, or what leaves `on_open`. -/
def onOpen (L : Libraries) (c : WebSocketClient) (now : Int64) : WebSocketClient × List Bytes :=
  match onOpenMessage L now with
  | .ok payload => (c.enter .opened, [payload])
  | .error fault => ((c.enter .opened).fail fault, [])

def settle (c : WebSocketClient) (rid : Nat) (reader : Reader) (result : Option Shown) :
    WebSocketClient :=
  { c with readers := c.readers.set rid { reader with result := some result } }

def finish (c : WebSocketClient) (rid : Nat) (reader : Reader) :
    Outcome (Option Shown) → WebSocketClient
  | .ok result => c.settle rid reader result
  | .error fault => c.fail fault

def next (L : Libraries) (inflate : Streaming.Codec) (c : WebSocketClient) (e : ClientEvent) :
    Option (WebSocketClient × List Bytes) :=
  if c.down.isSome then none else
  match e with
  | .opened now => if c.phase = .fresh then some (c.onOpen L now) else none
  | .message payload => if c.phase = .opened then some (c.onMessage payload, []) else none
  | .read rid now => do
      let reader ← c.readers[rid]?
      if reader.result.isSome || c.phase = .destroyed then none
      else
        return (c.finish rid reader
          (DeribitTrading.onMessage L inflate now reader.payload), [])
  | .closed => if c.phase = .opened then some (c.enter .closed, []) else none
  | .exited => if c.phase = .closed then some (c.enter .destroyed, []) else none

end WebSocketClient

/-- Everything that an event of the client can do, with what it sends. -/
inductive Handled (L : Libraries) (inflate : Streaming.Codec) (c : WebSocketClient) :
    ClientEvent → WebSocketClient → List Bytes → Prop
  | opened {now payload} : c.phase = .fresh → onOpenMessage L now = .ok payload →
      Handled L inflate c (.opened now) (c.enter .opened) [payload]
  | failed {now fault} : c.phase = .fresh → onOpenMessage L now = .error fault →
      Handled L inflate c (.opened now) ((c.enter .opened).fail fault) []
  | message {payload} : c.phase = .opened →
      Handled L inflate c (.message payload) (c.onMessage payload) []
  | read {rid now reader result} : c.readers[rid]? = some reader → reader.result = none →
      onMessage L inflate now reader.payload = .ok result →
      Handled L inflate c (.read rid now) (c.settle rid reader result) []
  | died {rid now reader fault} : c.readers[rid]? = some reader → reader.result = none →
      onMessage L inflate now reader.payload = .error fault →
      Handled L inflate c (.read rid now) (c.fail fault) []
  | closed : c.phase = .opened → Handled L inflate c .closed (c.enter .closed) []
  | exited : c.phase = .closed → Handled L inflate c .exited (c.enter .destroyed) []

theorem WebSocketClient.next_cases {L : Libraries} {inflate : Streaming.Codec}
    {c d : WebSocketClient} {e : ClientEvent} {sent : List Bytes}
    (taken : c.next L inflate e = some (d, sent)) :
    c.down = none ∧ Handled L inflate c e d sent := by
  unfold WebSocketClient.next at taken
  cases down : c.down with
  | some fault => simp [down] at taken
  | none =>
      refine ⟨rfl, ?_⟩
      rw [down, Option.isSome_none, if_neg Bool.false_ne_true] at taken
      cases e with
      | opened now =>
          obtain ⟨fresh, same⟩ := Option.ite_none_right_eq_some.mp taken
          unfold onOpen at same
          cases opening : onOpenMessage L now with
          | ok payload =>
              rw [opening] at same
              cases same
              exact .opened fresh opening
          | error fault =>
              rw [opening] at same
              cases same
              exact .failed fresh opening
      | message payload =>
          obtain ⟨isOpen, same⟩ := Option.ite_none_right_eq_some.mp taken
          cases same
          exact .message isOpen
      | read rid now =>
          obtain ⟨reader, here, taken⟩ := Option.bind_eq_some_iff.mp taken
          obtain ⟨waiting, same⟩ := Option.ite_none_left_eq_some.mp taken
          have unread : reader.result = none := by
            cases result : reader.result with
            | none => rfl
            | some _ => simp [result] at waiting
          cases returned : DeribitTrading.onMessage L inflate now reader.payload with
          | ok result =>
              rw [returned] at same
              cases same
              exact .read here unread returned
          | error fault =>
              rw [returned] at same
              cases same
              exact .died here unread returned
      | closed =>
          obtain ⟨isOpen, same⟩ := Option.ite_none_right_eq_some.mp taken
          cases same
          exact .closed isOpen
      | exited =>
          obtain ⟨isClosed, same⟩ := Option.ite_none_right_eq_some.mp taken
          cases same
          exact .exited isClosed

end DeribitTrading
