import DeribitTrading.Library.Interleaving
import DeribitTrading.WebSocketClient.Client

/-!
The feed as a whole: one `WebSocketServer`, a `WebSocketClient` at the other end of
each connection, and between them what is on its way, in the order in which it was
sent. The server and the clients take their own events; a message is received when
it comes off the wire, and at no other time.
-/
namespace DeribitTrading
open ByteString Runs

/-- `requests` go to the server and `updates` to the clients. -/
structure Feed where
  server : WebSocketServer
  clients : Hdl → WebSocketClient
  requests : Hdl → List Bytes
  updates : Hdl → List Bytes

inductive FeedEvent where
  | server (e : Event)
  | delivered (hdl : Hdl) (receivedMillis : Int64)
  | client (hdl : Hdl) (e : ClientEvent)
  | arrived (hdl : Hdl)

def Event.isMessage : Event → Bool
  | .message _ _ _ => true
  | _ => false

def ClientEvent.isMessage : ClientEvent → Bool
  | .message _ => true
  | _ => false

/-- What a thread's turn puts on the wire: a `send` that did not throw. -/
def Thread.sent (thread : Thread) : Turn → List (Hdl × Bytes)
  | .goes _ =>
      match thread.stage with
      | .send _ update | .resend _ update => [(thread.hdl, update)]
      | _ => []
  | .subscribes _ | .dies _ => []

def framesSent (L : Libraries) (s : WebSocketServer) : Event → List (Hdl × Bytes)
  | .run tid u now =>
      match s.threads[tid]? with
      | some thread => ((s.turn L u now thread).map thread.sent).getD []
      | none => []
  | _ => []

/-- Of what was sent, in the order of the sends, what went to one connection. -/
def framesFor (frames : List (Hdl × Bytes)) (hdl : Hdl) : List Bytes :=
  (frames.filter fun frame => frame.1 == hdl).map Prod.snd

namespace Feed

def create : Feed := ⟨.create, fun _ => .create, fun _ => [], fun _ => []⟩

def next (L : Libraries) (inflate : Streaming.Codec) (s : Feed) : FeedEvent → Option Feed
  | .server e => do
      if e.isMessage then none
      else
        let server ← s.server.next L e
        let frames := framesSent L s.server e
        return { s with
          server := server
          updates := fun hdl => s.updates hdl ++ framesFor frames hdl }
  | .delivered hdl receivedMillis =>
      match s.requests hdl with
      | [] => none
      | payload :: rest => do
          let server ← s.server.next L (.message hdl payload receivedMillis)
          return { s with server := server, requests := Function.update s.requests hdl rest }
  | .client hdl e => do
      if e.isMessage then none
      else
        let (client, sent) ← (s.clients hdl).next L inflate e
        return { s with
          clients := Function.update s.clients hdl client
          requests := Function.update s.requests hdl (s.requests hdl ++ sent) }
  | .arrived hdl =>
      match s.updates hdl with
      | [] => none
      | payload :: rest => do
          let (client, _) ← (s.clients hdl).next L inflate (.message payload)
          return { s with
            clients := Function.update s.clients hdl client
            updates := Function.update s.updates hdl rest }

end Feed

/-- One event of the feed. -/
abbrev Feeds (L : Libraries) (inflate : Streaming.Codec) : Feed → FeedEvent → Feed → Prop :=
  Takes (Feed.next L inflate)

/-- The frames that an event of the feed sends to the clients. -/
def feedFrames (L : Libraries) (s : Feed) : FeedEvent → List (Hdl × Bytes)
  | .server e => framesSent L s.server e
  | .delivered _ _ | .client _ _ | .arrived _ => []

/-- Everything that an event of the feed can do. -/
inductive Fed (L : Libraries) (inflate : Streaming.Codec) (s : Feed) : FeedEvent → Feed → Prop
  | server {e server} : e.isMessage = false → Serves L s.server e server →
      Fed L inflate s (.server e) { s with
        server := server
        updates := fun hdl => s.updates hdl ++ framesFor (framesSent L s.server e) hdl }
  | delivered {hdl receivedMillis payload rest server} : s.requests hdl = payload :: rest →
      Serves L s.server (.message hdl payload receivedMillis) server →
      Fed L inflate s (.delivered hdl receivedMillis)
        { s with server := server, requests := Function.update s.requests hdl rest }
  | client {hdl e client sent} : e.isMessage = false → (s.clients hdl).down = none →
      Handled L inflate (s.clients hdl) e client sent →
      Fed L inflate s (.client hdl e) { s with
        clients := Function.update s.clients hdl client
        requests := Function.update s.requests hdl (s.requests hdl ++ sent) }
  | arrived {hdl payload rest} : s.updates hdl = payload :: rest →
      (s.clients hdl).down = none → (s.clients hdl).phase = .opened →
      Fed L inflate s (.arrived hdl) { s with
        clients := Function.update s.clients hdl ((s.clients hdl).onMessage payload)
        updates := Function.update s.updates hdl rest }

theorem Feeds.cases {L : Libraries} {inflate : Streaming.Codec} {s t : Feed} {e : FeedEvent}
    (step : Feeds L inflate s e t) : Fed L inflate s e t := by
  unfold Feeds Takes Feed.next at step
  cases e with
  | server e =>
      obtain ⟨other, step⟩ := Option.ite_none_left_eq_some.mp step
      obtain ⟨server, taken, same⟩ := Option.bind_eq_some_iff.mp step
      cases same
      exact .server (Bool.eq_false_iff.mpr other) taken
  | delivered hdl receivedMillis =>
      cases waiting : s.requests hdl with
      | nil => simp [waiting] at step
      | cons payload rest =>
          simp only [waiting] at step
          obtain ⟨server, taken, same⟩ := Option.bind_eq_some_iff.mp step
          cases same
          exact .delivered waiting taken
  | client hdl e =>
      obtain ⟨other, step⟩ := Option.ite_none_left_eq_some.mp step
      obtain ⟨⟨client, sent⟩, taken, same⟩ := Option.bind_eq_some_iff.mp step
      cases same
      obtain ⟨up, handled⟩ := WebSocketClient.next_cases taken
      exact .client (Bool.eq_false_iff.mpr other) up handled
  | arrived hdl =>
      cases waiting : s.updates hdl with
      | nil => simp [waiting] at step
      | cons payload rest =>
          simp only [waiting] at step
          obtain ⟨⟨client, sent⟩, taken, same⟩ := Option.bind_eq_some_iff.mp step
          cases same
          obtain ⟨up, handled⟩ := WebSocketClient.next_cases taken
          cases handled with
          | message isOpen => exact .arrived waiting up isOpen

end DeribitTrading
