import DeribitTrading.Client.MarketData
import DeribitTrading.Client.TokenCache
import DeribitTrading.Exchange.Network

/-!
What a run of the client sends, whatever the network answers: for each errand the
attempts of its own request, made with the token it was given and with nothing
left over of an earlier request.
-/
namespace DeribitTrading
open ByteString Runs OrderAPI

variable {ω : Type}

/-- The network, with each transfer on record: its options and its code. -/
def Network.recording (net : Network ω) : Network (ω × List (CurlOptions × CURLcode)) where
  perform o w :=
    let (transfer, v) := net.perform o w.1
    (transfer, v, w.2 ++ [(o, transfer.code)])

/-- The codes of a request that may be repeated so often. -/
inductive Repeats : Nat → List CURLcode → Prop
  | ok (left : Nat) : Repeats left [.ok]
  | last (code : Nat) : Repeats 0 [.failed code]
  | again {left : Nat} {codes : List CURLcode} (code : Nat) : Repeats left codes →
      Repeats (left + 1) (.failed code :: codes)

inductive Demand where
  | call (c : Call)
  | book (symbol : Bytes)

structure Errand where
  demand : Demand
  ctx : CallContext

namespace Errand

def url (errand : Errand) : Bytes :=
  match errand.demand with
  | .call c => c.url
  | .book symbol => orderBookUrl symbol

/-- The reading of the clock and of the token endpoint, for a request that needs them. -/
def clock (errand : Errand) : Option TokenClock :=
  match errand.demand with
  | .call _ => some errand.ctx.token
  | .book _ => none

/-- The exception of the errand, and what it leaves behind. -/
def perform (L : Libraries) (net : Network ω) (errand : Errand) (s : OrderAPI) (w : ω) :
    Option Fault × OrderAPI × ω :=
  match errand.demand with
  | .call c =>
      match c.perform L net errand.ctx s w with
      | (.ok _, t) => (none, t)
      | (.error f, t) => (some f, t)
  | .book symbol =>
      match s.getOrderBook L net errand.ctx symbol w with
      | (.ok _, t) => (none, t)
      | (.error f, t) => (some f, t)

/-- The errand comes to its end without an exception. -/
def Returns (L : Libraries) (net : Network ω) (a : OrderAPI × ω) (errand : Errand)
    (b : OrderAPI × ω) : Prop :=
  errand.perform L net a.1 a.2 = (none, b)

end Errand

/-- The client, the network, and the fault that has ended the process. -/
structure Wired (ω : Type) where
  client : OrderAPI
  world : ω
  down : Option Fault

def Wired.next (L : Libraries) (net : Network ω) (s : Wired ω) (errand : Errand) :
    Option (Wired ω) :=
  if s.down = none then
    let (thrown, client, world) := errand.perform L net s.client s.world
    some ⟨client, world, thrown.filter Fault.fatal⟩
  else none

/-- What one errand puts on the wire: the call of `getAccessToken` it has made, if any,
and the codes of its attempts. -/
structure Sending where
  errand : Errand
  grant : Option TokenCall
  codes : List CURLcode

namespace Sending

/-- The token that the request carries; the fetch of an order book has the empty one. -/
def token (x : Sending) : Outcome Bytes := x.grant.elim (.ok []) TokenCall.returned

/-- There is an attempt if there is a token and a handle, and another one after a failure. -/
def Attempted (handles : List Handle) (x : Sending) : Prop :=
  match x.token with
  | .ok _ => if handles = [] then x.codes = [] else Repeats (maxRetries - 1) x.codes
  | .error _ => x.codes = []

def transfers (x : Sending) : List (CurlOptions × CURLcode) :=
  match x.token with
  | .ok accessToken =>
      x.codes.map fun code =>
        (requestOptions setupCurlOptions x.errand.url accessToken x.errand.ctx.readBuffer, code)
  | .error _ => []

end Sending

theorem Sending.Attempted.codes {handles : List Handle} {x : Sending}
    (attempted : x.Attempted handles) (token : Finishes x.token) :
    if handles = [] then x.codes = [] else Repeats (maxRetries - 1) x.codes := by
  obtain ⟨accessToken, given⟩ := token
  simpa only [Sending.Attempted, given] using attempted

theorem Sending.transfers_of_codes {x : Sending} (none : x.codes = []) : x.transfers = [] := by
  unfold Sending.transfers
  rw [none]
  split <;> rfl

/-! ## One request -/

theorem performAttempts_recorded (net : Network ω) (o : CurlOptions) (left : Nat)
    (response : Bytes) (w : ω) (log : List (CurlOptions × CURLcode)) :
    ∃ codes, Repeats left codes ∧
      (performAttempts net.recording o left response (w, log)).2.2.2 =
        log ++ codes.map fun code => (o, code) := by
  induction left generalizing response w log with
  | zero =>
      rw [performAttempts]
      rcases ended : (net.perform o w).1.code with _ | code
      · refine ⟨[.ok], .ok 0, ?_⟩
        simp only [Network.recording, ended]
        rfl
      · refine ⟨[.failed code], .last code, ?_⟩
        simp only [Network.recording, ended]
        rfl
  | succ left ih =>
      rw [performAttempts]
      rcases ended : (net.perform o w).1.code with _ | code
      · refine ⟨[.ok], .ok _, ?_⟩
        simp only [Network.recording, ended]
        rfl
      · obtain ⟨codes, repeats, written⟩ :=
          ih ((net.perform o w).1.chunks.foldl writeCallback response) (net.perform o w).2
            (log ++ [(o, .failed code)])
        refine ⟨.failed code :: codes, .again code repeats, ?_⟩
        simp only [Network.recording, ended] at written ⊢
        rw [written, List.append_assoc]
        rfl

/-- The five options of a request are all that it leaves behind, and the next one sets them. -/
theorem CurlOptions.AsSetUp.used {o : CurlOptions} (set_up : o.AsSetUp) (url accessToken : Bytes)
    (buffer : Addr) :
    CurlOptions.AsSetUp { requestOptions o url accessToken buffer with httpheader := .freed } :=
  fun url' accessToken' buffer' => set_up url' accessToken' buffer'

/-- What the requests need of the manager, and keep. -/
structure CurlConnectionManager.Keeps (handles : List Handle) (m : CurlConnectionManager) :
    Prop where
  free : m.freeHandles = handles
  set_up : ∀ curl ∈ handles, (m.options curl).AsSetUp

theorem CurlConnectionManager.Keeps.request {handles : List Handle} {m : CurlConnectionManager}
    (keeps : m.Keeps handles) (net : Network ω) (url accessToken : Bytes) (buffer : Addr)
    (response : Bytes) (w : ω) (log : List (CurlOptions × CURLcode)) :
    let r := performCurlRequest net.recording m url accessToken buffer response (w, log)
    r.manager.Keeps handles ∧
      ∃ codes, (if handles = [] then codes = [] else Repeats (maxRetries - 1) codes) ∧
        r.world.2 = log ++ codes.map fun code =>
          (requestOptions setupCurlOptions url accessToken buffer, code) := by
  obtain ⟨free, set_up⟩ := keeps
  unfold performCurlRequest CurlConnectionManager.getCurlHandle
  rw [free]
  rcases handles with _ | ⟨curl, rest⟩
  · refine ⟨⟨free, set_up⟩, [], rfl, ?_⟩
    exact (List.append_nil log).symm
  · obtain ⟨codes, repeats, written⟩ := performAttempts_recorded net
      (requestOptions (m.options curl) url accessToken buffer) (maxRetries - 1) response w log
    have own := set_up curl List.mem_cons_self
    refine ⟨⟨rfl, ?_⟩, codes, ?_, ?_⟩
    · intro curl' there
      by_cases same : curl' = curl
      · subst same
        simp only [releaseCurlHandle, setOptions, Function.update_self]
        exact own.used url accessToken buffer
      · simp only [releaseCurlHandle, setOptions, Function.update_of_ne same]
        exact set_up curl' there
    · rw [if_neg (List.cons_ne_nil curl rest)]
      exact repeats
    · rw [← own]
      exact written

/-! ## One errand -/

theorem StoreEffect.apply_managers (e : StoreEffect) (node : Addr) (s : OrderAPI) :
    (e.apply node s).curlManager = s.curlManager ∧
      (e.apply node s).tokenManager = s.tokenManager := by
  cases e with
  | store orderId order =>
      simp only [apply, storeOrder]
      split <;> exact ⟨rfl, rfl⟩
  | drop orderId =>
      simp only [apply, dropOrder]
      split <;> exact ⟨rfl, rfl⟩

/-- Only its request changes the managers in a call. -/
theorem OrderAPI.operate_managers (L : Libraries) (net : Network ω) (ctx : CallContext)
    (url : Bytes) (effect : Bytes → Outcome (Option StoreEffect)) (s : OrderAPI) (w : ω) :
    (s.operate L net ctx url effect w).2.1.curlManager =
        (s.request L net ctx url w).2.1.curlManager ∧
      (s.operate L net ctx url effect w).2.1.tokenManager =
        (s.request L net ctx url w).2.1.tokenManager := by
  unfold operate
  rcases s.request L net ctx url w with ⟨_ | _ | readBuffer, t, v⟩
  · exact ⟨rfl, rfl⟩
  · exact ⟨rfl, rfl⟩
  · rcases decided : effect readBuffer with f | _ | e
    · simp only [decided, and_self]
    · simp only [decided, and_self]
    · simp only [decided]
      exact e.apply_managers ctx.node t

variable {L : Libraries} {net : Network ω} {handles : List Handle} {s : OrderAPI}
  {log : List (CurlOptions × CURLcode)}

/-- What the errand has done with the two managers and put on the wire. -/
structure Sending.Of (L : Libraries) (handles : List Handle) (s t : OrderAPI)
    (errand : Errand) (x : Sending) : Prop where
  own : x.errand = errand
  grant : x.grant = errand.clock.map (s.tokenManager.record L)
  attempted : x.Attempted handles
  manager : t.curlManager.Keeps handles
  tokens : t.tokenManager =
    errand.clock.elim s.tokenManager fun clock => (s.tokenManager.getAccessToken L clock).2

theorem OrderAPI.request_recorded (keeps : s.curlManager.Keeps handles) (L : Libraries)
    (net : Network ω) (errand : Errand) (authorised : errand.clock = some errand.ctx.token)
    (w : ω) (log : List (CurlOptions × CURLcode)) :
    let r := s.request L net.recording errand.ctx errand.url (w, log)
    ∃ x : Sending, x.Of L handles s r.2.1 errand ∧ r.2.2.2 = log ++ x.transfers := by
  rcases got : s.tokenManager.getAccessToken L errand.ctx.token with ⟨outcome, tokens⟩
  have returned : ∀ codes, Sending.token
      ⟨errand, some (s.tokenManager.record L errand.ctx.token), codes⟩ = outcome := by
    intro codes
    rw [TokenManager.getAccessToken_eq] at got
    exact congrArg Prod.fst got
  rcases outcome with f | token
  · refine ⟨⟨errand, some (s.tokenManager.record L errand.ctx.token), []⟩, ?_, ?_⟩
    · constructor
      · rfl
      · rw [authorised, Option.map_some]
      · rw [Sending.Attempted, returned]
      · simpa only [request, got] using keeps
      · simp only [request, got, authorised, Option.elim_some]
    · simp only [request, got, Sending.transfers, returned, List.append_nil]
  · obtain ⟨kept, codes, repeats, written⟩ :=
      keeps.request net errand.url token errand.ctx.readBuffer [] w log
    refine ⟨⟨errand, some (s.tokenManager.record L errand.ctx.token), codes⟩, ?_, ?_⟩
    · constructor
      · rfl
      · rw [authorised, Option.map_some]
      · rw [Sending.Attempted, returned]
        exact repeats
      · simp only [request, got]
        exact kept
      · simp only [request, got, authorised, Option.elim_some]
    · simp only [request, got, Sending.transfers, returned]
      exact written

theorem Sending.Of.token_eq {t : OrderAPI} {errand : Errand} {x : Sending}
    (sent : x.Of L handles s t errand) :
    x.token = errand.clock.elim (.ok []) fun clock =>
      (s.tokenManager.getAccessToken L clock).1 := by
  unfold Sending.token
  rw [sent.grant]
  cases errand.clock <;> rfl

theorem Errand.returns_call {c : Call} {ctx : CallContext} {w : ω} {told : Bool × Bytes}
    {b : OrderAPI × ω} (performed : c.perform L net ctx s w = (.ok told, b)) :
    (⟨.call c, ctx⟩ : Errand).Returns L net (s, w) b := by
  simp only [Returns, perform, performed]

theorem Errand.returns_book {symbol : Bytes} {ctx : CallContext} {w : ω} {book : Nlohmann.Json}
    {b : OrderAPI × ω} (fetched : s.getOrderBook L net ctx symbol w = (.ok book, b)) :
    (⟨.book symbol, ctx⟩ : Errand).Returns L net (s, w) b := by
  simp only [Returns, perform, fetched]

/-- An exception of `getAccessToken` is one of the errand. -/
theorem Errand.Returns.token {errand : Errand} {w : ω} {b : OrderAPI × ω}
    (returns : errand.Returns L net (s, w) b) :
    Finishes (errand.clock.elim (.ok []) fun clock =>
      (s.tokenManager.getAccessToken L clock).1) := by
  obtain ⟨demand, ctx⟩ := errand
  cases demand with
  | book symbol => exact finishes_ok []
  | call c =>
      show Finishes (s.tokenManager.getAccessToken L ctx.token).1
      rcases got : s.tokenManager.getAccessToken L ctx.token with ⟨f | token, tokens⟩
      · have thrown : (s.operate L net ctx c.url (c.effect L) w).1 = .error f := by
          simp only [operate, request, got]
        have undelivered : ∀ e, c.deliver (.error f) ≠ .ok e := by
          intro e delivered
          cases (c.deliver_eq_ok_iff _ e).mp delivered
        simp only [Returns, perform, c.perform_eq, thrown] at returns
        rcases delivered : c.deliver (.error f) with g | e
        · simp [delivered, Except.map] at returns
        · exact absurd delivered (undelivered e)
      · exact finishes_ok token

theorem Errand.perform_call (L : Libraries) (net : Network ω) (c : Call) (ctx : CallContext)
    (s : OrderAPI) (w : ω) :
    ((⟨.call c, ctx⟩ : Errand).perform L net s w).2 =
      (s.operate L net ctx c.url (c.effect L) w).2 := by
  simp only [perform]
  rw [c.perform_eq]
  dsimp only
  split
  · rename_i same
    exact (congrArg Prod.snd same).symm
  · rename_i same
    exact (congrArg Prod.snd same).symm

theorem Errand.perform_book (L : Libraries) (net : Network ω) (symbol : Bytes) (ctx : CallContext)
    (s : OrderAPI) (w : ω) :
    ((⟨.book symbol, ctx⟩ : Errand).perform L net s w).2 =
      (s.getOrderBook L net ctx symbol w).2 := by
  simp only [perform]
  split
  · rename_i same
    rw [same]
  · rename_i same
    rw [same]

theorem OrderAPI.getOrderBook_managers (L : Libraries) (net : Network ω) (ctx : CallContext)
    (symbol : Bytes) (s : OrderAPI) (w : ω) :
    (s.getOrderBook L net ctx symbol w).2.1.curlManager =
        (performCurlRequest net s.curlManager (orderBookUrl symbol) [] ctx.readBuffer []
          w).manager ∧
      (s.getOrderBook L net ctx symbol w).2.1.tokenManager = s.tokenManager := by
  unfold getOrderBook getOrderBookData
  dsimp only
  split <;> exact ⟨rfl, rfl⟩

theorem Errand.perform_recorded (keeps : s.curlManager.Keeps handles) (L : Libraries)
    (net : Network ω) (errand : Errand) (w : ω) (log : List (CurlOptions × CURLcode)) :
    let r := errand.perform L net.recording s (w, log)
    ∃ x : Sending, x.Of L handles s r.2.1 errand ∧ r.2.2.2 = log ++ x.transfers := by
  obtain ⟨demand, ctx⟩ := errand
  cases demand with
  | call c =>
      obtain ⟨manager, tokens⟩ :=
        operate_managers L net.recording ctx c.url (c.effect L) s (w, log)
      obtain ⟨x, sent, written⟩ := request_recorded keeps L net ⟨.call c, ctx⟩ rfl w log
      dsimp only
      rw [perform_call, operate_world]
      refine ⟨x, ⟨sent.own, sent.grant, sent.attempted, ?_, ?_⟩, written⟩
      · rw [manager]
        exact sent.manager
      · rw [tokens]
        exact sent.tokens
  | book symbol =>
      obtain ⟨manager, tokens⟩ := getOrderBook_managers L net.recording ctx symbol s (w, log)
      obtain ⟨kept, codes, repeats, written⟩ :=
        keeps.request net (orderBookUrl symbol) [] ctx.readBuffer [] w log
      dsimp only
      rw [perform_book, getOrderBook_world]
      refine ⟨⟨⟨.book symbol, ctx⟩, none, codes⟩, ⟨rfl, rfl, repeats, ?_, tokens⟩, written⟩
      rw [manager]
      exact kept

/-! ## Runs -/

/-- The errands, one sending for each, are all that the wire has seen. -/
structure OnTheWire (L : Libraries) (clientId clientSecret : Bytes) (handles : List Handle)
    (clocks : List TokenClock) (granted : List TokenCall) (errands : List Errand) (t : TokenManager)
    (log : List (CurlOptions × CURLcode)) (sendings : List Sending) : Prop where
  each : sendings.map Sending.errand = errands
  log : log = sendings.flatMap Sending.transfers
  attempted : ∀ x ∈ sendings, x.Attempted handles
  authorised : ∀ x ∈ sendings, x.grant.isSome = x.errand.clock.isSome
  tokens : TokenRun L clientId clientSecret (clocks ++ errands.filterMap Errand.clock) t
    (granted ++ sendings.filterMap Sending.grant)

variable {clientId clientSecret : Bytes} {clocks : List TokenClock} {granted : List TokenCall}

theorem TokenRun.errand {events : List TokenClock} {t : TokenManager} {calls : List TokenCall}
    (run : TokenRun L clientId clientSecret events t calls) (clock : Option TokenClock) :
    TokenRun L clientId clientSecret (events ++ clock.toList)
      (clock.elim t fun clock => (t.getAccessToken L clock).2)
      (calls ++ (clock.map (t.record L)).toList) := by
  cases clock with
  | none =>
      rw [Option.map_none, Option.toList_none, Option.toList_none, List.append_nil, List.append_nil]
      exact run
  | some clock => exact run.call clock

theorem filterMap_snoc {α β : Type} (f : α → Option β) (as : List α) (a : α) :
    (as ++ [a]).filterMap f = as.filterMap f ++ (f a).toList := by
  rw [List.filterMap_append]
  cases found : f a <;> simp [found]

theorem OnTheWire.start {t : TokenManager}
    (started : TokenRun L clientId clientSecret clocks t granted) :
    OnTheWire L clientId clientSecret handles clocks granted [] t [] [] where
  each := rfl
  log := rfl
  attempted := fun _ there => absurd there List.not_mem_nil
  authorised := fun _ there => absurd there List.not_mem_nil
  tokens := by
    rw [List.filterMap_nil, List.filterMap_nil, List.append_nil, List.append_nil]
    exact started

theorem OnTheWire.snoc {errands : List Errand} {t : OrderAPI} {sendings : List Sending}
    {errand : Errand} {x : Sending}
    (wire : OnTheWire L clientId clientSecret handles clocks granted errands s.tokenManager log
      sendings) (sent : x.Of L handles s t errand) :
    OnTheWire L clientId clientSecret handles clocks granted (errands ++ [errand]) t.tokenManager
      (log ++ x.transfers) (sendings ++ [x]) where
  each := by rw [List.map_append, wire.each, List.map_singleton, sent.own]
  log := by rw [List.flatMap_append, ← wire.log, List.flatMap_singleton]
  attempted := by
    intro y there
    rcases List.mem_append.mp there with old | new
    · exact wire.attempted y old
    · cases List.mem_singleton.mp new
      exact sent.attempted
  authorised := by
    intro y there
    rcases List.mem_append.mp there with old | new
    · exact wire.authorised y old
    · cases List.mem_singleton.mp new
      rw [sent.grant, sent.own, Option.isSome_map]
  tokens := by
    have later := wire.tokens.errand errand.clock
    rw [← sent.grant, ← sent.tokens, List.append_assoc, List.append_assoc] at later
    rw [filterMap_snoc, filterMap_snoc]
    exact later

theorem OnTheWire.errand {before : List Errand} {sendings : List Sending}
    (wire : OnTheWire L clientId clientSecret handles clocks granted before s.tokenManager log
      sendings) (keeps : s.curlManager.Keeps handles) (net : Network ω) (errand : Errand)
    (world : ω) :
    let r := errand.perform L net.recording s (world, log)
    ∃ x : Sending, x.Of L handles s r.2.1 errand ∧
      OnTheWire L clientId clientSecret handles clocks granted (before ++ [errand])
        r.2.1.tokenManager r.2.2.2 (sendings ++ [x]) := by
  obtain ⟨x, sent, written⟩ := errand.perform_recorded keeps L net world log
  refine ⟨x, sent, ?_⟩
  rw [written]
  exact wire.snoc sent

theorem OnTheWire.run {errands before : List Errand}
    {a b : Wired (ω × List (CurlOptions × CURLcode))} {sendings : List Sending}
    (run : Trace (Takes (Wired.next L net.recording)) a errands b)
    (keeps : a.client.curlManager.Keeps handles)
    (wire : OnTheWire L clientId clientSecret handles clocks granted before
      a.client.tokenManager a.world.2 sendings) :
    ∃ sendings', OnTheWire L clientId clientSecret handles clocks granted (before ++ errands)
      b.client.tokenManager b.world.2 sendings' := by
  induction run generalizing before sendings with
  | nil a =>
      rw [List.append_nil]
      exact ⟨sendings, wire⟩
  | @cons a m b errand errands taken run ih =>
      unfold Takes Wired.next at taken
      split at taken
      · obtain ⟨client, ⟨world, log⟩, down⟩ := a
        obtain ⟨x, sent, next⟩ := wire.errand keeps net errand world
        cases taken
        obtain ⟨sendings', last⟩ := ih sent.manager next
        rw [List.append_assoc] at last
        exact ⟨sendings', last⟩
      · cases taken

/-- As long as no errand throws, each of them has a token to send. -/
theorem OnTheWire.returns {errands before : List Errand}
    {a b : OrderAPI × ω × List (CurlOptions × CURLcode)} {sendings : List Sending}
    (run : Trace (Errand.Returns L net.recording) a errands b)
    (keeps : a.1.curlManager.Keeps handles)
    (wire : OnTheWire L clientId clientSecret handles clocks granted before a.1.tokenManager a.2.2
      sendings) (tokens : ∀ x ∈ sendings, Finishes x.token) :
    ∃ sendings', OnTheWire L clientId clientSecret handles clocks granted (before ++ errands)
      b.1.tokenManager b.2.2 sendings' ∧ ∀ x ∈ sendings', Finishes x.token := by
  induction run generalizing before sendings with
  | nil a =>
      rw [List.append_nil]
      exact ⟨sendings, wire, tokens⟩
  | @cons a m b errand errands returned run ih =>
      obtain ⟨client, world, log⟩ := a
      obtain ⟨x, sent, next⟩ := wire.errand keeps net errand world
      have token : Finishes x.token := by
        rw [sent.token_eq]
        exact returned.token
      unfold Errand.Returns at returned
      dsimp only at returned
      rw [returned] at sent next
      have tokens' : ∀ y ∈ sendings ++ [x], Finishes y.token := by
        intro y there
        rcases List.mem_append.mp there with old | new
        · exact tokens y old
        · cases List.mem_singleton.mp new
          exact token
      obtain ⟨sendings', last, all⟩ := ih sent.manager next tokens'
      rw [List.append_assoc] at last
      exact ⟨sendings', last, all⟩

/-- Everything that a client sends is a request of one of its errands, in the order of the
errands, repeated while it fails and three times at most, with the options of a new
handle and the token that `getAccessToken` has returned in this very errand. -/
theorem wire_trace {inits : List (Option Handle)} {memory : Addr} {tokens : TokenManager}
    {errands : List Errand} {t : Wired (ω × List (CurlOptions × CURLcode))}
    (started : TokenRun L clientId clientSecret clocks tokens granted)
    (run : Trace (Takes (Wired.next L net.recording))
      ⟨.create (.initializePool inits) tokens memory, (w, []), none⟩ errands t) :
    ∃ sendings,
      OnTheWire L clientId clientSecret inits.reduceOption.reverse clocks granted errands
        t.client.tokenManager t.world.2 sendings ∧
      (NonDecreasing (granted ++ sendings.filterMap Sending.grant) →
        Fresh (granted ++ sendings.filterMap Sending.grant)) := by
  obtain ⟨sendings, wire⟩ := OnTheWire.run run ⟨rfl, fun _ _ _ _ _ => rfl⟩ (.start started)
  refine ⟨sendings, wire, ?_⟩
  exact wire.tokens.invariant.unexpired.fresh

/-- The token endpoint grants `T`, and the exchange has one answer. -/
def grantingExchange : Libraries :=
  { oneOrder with nlohmannParse := grantingLibraries.nlohmannParse }

def grantingContext : CallContext where
  token :=
    { check := 7
      done := 10
      fetch := fun _ => .received (bytes "\x7b\"result\":\x7b\"access_token\":\"T\"\x7d\x7d") }
  readBuffer := 64
  node := 80

/-- A placing whose first attempt fails, and the fetch of an order book. -/
def placeThenBook : List Errand :=
  [⟨.call (.placeMarketOrder (bytes "BTC-PERPETUAL") (.finite false 5 3) (bytes "market") []),
      grantingContext⟩,
    ⟨.book (bytes "BTC-PERPETUAL"), grantingContext⟩]

def placeThenBookReplies : List Transfer :=
  [⟨.failed 28, []⟩, ⟨.ok, [okBuffer (placedText (bytes "A"))]⟩, ⟨.ok, []⟩]

/-- The placing with its token, twice, and then the fetch, which carries none. -/
def placeThenBookLog : List (CurlOptions × CURLcode) :=
  let placing := requestOptions setupCurlOptions
    (placeOrderUrl (bytes "BTC-PERPETUAL") (.finite false 5 3) (.finite false 0 0)
      (bytes "market") (bytes "market")) (bytes "T") 64
  let fetch := requestOptions setupCurlOptions (orderBookUrl (bytes "BTC-PERPETUAL")) [] 64
  [(placing, .failed 28), (placing, .ok), (fetch, .ok)]

theorem placeThenBook_wire :
    ∃ (tokens : TokenManager) (sendings : List Sending),
      OnTheWire grantingExchange (bytes "id") (bytes "secret") [0] [] [] placeThenBook tokens
        placeThenBookLog sendings := by
  have followed : (follow (Wired.next grantingExchange scripted.recording)
      ⟨sampleClient, (placeThenBookReplies, []), none⟩ placeThenBook).any
      (fun t => t.world.2 = placeThenBookLog) = true := by decide +kernel
  obtain ⟨t, run, shown⟩ := exists_trace_of_follow followed
  have written : t.world.2 = placeThenBookLog := of_decide_eq_true shown
  obtain ⟨sendings, wire, _⟩ := wire_trace (.nil _) run
  rw [written] at wire
  exact ⟨_, sendings, wire⟩

end DeribitTrading
