import DeribitTrading.Exchange.Wire
import DeribitTrading.Program.Benchmark

/-!
`main`: its four ways to return, and libcurl's count of initialisations on each.
The count is raised once by `main` and once by the constructor of the connection
manager, and lowered at the return and by the destructor.
-/
namespace DeribitTrading
open ByteString Numbers Runs OrderAPI

/-- `poolSize` calls of `curl_easy_init`, unless libcurl could not be initialised. -/
def CurlConnectionManager.create (poolSize : Nat) (globalInit : CURLcode)
    (easyInit : Nat → Option Handle) : CurlConnectionManager :=
  match globalInit with
  | .ok => .initializePool ((List.range poolSize).map easyInit)
  | .failed _ => ⟨[], [], fun _ => {}⟩

/-- What the process meets: the environment, the two initialisations of libcurl, the
handles, the token endpoint at the start, and then each of the calls. -/
structure Surroundings where
  clientId : Option Bytes
  clientSecret : Option Bytes
  globalInit : CURLcode
  clock : TokenClock
  managerInit : CURLcode
  easyInit : Nat → Option Handle
  memory : Addr
  ctx : Nat → CallContext

/-- The calls that libcurl's state depends on, and the end of each handle of the pool. -/
inductive CurlCall where
  | globalInit (code : CURLcode)
  | globalCleanup
  | easyCleanup (curl : Handle)
  deriving DecidableEq, Repr

/-- The two initialisations and the cleanup of `main`, then the manager's destructor,
which runs after the return. -/
def completeCalls (managerInit : CURLcode) (curlPool : List Handle) : List CurlCall :=
  [.globalInit .ok, .globalInit managerInit, .globalCleanup] ++
    (curlPool.map .easyCleanup ++ [.globalCleanup])

/-- How the process ends; what it has printed before it dies is left out. -/
inductive Exit where
  | returned (code : Nat) (lines : List Line) (curl : List CurlCall)
  | died (f : Fault)

def Exit.code : Exit → Option Nat
  | .returned code _ _ => some code
  | .died _ => none

section
variable {ω : Type} (L : Libraries) (net : Network ω)

def main (e : Surroundings) (w : ω) : Exit × ω :=
  match e.clientId, e.clientSecret with
  | some clientId, some clientSecret =>
      match e.globalInit with
      | .failed code =>
          (.returned 1 [.cerr (bytes "CURL global initialization failed!")]
            [.globalInit (.failed code)], w)
      | .ok =>
          match (TokenManager.create clientId clientSecret).getAccessToken L e.clock with
          | (.error f, _) => (.died f.uncaught, w)
          | (.ok [], _) =>
              (.returned 1 [.cerr (bytes "Failed to retrieve access token.")]
                [.globalInit .ok, .globalCleanup], w)
          | (.ok (_ :: _), tokenManager) =>
              let curlManager := CurlConnectionManager.create 10 e.managerInit e.easyInit
              let orderAPI := OrderAPI.create curlManager tokenManager e.memory
              match benchmark L net e.ctx (bytes "BTC-PERPETUAL") (.finite false 5 3)
                (.finite false 375 4) (bytes "market0000234") orderAPI w with
              | (.error f, _, w) => (.died f.uncaught, w)
              | (.ok b, orderAPI, w) =>
                  (.returned 0 (b.lines (bytes "BTC-PERPETUAL") ++
                      [.cout (bytes "All operations completed successfully.")])
                    (completeCalls e.managerInit orderAPI.curlManager.curlPool), w)
  | _, _ =>
      (.returned 1 [.cerr (bytes "Client ID or secret is not set in environment variables.")] [], w)

end

/-- libcurl's count of its initialisations, as long as nothing is used or cleaned up
without one. -/
def curlCount : Nat → List CurlCall → Option Nat
  | n, [] => some n
  | n, .globalInit .ok :: calls => curlCount (n + 1) calls
  | n, .globalInit (.failed _) :: calls => curlCount n calls
  | 0, .globalCleanup :: _ => none
  | n + 1, .globalCleanup :: calls => curlCount n calls
  | 0, .easyCleanup _ :: _ => none
  | n + 1, .easyCleanup _ :: calls => curlCount (n + 1) calls

theorem curlCount_handles (n : Nat) (handles : List Handle) (calls : List CurlCall) :
    curlCount (n + 1) (handles.map .easyCleanup ++ calls) = curlCount (n + 1) calls := by
  induction handles with
  | nil => rfl
  | cons curl handles ih => exact ih

variable {ω : Type} {L : Libraries} {net : Network ω}

/-- The pool of a manager, apart from the options of its handles. -/
structure SamePool (m m' : CurlConnectionManager) : Prop where
  curlPool : m'.curlPool = m.curlPool
  freeHandles : m'.freeHandles = m.freeHandles

theorem SamePool.trans {m m' m'' : CurlConnectionManager} (first : SamePool m m')
    (second : SamePool m' m'') : SamePool m m'' :=
  ⟨second.curlPool.trans first.curlPool, second.freeHandles.trans first.freeHandles⟩

theorem performCurlRequest_samePool (m : CurlConnectionManager) (url accessToken : Bytes)
    (buffer : Addr) (response : Bytes) (w : ω) :
    SamePool m (performCurlRequest net m url accessToken buffer response w).manager := by
  refine ⟨?_, performCurlRequest_freeHandles ..⟩
  unfold performCurlRequest CurlConnectionManager.getCurlHandle
  rcases m.freeHandles with _ | ⟨curl, rest⟩ <;> rfl

variable (L net) in
theorem request_samePool (ctx : CallContext) (url : Bytes) (s : OrderAPI) (w : ω) :
    SamePool s.curlManager (s.request L net ctx url w).2.1.curlManager := by
  unfold request
  split
  · exact ⟨rfl, rfl⟩
  · exact performCurlRequest_samePool ..

theorem Call.perform_samePool {c : Call} {ctx : CallContext} {s t : OrderAPI} {w v : ω}
    {result : Outcome (Bool × Bytes)} (performed : c.perform L net ctx s w = (result, t, v)) :
    SamePool s.curlManager t.curlManager := by
  have requested := request_samePool L net ctx c.url s w
  have state : t = (c.perform L net ctx s w).2.1 := by rw [performed]
  rw [state, c.perform_eq]
  dsimp only
  rw [(operate_managers L net ctx c.url (c.effect L) s w).1]
  exact requested

theorem getOrderBook_samePool {ctx : CallContext} {symbol : Bytes} {s t : OrderAPI} {w v : ω}
    {result : Outcome Nlohmann.Json}
    (fetched : s.getOrderBook L net ctx symbol w = (result, t, v)) :
    SamePool s.curlManager t.curlManager := by
  have state : t = (s.getOrderBook L net ctx symbol w).2.1 := by rw [fetched]
  rw [state, (getOrderBook_managers L net ctx symbol s w).1]
  exact performCurlRequest_samePool ..

theorem benchmark_samePool {ctx : Nat → CallContext} {instrument label : Bytes}
    {quantity price : Double} {s t : OrderAPI} {w v : ω} {b : Benchmark}
    (ended : benchmark L net ctx instrument quantity price label s w = (.ok b, t, v)) :
    SamePool s.curlManager t.curlManager := by
  obtain ⟨s₁, w₁, s₂, w₂, s₃, w₃, s₄, w₄, first, second, third, fourth, fifth⟩ :=
    benchmark_ok ended
  have before := (Call.perform_samePool first).trans (Call.perform_samePool second)
  have after := (getOrderBook_samePool fourth).trans (Call.perform_samePool fifth)
  exact (before.trans (Call.perform_samePool third)).trans after

/-- Without a free handle a call fails and sends nothing over the pool. -/
theorem Call.perform_without_handle {c : Call} {ctx : CallContext} {s t : OrderAPI} {w v : ω}
    {told : Bool × Bytes} (none_free : s.curlManager.freeHandles = [])
    (ended : c.perform L net ctx s w = (.ok told, t, v)) : told.1 = false ∧ v = w := by
  have unsent : ¬ s.Sends L ctx := fun sends => sends.handle none_free
  constructor
  · rcases c.perform_cases L net ctx s w with ⟨_, silent, _⟩ | ⟨e, ⟨_, arrived, _⟩, _, _⟩
    · rw [ended] at silent
      obtain ⟨b, orderId⟩ := told
      cases b with
      | false => rfl
      | true => exact absurd rfl (silent orderId)
    · exact absurd (sends_of_arrived arrived) unsent
  · have world : (c.perform L net ctx s w).2.2 = (s.request L net ctx c.url w).2.2 := by
      rw [c.perform_eq]
      exact operate_world L net ctx c.url (c.effect L) s w
    rw [ended, request_of_not_sends unsent] at world
    exact world

theorem getOrderBook_without_handle {ctx : CallContext} {symbol : Bytes} {s t : OrderAPI}
    {w v : ω} {book : Nlohmann.Json} (none_free : s.curlManager.freeHandles = [])
    (ended : s.getOrderBook L net ctx symbol w = (.ok book, t, v)) :
    book.empty = true ∧ v = w := by
  simp only [getOrderBook, getOrderBookData, performAsyncCurlRequest, performCurlRequest,
    CurlConnectionManager.getCurlHandle, none_free, Bool.false_eq_true, if_false,
    executeAsyncTask, Prod.mk.injEq, Except.ok.injEq] at ended
  obtain ⟨rfl, _, rfl⟩ := ended
  exact ⟨rfl, rfl⟩

/-- What `benchmark` prints when each of its five calls fails. -/
def Benchmark.failures : List Line :=
  [.cerr (bytes "Failed to place market order."), .cerr (bytes "Failed to place limit order."),
    .cerr (bytes "Failed to modify order."), .cerr (bytes "Failed to get order book."),
    .cerr (bytes "Failed to cancel order.")]

theorem benchmark_without_handle {ctx : Nat → CallContext} {instrument label : Bytes}
    {quantity price : Double} {s t : OrderAPI} {w v : ω} {b : Benchmark}
    (none_free : s.curlManager.freeHandles = [])
    (ended : benchmark L net ctx instrument quantity price label s w = (.ok b, t, v)) :
    v = w ∧ b.lines instrument = Benchmark.failures := by
  obtain ⟨s₁, w₁, s₂, w₂, s₃, w₃, s₄, w₄, first, second, third, fourth, fifth⟩ :=
    benchmark_ok ended
  have none₁ := (Call.perform_samePool first).freeHandles.trans none_free
  have none₂ := (Call.perform_samePool second).freeHandles.trans none₁
  have none₃ := (Call.perform_samePool third).freeHandles.trans none₂
  have none₄ := (getOrderBook_samePool fourth).freeHandles.trans none₃
  obtain ⟨market, rfl⟩ := Call.perform_without_handle none_free first
  obtain ⟨limit, rfl⟩ := Call.perform_without_handle none₁ second
  obtain ⟨modified, rfl⟩ := Call.perform_without_handle none₂ third
  obtain ⟨book, rfl⟩ := getOrderBook_without_handle none₃ fourth
  obtain ⟨cancelled, rfl⟩ := Call.perform_without_handle none₄ fifth
  refine ⟨rfl, ?_⟩
  simp [Benchmark.lines, Benchmark.failures, told, show b.market = false from market,
    show b.limit = false from limit, show b.modified = false from modified, book,
    show b.cancelled = false from cancelled]

namespace Surroundings

/-- Both variables are set, libcurl is initialised, and a token is granted. -/
def Starts (L : Libraries) (e : Surroundings) : Prop :=
  ∃ clientId clientSecret token, e.clientId = some clientId ∧
    e.clientSecret = some clientSecret ∧ e.globalInit = .ok ∧
    ((TokenManager.create clientId clientSecret).getAccessToken L e.clock).1 = .ok token ∧
    token ≠ []

/-- The client that `main` hands to `benchmark`, whose token has been asked for once. -/
def client (L : Libraries) (e : Surroundings) (clientId clientSecret : Bytes) :
    OrderAPI :=
  .create (.create 10 e.managerInit e.easyInit)
    ((TokenManager.create clientId clientSecret).getAccessToken L e.clock).2 e.memory

/-- The handles of the manager's pool. -/
def handles (e : Surroundings) : List Handle :=
  (CurlConnectionManager.create 10 e.managerInit e.easyInit).curlPool

theorem handles_eq_nil_iff (e : Surroundings) : e.handles = [] ↔
    (CurlConnectionManager.create 10 e.managerInit e.easyInit).freeHandles = [] := by
  unfold handles CurlConnectionManager.create
  cases e.managerInit with
  | ok => exact List.reverse_eq_nil_iff.symm
  | failed code => exact Iff.rfl

theorem handles_of_failed (e : Surroundings) (code : Nat) (failed : e.managerInit = .failed code) :
    e.handles = [] := by
  unfold handles
  rw [failed]
  rfl

end Surroundings

theorem curlCount_completeCalls (managerInit : CURLcode) (handles : List Handle)
    (unpooled : ∀ code, managerInit = .failed code → handles = []) :
    curlCount 0 (completeCalls managerInit handles) = some 0 ↔ managerInit = .ok := by
  cases managerInit with
  | ok =>
      refine iff_of_true ?_ rfl
      exact curlCount_handles 0 handles [.globalCleanup]
  | failed code =>
      rw [unpooled code rfl]
      simp [completeCalls, curlCount]

def CurlCall.handle : CurlCall → Option Handle
  | .easyCleanup curl => some curl
  | .globalInit _ | .globalCleanup => none

theorem handles_completeCalls (managerInit : CURLcode) (handles : List Handle) :
    (completeCalls managerInit handles).filterMap CurlCall.handle = handles := by
  have each : CurlCall.handle ∘ CurlCall.easyCleanup = some := by
    funext curl
    rfl
  unfold completeCalls
  rw [List.filterMap_append, List.filterMap_append, List.filterMap_map, each, List.filterMap_some]
  exact List.append_nil handles

/-- The process returns before there is a client, having sent nothing, or behind the
benchmark. -/
theorem main_cases {e : Surroundings} {w v : ω} {code : Nat} {lines : List Line}
    {curl : List CurlCall} (ended : main L net e w = (.returned code lines curl, v)) :
    (code = 1 ∧ ¬ e.Starts L ∧ v = w ∧ curlCount 0 curl = some 0 ∧
      curl.filterMap CurlCall.handle = []) ∨
    ∃ (clientId clientSecret : Bytes) (b : Benchmark) (orderAPI : OrderAPI),
      e.clientId = some clientId ∧ e.clientSecret = some clientSecret ∧ e.Starts L ∧
      benchmark L net e.ctx (bytes "BTC-PERPETUAL") (.finite false 5 3) (.finite false 375 4)
        (bytes "market0000234") (e.client L clientId clientSecret) w = (.ok b, orderAPI, v) ∧
      code = 0 ∧
      lines = b.lines (bytes "BTC-PERPETUAL") ++
        [.cout (bytes "All operations completed successfully.")] ∧
      curl = completeCalls e.managerInit orderAPI.curlManager.curlPool := by
  unfold main at ended
  split at ended
  · next clientId clientSecret idSet secretSet =>
    split at ended
    · next code failed =>
      cases ended
      refine .inl ⟨rfl, ?_, rfl, rfl, rfl⟩
      rintro ⟨_, _, _, _, _, initialised, _⟩
      cases failed.symm.trans initialised
    · next initialised =>
      split at ended
      · cases ended
      · next tokens granted =>
        cases ended
        refine .inl ⟨rfl, ?_, rfl, rfl, rfl⟩
        rintro ⟨_, _, token, idSet', secretSet', _, granted', some_token⟩
        cases idSet.symm.trans idSet'
        cases secretSet.symm.trans secretSet'
        rw [granted] at granted'
        cases granted'
        exact some_token rfl
      · next first rest tokens granted =>
        dsimp only at ended
        split at ended
        · cases ended
        · next b orderAPI w' finished =>
          cases ended
          have starts : e.Starts L := ⟨clientId, clientSecret, first :: rest, idSet, secretSet,
            initialised, by rw [granted], List.cons_ne_nil first rest⟩
          have client : e.client L clientId clientSecret =
              .create (.create 10 e.managerInit e.easyInit) tokens e.memory := by
            rw [Surroundings.client, granted]
          rw [← client] at finished
          exact .inr ⟨clientId, clientSecret, b, orderAPI, idSet, secretSet, starts, finished, rfl,
            rfl, rfl⟩
  · next missing =>
    cases ended
    refine .inl ⟨rfl, ?_, rfl, rfl, rfl⟩
    rintro ⟨_, _, _, idSet, secretSet, _⟩
    exact missing _ _ idSet secretSet

/-- What a process that returns has done: its exit code tells whether it came as far as
the benchmark, libcurl is left as it was found unless the manager could not initialise
it, each handle of the pool is cleaned up once and in time, and without a handle the
benchmark fails at everything, which the exit code and the last line do not tell. -/
structure Exit.Tells (L : Libraries) (e : Surroundings) (unchanged : Prop) (code : Nat)
    (lines : List Line) (curl : List CurlCall) : Prop where
  exit : code = 0 ∧ e.Starts L ∨ code = 1 ∧ ¬ e.Starts L ∧ unchanged
  balanced : curlCount 0 curl = some 0 ↔ (code = 0 → e.managerInit = .ok)
  handles : curl.filterMap CurlCall.handle = if code = 0 then e.handles else []
  useless : code = 0 → e.handles = [] → unchanged ∧
    lines = Benchmark.failures ++ [.cout (bytes "All operations completed successfully.")]

theorem main_returns (L : Libraries) (net : Network ω) (e : Surroundings) {w v : ω} {code : Nat}
    {lines : List Line} {curl : List CurlCall}
    (ended : main L net e w = (.returned code lines curl, v)) :
    Exit.Tells L e (v = w) code lines curl := by
  rcases main_cases ended with ⟨rfl, unstarted, unchanged, balanced, none⟩ |
    ⟨_, _, b, orderAPI, _, _, starts, finished, rfl, rfl, rfl⟩
  · exact ⟨.inr ⟨rfl, unstarted, unchanged⟩, by simp [balanced], none, by simp⟩
  · have pool : orderAPI.curlManager.curlPool = e.handles := (benchmark_samePool finished).curlPool
    rw [pool]
    refine ⟨.inl ⟨rfl, starts⟩, ?_, ?_, ?_⟩
    · rw [curlCount_completeCalls e.managerInit e.handles e.handles_of_failed]
      simp
    · rw [handles_completeCalls, if_pos rfl]
    · intro _ none
      obtain ⟨unchanged, failures⟩ :=
        benchmark_without_handle (e.handles_eq_nil_iff.mp none) finished
      exact ⟨unchanged, by rw [failures]⟩

/-- Everything is in order, except that libcurl gives no handle. -/
def handleless : Surroundings where
  clientId := some (bytes "id")
  clientSecret := some (bytes "secret")
  globalInit := .ok
  clock :=
    { check := 1
      done := 2
      fetch := fun _ => .received (bytes "\x7b\"result\":\x7b\"access_token\":\"T\"\x7d\x7d") }
  managerInit := .ok
  easyInit := fun _ => none
  memory := 4096
  ctx := fun _ => intactContext 64

theorem handleless_useless :
    ∃ lines curl, (main grantingLibraries scripted handleless []).1 = .returned 0 lines curl ∧
      curlCount 0 curl = some 0 ∧
      lines = Benchmark.failures ++
        [.cout (bytes "All operations completed successfully.")] := by
  have exit : (main grantingLibraries scripted handleless []).1.code = some 0 := by decide +kernel
  rcases ended : main grantingLibraries scripted handleless [] with ⟨⟨code, lines, curl⟩ | f, v⟩
  · rw [ended] at exit
    cases exit
    have tells := main_returns grantingLibraries scripted handleless ended
    obtain ⟨_, failures⟩ := tells.useless rfl rfl
    exact ⟨lines, curl, rfl, tells.balanced.mpr fun _ => rfl, failures⟩
  · rw [ended] at exit
    cases exit

/-! ## What the program sends -/

/-- The five errands; the ids are those that the answers have left in `orderId`. -/
def Benchmark.errands (ctx : Nat → CallContext) (instrument : Bytes) (quantity price : Double)
    (label : Bytes) (b : Benchmark) : List Errand :=
  [⟨.call (.placeMarketOrder instrument quantity label []), ctx 0⟩,
    ⟨.call (.placeLimitOrder instrument quantity price b.marketId), ctx 1⟩,
    ⟨.call (.modifyOrder b.orderId (twice price) (twice quantity)), ctx 2⟩,
    ⟨.book instrument, ctx 3⟩,
    ⟨.call (.cancelOrder b.orderId), ctx 4⟩]

theorem benchmark_returns {ctx : Nat → CallContext} {instrument label : Bytes}
    {quantity price : Double} {s t : OrderAPI} {w v : ω} {b : Benchmark}
    (ended : benchmark L net ctx instrument quantity price label s w = (.ok b, t, v)) :
    Trace (Errand.Returns L net) (s, w) (b.errands ctx instrument quantity price label)
      (t, v) := by
  obtain ⟨s₁, w₁, s₂, w₂, s₃, w₃, s₄, w₄, first, second, third, fourth, fifth⟩ :=
    benchmark_ok ended
  apply Trace.cons (Errand.returns_call first)
  apply Trace.cons (Errand.returns_call second)
  apply Trace.cons (Errand.returns_call third)
  apply Trace.cons (Errand.returns_book fourth)
  exact .single (Errand.returns_call fifth)

theorem CurlConnectionManager.create_keeps (poolSize : Nat) (globalInit : CURLcode)
    (easyInit : Nat → Option Handle) :
    (CurlConnectionManager.create poolSize globalInit easyInit).Keeps
      (CurlConnectionManager.create poolSize globalInit easyInit).freeHandles := by
  cases globalInit with
  | ok => exact ⟨rfl, fun _ _ _ _ _ => rfl⟩
  | failed code => exact ⟨rfl, by simp [CurlConnectionManager.create]⟩

/-- Nothing is sent without a handle; with one, each errand has a token and sends. -/
structure AllSent (handles : List Handle) (sendings : List Sending)
    (log : List (CurlOptions × CURLcode)) : Prop where
  handleless : handles = [] → log = []
  attempted : handles ≠ [] → ∀ x ∈ sendings,
    Finishes x.token ∧ Repeats (maxRetries - 1) x.codes

theorem OnTheWire.allSent {clientId clientSecret : Bytes} {handles : List Handle}
    {clocks : List TokenClock} {granted : List TokenCall} {errands : List Errand}
    {t : TokenManager} {log : List (CurlOptions × CURLcode)} {sendings : List Sending}
    (wire : OnTheWire L clientId clientSecret handles clocks granted errands t log sendings)
    (tokens : ∀ x ∈ sendings, Finishes x.token) : AllSent handles sendings log := by
  constructor
  · intro none
    rw [wire.log, List.flatMap_eq_nil_iff]
    intro x there
    have codes := (wire.attempted x there).codes (tokens x there)
    rw [if_pos none] at codes
    exact Sending.transfers_of_codes codes
  · intro some x there
    have codes := (wire.attempted x there).codes (tokens x there)
    rw [if_neg some] at codes
    exact ⟨tokens x there, codes⟩

/-- Behind an exit with 0 there is a benchmark whose five errands are all that has been
sent, with the ids that the answers to its placings carry and with the tokens of one
manager that has been asked once before them. -/
theorem main_wire (L : Libraries) (net : Network ω) (e : Surroundings) {w v : ω}
    {lines : List Line} {curl : List CurlCall} {log : List (CurlOptions × CURLcode)}
    (ended : main L net.recording e (w, []) = (.returned 0 lines curl, v, log)) :
    ∃ (clientId clientSecret : Bytes) (b : Benchmark) (orderAPI : OrderAPI)
      (sendings : List Sending),
      e.clientId = some clientId ∧ e.clientSecret = some clientSecret ∧
      benchmark L net.recording e.ctx (bytes "BTC-PERPETUAL") (.finite false 5 3)
          (.finite false 375 4) (bytes "market0000234") (e.client L clientId clientSecret)
          (w, []) = (.ok b, orderAPI, v, log) ∧
      lines = b.lines (bytes "BTC-PERPETUAL") ++
        [.cout (bytes "All operations completed successfully.")] ∧
      b.Named L net.recording e.ctx (bytes "BTC-PERPETUAL") (bytes "market0000234")
        (.finite false 5 3) (.finite false 375 4) (e.client L clientId clientSecret) (w, []) ∧
      OnTheWire L clientId clientSecret
        (CurlConnectionManager.create 10 e.managerInit e.easyInit).freeHandles [e.clock]
        [(TokenManager.create clientId clientSecret).record L e.clock]
        (b.errands e.ctx (bytes "BTC-PERPETUAL") (.finite false 5 3) (.finite false 375 4)
          (bytes "market0000234")) orderAPI.tokenManager log sendings ∧
      AllSent (CurlConnectionManager.create 10 e.managerInit e.easyInit).freeHandles
        sendings log := by
  rcases main_cases ended with ⟨code, _⟩ |
    ⟨clientId, clientSecret, b, orderAPI, idSet, secretSet, _, finished, _, printed, _⟩
  · cases code
  · have start : OnTheWire L clientId clientSecret
        (CurlConnectionManager.create 10 e.managerInit e.easyInit).freeHandles [e.clock]
        [(TokenManager.create clientId clientSecret).record L e.clock] []
        (e.client L clientId clientSecret).tokenManager [] [] := by
      have run : TokenRun L clientId clientSecret [] _ _ := .nil _
      exact .start (run.call e.clock)
    obtain ⟨sendings, wire, sent⟩ := OnTheWire.returns (benchmark_returns finished)
      (CurlConnectionManager.create_keeps 10 e.managerInit e.easyInit) start
      fun _ there => absurd there List.not_mem_nil
    exact ⟨clientId, clientSecret, b, orderAPI, sendings, idSet, secretSet, finished, printed,
      benchmark_named finished, wire, wire.allSent sent⟩

/-- The exchange takes the market order as A, and then nothing gets through any more. -/
def cutOff : Surroundings := { handleless with easyInit := some }

def cutOffReplies : List Transfer := [⟨.ok, [okBuffer (placedText (bytes "A"))]⟩]

theorem cutOff_wire :
    ∃ (b : Benchmark) (tokens : TokenManager) (sendings : List Sending)
      (log : List (CurlOptions × CURLcode)), log.length = 13 ∧ b.market = true ∧
      b.limit = false ∧ b.orderId = bytes "A" ∧
      b.Named grantingExchange scripted.recording cutOff.ctx (bytes "BTC-PERPETUAL")
        (bytes "market0000234") (.finite false 5 3) (.finite false 375 4)
        (cutOff.client grantingExchange (bytes "id") (bytes "secret")) (cutOffReplies, []) ∧
      OnTheWire grantingExchange (bytes "id") (bytes "secret")
        (CurlConnectionManager.create 10 .ok some).freeHandles [cutOff.clock]
        [(TokenManager.create (bytes "id") (bytes "secret")).record grantingExchange cutOff.clock]
        (b.errands cutOff.ctx (bytes "BTC-PERPETUAL") (.finite false 5 3) (.finite false 375 4)
          (bytes "market0000234")) tokens log sendings ∧
      ∀ x ∈ sendings, Finishes x.token ∧ Repeats (maxRetries - 1) x.codes := by
  have sent : (main grantingExchange scripted.recording cutOff (cutOffReplies, [])).1.code =
        some 0 ∧
      (main grantingExchange scripted.recording cutOff (cutOffReplies, [])).2.2.length = 13 := by
    decide +kernel
  have told : ((benchmark grantingExchange scripted.recording cutOff.ctx (bytes "BTC-PERPETUAL")
      (.finite false 5 3) (.finite false 375 4) (bytes "market0000234")
      (cutOff.client grantingExchange (bytes "id") (bytes "secret"))
      (cutOffReplies, [])).1.map fun b => (b.market, b.limit, b.orderId)) =
        .ok (true, false, bytes "A") := by decide +kernel
  rcases ended : main grantingExchange scripted.recording cutOff (cutOffReplies, []) with
    ⟨⟨code, lines, curl⟩ | f, v, log⟩
  · rw [ended] at sent
    obtain ⟨exit, length⟩ := sent
    cases exit
    obtain ⟨clientId, clientSecret, b, orderAPI, sendings, idSet, secretSet, finished, _, named,
      wire, all⟩ := main_wire grantingExchange scripted cutOff ended
    cases idSet
    cases secretSet
    rw [finished] at told
    obtain ⟨market, limit, orderId⟩ :
        b.market = true ∧ b.limit = false ∧ b.orderId = bytes "A" := by
      simpa [Except.map] using told
    exact ⟨b, orderAPI.tokenManager, sendings, log, length, market, limit, orderId, named, wire,
      all.attempted (List.cons_ne_nil _ _)⟩
  · rw [ended] at sent
    cases sent.1

end DeribitTrading
