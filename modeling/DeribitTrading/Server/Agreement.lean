import DeribitTrading.Library.Interleaving
import DeribitTrading.Server.System

/-!
What the periodic updates of a connection have to do with its subscriptions. The
record of a run lists the subscribe steps as they are taken; the table of the
server holds the end of it only, the loops serve all of it.
-/
namespace DeribitTrading
open ByteString Runs Interleaving

/-- A subscription as it was recorded: by which thread, and for which connection. -/
structure Subscription where
  tid : Nat
  hdl : Hdl
  symbol : Bytes

/-- The subscriptions that were recorded, the latest last. -/
abbrev Log := List Subscription

def symbolsFor (log : Log) (hdl : Hdl) : List Bytes :=
  (log.filter fun entry => entry.hdl == hdl).map Subscription.symbol

def recordsOf (log : Log) (tid : Nat) : Log := log.filter fun entry => entry.tid == tid

/-- The symbol that a thread goes about with. -/
def Stage.symbol : Stage → Option Bytes
  | .start | .done => none
  | .fetch symbol | .send symbol _ | .check symbol | .sleep symbol | .refetch symbol
  | .resend symbol _ => some symbol

def Thread.serves (hdl : Hdl) (thread : Thread) : Bool :=
  thread.hdl == hdl && thread.stage.symbol.isSome

/-- The threads of a connection that have subscribed and go on. -/
def WebSocketServer.serving (s : WebSocketServer) (hdl : Hdl) : Nat :=
  s.threads.countP (Thread.serves hdl)

/-- What an event adds to the record. -/
def recorded (L : Libraries) (s : WebSocketServer) : Event → Log
  | .run tid u now =>
      match s.threads[tid]? with
      | some thread =>
          match s.turn L u now thread with
          | some (.subscribes symbol) => [⟨tid, thread.hdl, symbol⟩]
          | _ => []
      | none => []
  | _ => []

/-- A thread goes about with the symbol that its message asked for and that it has
recorded, once, and sends what it last fetched for it. -/
structure Follows (L : Libraries) (log : Log) (tid : Nat) (thread : Thread) : Prop where
  unrecorded : thread.stage = .start → recordsOf log tid = []
  asked : ∀ symbol, thread.stage.symbol = some symbol →
    AsksFor L thread.receivedMillis thread.payload symbol ∧
      recordsOf log tid = [⟨tid, thread.hdl, symbol⟩]
  made : ∀ symbol update, thread.stage = .resend symbol update →
    ∃ u now, periodicUpdate L u now symbol = .ok (some update)

/-- How the server and the record of its run belong together. -/
structure Logged (L : Libraries) (s : WebSocketServer) (log : Log) : Prop where
  entered : ∀ hdl, s.phase hdl = .fresh → symbolsFor log hdl = []
  stored : ∀ hdl, s.phase hdl = .opened →
    s.subscriptions.lookup (some hdl) = some ((symbolsFor log hdl).getLast?.getD [])
  own : Each (Follows L log) s.threads
  born : ∀ entry ∈ log, entry.tid < s.threads.length
  known : ∀ thread ∈ s.threads, s.phase thread.hdl ≠ .fresh
  counted : ∀ hdl, s.serving hdl ≤ (symbolsFor log hdl).length
  kept : ∀ hdl, s.phase hdl = .opened → s.serving hdl = (symbolsFor log hdl).length

theorem symbolsFor_append_self (log : Log) (tid : Nat) (hdl : Hdl) (symbol : Bytes) :
    symbolsFor (log ++ [⟨tid, hdl, symbol⟩]) hdl = symbolsFor log hdl ++ [symbol] := by
  simp [symbolsFor]

theorem symbolsFor_append_of_ne (log : Log) (tid : Nat) {hdl other : Hdl} (different : other ≠ hdl)
    (symbol : Bytes) :
    symbolsFor (log ++ [⟨tid, hdl, symbol⟩]) other = symbolsFor log other := by
  simp [symbolsFor, different.symm]

theorem length_symbolsFor_append (log : Log) (tid : Nat) (hdl : Hdl) (symbol : Bytes)
    (other : Hdl) :
    (symbolsFor (log ++ [⟨tid, hdl, symbol⟩]) other).length =
      (symbolsFor log other).length + if hdl == other then 1 else 0 := by
  by_cases same : other = hdl
  · subst same
    simp [symbolsFor_append_self]
  · simp [symbolsFor_append_of_ne log tid same, Ne.symm same]

theorem recordsOf_append_of_ne (log : Log) {tid other : Nat} (different : other ≠ tid) (hdl : Hdl)
    (symbol : Bytes) : recordsOf (log ++ [⟨tid, hdl, symbol⟩]) other = recordsOf log other := by
  simp [recordsOf, different.symm]

theorem Follows.append_of_ne {L : Libraries} {log : Log} {tid other : Nat} {thread : Thread}
    (follows : Follows L log other thread) (different : other ≠ tid) (hdl : Hdl) (symbol : Bytes) :
    Follows L (log ++ [⟨tid, hdl, symbol⟩]) other thread := by
  have same := recordsOf_append_of_ne log different hdl symbol
  refine ⟨?_, ?_, follows.made⟩
  · rw [same]
    exact follows.unrecorded
  · rw [same]
    exact follows.asked

theorem Goes.symbol {L : Libraries} {s : WebSocketServer} {u : Upstream} {now : Int64}
    {thread : Thread} {stage stage' : Stage} (goes : Goes L s u now thread stage stage')
    {symbol : Bytes} (carried : stage'.symbol = some symbol) : stage.symbol = some symbol := by
  cases goes with
  | ignored read => cases carried
  | unlisted absent => cases carried
  | _ => exact carried

theorem Follows.goes {L : Libraries} {s : WebSocketServer} {u : Upstream} {now : Int64}
    {log : Log} {tid : Nat} {thread : Thread} {stage : Stage} (follows : Follows L log tid thread)
    (goes : Goes L s u now thread thread.stage stage) :
    Follows L log tid { thread with stage := stage } := by
  refine ⟨?_, fun symbol carried => follows.asked symbol (goes.symbol carried), ?_⟩
  · intro start
    cases start
    generalize thread.stage = stage at goes
    cases goes
  · intro symbol update sends
    cases sends
    generalize thread.stage = stage at goes
    cases goes with
    | refetched made => exact ⟨u, now, made⟩

/-- A thread that served goes on serving, unless its connection has lost its entry. -/
theorem Goes.serves {L : Libraries} {s : WebSocketServer} {u : Upstream} {now : Int64}
    {thread : Thread} {stage stage' : Stage} (goes : Goes L s u now thread stage stage') :
    stage'.symbol.isSome = stage.symbol.isSome ∨
      stage'.symbol.isSome = false ∧ s.lock thread.hdl ∉ s.subscriptions := by
  cases goes with
  | unlisted absent => exact .inr ⟨rfl, absent⟩
  | _ => exact .inl rfl

theorem serving_move {s : WebSocketServer} {tid : Nat} {thread : Thread}
    (here : s.threads[tid]? = some thread) (stage : Stage) (hdl : Hdl) :
    (s.move tid thread stage).serving hdl +
        (if thread.hdl == hdl && thread.stage.symbol.isSome then 1 else 0) =
      s.serving hdl + if thread.hdl == hdl && stage.symbol.isSome then 1 else 0 := by
  obtain ⟨inside, same⟩ := List.getElem?_eq_some_iff.mp here
  have counted := List.countP_set (p := Thread.serves hdl) (a := { thread with stage := stage })
    inside
  have present : (if thread.serves hdl then 1 else 0) ≤ s.threads.countP (Thread.serves hdl) := by
    split
    · next serves => exact List.countP_pos_iff.mpr ⟨thread, List.mem_of_getElem? here, serves⟩
    · exact Nat.zero_le _
  rw [same] at counted
  change (s.threads.set tid _).countP (Thread.serves hdl) + (if thread.serves hdl then 1 else 0) =
    s.threads.countP (Thread.serves hdl) +
      if Thread.serves hdl { thread with stage := stage } then 1 else 0
  rw [counted]
  omega

/-- Subscribing takes a thread from its message into the service of its connection. -/
theorem serving_subscribes {s : WebSocketServer} {tid : Nat} {thread : Thread}
    (here : s.threads[tid]? = some thread) (start : thread.stage = .start) (symbol : Bytes)
    (hdl : Hdl) :
    ((s.subscribe thread.hdl symbol).move tid thread (.fetch symbol)).serving hdl =
      s.serving hdl + if thread.hdl == hdl then 1 else 0 := by
  have count := serving_move (s := s.subscribe thread.hdl symbol) here (.fetch symbol) hdl
  simp only [start, Stage.symbol, Option.isSome_none, Option.isSome_some, Bool.and_false,
    Bool.and_true, Bool.false_eq_true, if_false, Nat.add_zero] at count
  exact count

theorem logged_create (L : Libraries) : Logged L .create [] where
  entered := fun _ _ => rfl
  stored := fun hdl isOpen => by cases isOpen
  own := .nil
  born := fun entry member => by cases member
  known := fun thread member => by cases member
  counted := fun _ => Nat.le_refl _
  kept := fun _ _ => rfl

theorem Logged.listed {L : Libraries} {s : WebSocketServer} {log : Log} (logged : Logged L s log)
    {hdl : Hdl} (isOpen : s.phase hdl = .opened) : s.lock hdl ∈ s.subscriptions := by
  rw [s.lock_of_not_ended (Phase.not_ended_of_opened isOpen)]
  exact AList.lookup_isSome.mp (by rw [logged.stored hdl isOpen]; rfl)

theorem Logged.open {L : Libraries} {s : WebSocketServer} {log : Log} (logged : Logged L s log)
    {hdl : Hdl} (fresh : s.phase hdl = .fresh) :
    Logged L ((s.enter hdl .opened).onOpen hdl) log := by
  have empty := logged.entered hdl fresh
  constructor
  · intro other isFresh
    obtain ⟨_, no⟩ | ⟨_, isFresh⟩ := (s.phase_enter ..).mp isFresh
    · cases no
    · exact logged.entered other isFresh
  · intro other isOpen
    unfold WebSocketServer.onOpen
    obtain ⟨rfl, _⟩ | ⟨different, before⟩ := (s.phase_enter ..).mp isOpen
    · rw [(s.enter other .opened).lookup_subscribe (Phase.not_ended_of_opened isOpen), empty]
      rfl
    · rw [WebSocketServer.lookup_subscribe_of_ne _ different]
      exact logged.stored other before
  · exact logged.own
  · exact logged.born
  · intro thread member isFresh
    obtain ⟨_, no⟩ | ⟨_, isFresh⟩ := (s.phase_enter ..).mp isFresh
    · cases no
    · exact logged.known thread member isFresh
  · exact logged.counted
  · intro other isOpen
    obtain ⟨rfl, _⟩ | ⟨_, isOpen⟩ := (s.phase_enter ..).mp isOpen
    · have none := logged.counted other
      rw [empty] at none ⊢
      exact Nat.le_zero.mp none
    · exact logged.kept other isOpen

/-- A connection that comes to its end takes nothing from the others. -/
theorem Logged.leave {L : Libraries} {s : WebSocketServer} {log : Log} (logged : Logged L s log)
    {hdl : Hdl} {phase : Phase} (ended : phase.ended)
    {table : AList fun _ : Option Hdl => Bytes}
    (others : ∀ other, other ≠ hdl →
      table.lookup (some other) = s.subscriptions.lookup (some other)) :
    Logged L { s.enter hdl phase with subscriptions := table } log := by
  constructor
  · intro other isFresh
    obtain ⟨_, rfl⟩ | ⟨_, isFresh⟩ := (s.phase_enter ..).mp isFresh
    · cases ended
    · exact logged.entered other isFresh
  · intro other isOpen
    obtain ⟨_, rfl⟩ | ⟨different, isOpen⟩ := (s.phase_enter ..).mp isOpen
    · cases ended
    · exact (others other different).trans (logged.stored other isOpen)
  · exact logged.own
  · exact logged.born
  · intro thread member isFresh
    obtain ⟨_, rfl⟩ | ⟨_, isFresh⟩ := (s.phase_enter ..).mp isFresh
    · cases ended
    · exact logged.known thread member isFresh
  · exact logged.counted
  · intro other isOpen
    obtain ⟨_, rfl⟩ | ⟨_, isOpen⟩ := (s.phase_enter ..).mp isOpen
    · cases ended
    · exact logged.kept other isOpen

theorem Logged.close {L : Libraries} {s : WebSocketServer} {log : Log} (logged : Logged L s log)
    (hdl : Hdl) : Logged L ((s.enter hdl .closed).onClose hdl) log := by
  have key := s.lock_enter hdl (show Phase.closed ≠ .destroyed by decide)
  unfold WebSocketServer.onClose
  rw [key]
  refine logged.leave rfl fun other different => ?_
  exact AList.lookup_erase_ne fun same => different (Option.some.inj same)

theorem Logged.message {L : Libraries} {s : WebSocketServer} {log : Log}
    (logged : Logged L s log) {hdl : Hdl} (isOpen : s.phase hdl = .opened) (payload : Bytes)
    (receivedMillis : Int64) : Logged L (s.onMessage hdl payload receivedMillis) log := by
  have counts : ∀ other, (s.onMessage hdl payload receivedMillis).serving other =
      s.serving other := by
    intro other
    simp [WebSocketServer.serving, WebSocketServer.onMessage, Thread.serves, Stage.symbol]
  have unborn : recordsOf log s.threads.length = [] := by
    refine List.filter_eq_nil_iff.mpr fun entry member same => ?_
    exact Nat.ne_of_lt (logged.born entry member) (beq_iff_eq.mp same)
  refine ⟨logged.entered, logged.stored, ?_, ?_, ?_, ?_, ?_⟩
  · refine logged.own.append ?_ fun _ _ _ follows => follows
    exact ⟨fun _ => unborn, fun _ no => (by cases no), fun _ _ no => (by cases no)⟩
  · intro entry member
    exact Nat.lt_of_lt_of_le (logged.born entry member) (by simp [WebSocketServer.onMessage])
  · intro thread member
    obtain old | new := List.mem_append.mp member
    · exact logged.known thread old
    · cases List.mem_singleton.mp new
      intro isFresh
      cases isOpen.symm.trans isFresh
  · intro other
    rw [counts]
    exact logged.counted other
  · intro other isOpen
    rw [counts]
    exact logged.kept other isOpen

theorem Logged.goes {L : Libraries} {s : WebSocketServer} {u : Upstream} {now : Int64}
    {log : Log} (logged : Logged L s log) {tid : Nat} {thread : Thread} {stage : Stage}
    (here : s.threads[tid]? = some thread) (goes : Goes L s u now thread thread.stage stage) :
    Logged L (s.move tid thread stage) log := by
  have member := List.mem_of_getElem? here
  have counts := serving_move here stage
  refine ⟨logged.entered, logged.stored, ?_, ?_, ?_, ?_, ?_⟩
  · exact logged.own.set ((logged.own tid thread here).goes goes) fun _ _ _ _ follows => follows
  · intro entry present
    rw [WebSocketServer.move, List.length_set]
    exact logged.born entry present
  · intro other present
    obtain old | rfl := s.mem_move present
    · exact logged.known other old
    · exact logged.known thread member
  · intro hdl
    have before := logged.counted hdl
    have count := counts hdl
    obtain same | ⟨gone, _⟩ := goes.serves
    · rw [same] at count
      omega
    · rw [gone] at count
      simp only [Bool.and_false, Bool.false_eq_true, if_false] at count
      omega
  · intro hdl isOpen
    have before := logged.kept hdl isOpen
    have count := counts hdl
    obtain same | ⟨_, unlisted⟩ := goes.serves
    · rw [same] at count
      omega
    · -- a loop ends only where its connection has no entry, so this one is another's
      have other : (thread.hdl == hdl) = false := by
        refine beq_false_of_ne fun same => ?_
        exact unlisted (logged.listed (same ▸ isOpen))
      simp only [other, Bool.false_and, Bool.false_eq_true, if_false] at count
      omega

theorem Logged.subscribes {L : Libraries} {s : WebSocketServer} {log : Log}
    (logged : Logged L s log) {tid : Nat} {thread : Thread} {symbol : Bytes}
    (here : s.threads[tid]? = some thread) (start : thread.stage = .start)
    (asks : AsksFor L thread.receivedMillis thread.payload symbol) :
    Logged L ((s.subscribe thread.hdl symbol).move tid thread (.fetch symbol))
      (log ++ [⟨tid, thread.hdl, symbol⟩]) := by
  have known := logged.known thread (List.mem_of_getElem? here)
  have unrecorded := (logged.own tid thread here).unrecorded start
  constructor
  · intro hdl isFresh
    have different : hdl ≠ thread.hdl := by
      intro same
      exact known (same ▸ isFresh)
    rw [symbolsFor_append_of_ne log tid different]
    exact logged.entered hdl isFresh
  · intro hdl isOpen
    by_cases same : hdl = thread.hdl
    · subst same
      refine (s.lookup_subscribe (Phase.not_ended_of_opened isOpen) symbol).trans ?_
      simp [symbolsFor_append_self]
    · rw [symbolsFor_append_of_ne log tid same]
      exact (s.lookup_subscribe_of_ne same symbol).trans (logged.stored hdl isOpen)
  · refine logged.own.set ?_ fun _ _ different _ follows => follows.append_of_ne different _ _
    refine ⟨fun no => (by cases no), fun carried same => ?_, fun _ _ no => by cases no⟩
    cases same
    refine ⟨asks, ?_⟩
    rw [recordsOf, List.filter_append, ← recordsOf, unrecorded]
    simp
  · intro entry present
    rw [WebSocketServer.move, List.length_set]
    rcases List.mem_append.mp present with old | new
    · exact logged.born entry old
    · cases List.mem_singleton.mp new
      exact (List.getElem?_eq_some_iff.mp here).1
  · intro other present
    obtain old | rfl := (s.subscribe thread.hdl symbol).mem_move present
    · exact logged.known other old
    · exact known
  · intro hdl
    rw [serving_subscribes here start, length_symbolsFor_append]
    exact Nat.add_le_add_right (logged.counted hdl) _
  · intro hdl isOpen
    rw [serving_subscribes here start, length_symbolsFor_append, logged.kept hdl isOpen]

theorem Logged.served {L : Libraries} {s t : WebSocketServer} {log : Log} {e : Event}
    (logged : Logged L s log) (served : Served L s e t) :
    Logged L t (log ++ recorded L s e) := by
  cases served with
  | opened fresh => exact (List.append_nil log).symm ▸ logged.open fresh
  | message isOpen => exact (List.append_nil log).symm ▸ logged.message isOpen ..
  | closed isOpen => exact (List.append_nil log).symm ▸ logged.close _
  | destroyed isClosed =>
      exact (List.append_nil log).symm ▸ logged.leave rfl fun _ _ => rfl
  | goes here taken =>
      simp only [recorded, here, taken, List.append_nil]
      exact logged.goes here (turn_eq_goes taken)
  | subscribes here taken =>
      obtain ⟨start, asks⟩ := turn_eq_subscribes taken
      simp only [recorded, here, taken]
      exact logged.subscribes here start asks
  | dies here taken =>
      simp only [recorded, here, taken, List.append_nil]
      exact { logged with }

end DeribitTrading
