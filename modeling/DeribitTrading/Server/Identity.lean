import DeribitTrading.Server.Agreement

/-!
Whether a handle stands for its connection. The hash and the equality of the table
look at what `lock()` yields, so a handle that outlives its connection changes its
hash and equals every other such handle. As long as no connection is destroyed
under a handle, the table has for each what its own operations left.
-/
namespace DeribitTrading
open ByteString Runs

/-- What is done to the table, with the handle it is done with. -/
inductive Operation where
  | inserted (hdl : Hdl) (symbol : Bytes)
  | erased (hdl : Hdl)

namespace Operation

def hdl : Operation → Hdl
  | .inserted hdl _ | .erased hdl => hdl

def entry : Operation → Option Bytes
  | .inserted _ symbol => some symbol
  | .erased _ => none

end Operation

def operations (L : Libraries) (s : WebSocketServer) : Event → List Operation
  | .opened hdl => [.inserted hdl []]
  | .closed hdl => [.erased hdl]
  | .run tid u now =>
      (recorded L s (.run tid u now)).map fun subscribed =>
        .inserted subscribed.hdl subscribed.symbol
  | .message _ _ _ | .destroyed _ => []

/-- What the operations with a handle have left for it. -/
def latest (log : List Operation) (hdl : Hdl) : Option Bytes :=
  log.foldl (fun entry operation => if operation.hdl = hdl then operation.entry else entry) none

def InsertedSinceErase (log : List Operation) (hdl : Hdl) : Prop :=
  ∃ before symbol after, log = before ++ .inserted hdl symbol :: after ∧ .erased hdl ∉ after

theorem latest_snoc (log : List Operation) (operation : Operation) (hdl : Hdl) :
    latest (log ++ [operation]) hdl =
      if operation.hdl = hdl then operation.entry else latest log hdl := by
  rw [latest, List.foldl_append]
  rfl

theorem latest_of_others {log operations : List Operation} {hdl : Hdl}
    (others : ∀ operation ∈ operations, operation.hdl ≠ hdl) :
    latest (log ++ operations) hdl = latest log hdl := by
  induction operations generalizing log with
  | nil => rw [List.append_nil]
  | cons operation rest ih =>
      have later : latest (log ++ [operation] ++ rest) hdl = latest (log ++ [operation]) hdl :=
        ih fun other member => others other (List.mem_cons_of_mem _ member)
      rw [List.append_assoc, List.singleton_append, latest_snoc,
        if_neg (others operation List.mem_cons_self)] at later
      exact later

/-- Without an erase an entry stays, whatever symbol it has. -/
theorem latest_isSome_append {log operations : List Operation} {hdl : Hdl}
    (entered : (latest log hdl).isSome) (kept : .erased hdl ∉ operations) :
    (latest (log ++ operations) hdl).isSome := by
  induction operations generalizing log with
  | nil => rwa [List.append_nil]
  | cons operation rest ih =>
      rw [← List.singleton_append, ← List.append_assoc]
      refine ih ?_ fun erased => kept (List.mem_cons_of_mem _ erased)
      rw [latest_snoc]
      split
      · rename_i own
        cases operation with
        | inserted h symbol => rfl
        | erased h =>
            cases own
            exact absurd List.mem_cons_self kept
      · exact entered

theorem latest_isSome_iff (log : List Operation) (hdl : Hdl) :
    (latest log hdl).isSome ↔ InsertedSinceErase log hdl := by
  constructor
  · intro found
    induction log using List.reverseRecOn with
    | nil => cases found
    | append_singleton log operation ih =>
        rw [latest_snoc] at found
        by_cases own : operation.hdl = hdl
        · rw [if_pos own] at found
          cases operation with
          | inserted h symbol =>
              cases own
              exact ⟨log, symbol, [], rfl, List.not_mem_nil⟩
          | erased h => cases found
        · rw [if_neg own] at found
          obtain ⟨before, symbol, after, same, kept⟩ := ih found
          refine ⟨before, symbol, after ++ [operation], by simp [same], fun erased => ?_⟩
          rcases List.mem_append.mp erased with early | last
          · exact kept early
          · exact own (congrArg Operation.hdl (List.mem_singleton.mp last)).symm
  · intro ⟨before, symbol, after, same, kept⟩
    have entered : (latest (before ++ [.inserted hdl symbol]) hdl).isSome := by
      rw [latest_snoc]
      simp [Operation.hdl, Operation.entry]
    have later := latest_isSome_append entered kept
    rwa [List.append_assoc, List.singleton_append, ← same] at later

namespace WebSocketServer

/-- A thread that has not ended has captured the handle, or the table has it. -/
def Held (s : WebSocketServer) (hdl : Hdl) : Prop :=
  (∃ thread ∈ s.threads, thread.hdl = hdl ∧ thread.stage ≠ .done) ∨ some hdl ∈ s.subscriptions

instance (s : WebSocketServer) (hdl : Hdl) : Decidable (s.Held hdl) :=
  inferInstanceAs (Decidable (_ ∨ _))

/-- `connection_hdl_hash`, given where the connections lie and what `std::hash` makes
of an address; a null pointer is the address 0. -/
def connectionHdlHash (addressOf hash : Nat → Nat) (s : WebSocketServer) (hdl : Hdl) : Nat :=
  hash (match s.lock hdl with
    | some connection => addressOf connection
    | none => 0)

def connectionHdlEqual (s : WebSocketServer) (a b : Hdl) : Bool := s.lock a == s.lock b

def count (s : WebSocketServer) (hdl : Hdl) : Nat := if s.lock hdl ∈ s.subscriptions then 1 else 0

end WebSocketServer

/-- The handles that are held stand for their connections, and the table has for a
connection what the operations with its own handle left. -/
structure Distinguished (addressOf hash : Nat → Nat) (s : WebSocketServer) (log : List Operation) :
    Prop where
  equal : ∀ a b, s.Held a → s.Held b → (s.connectionHdlEqual a b = true ↔ a = b)
  hashed : ∀ a, s.Held a → s.connectionHdlHash addressOf hash a = hash (addressOf a)
  counted : ∀ hdl, s.count hdl = 1 ↔ InsertedSinceErase log hdl
  found : ∀ hdl, s.subscriptions.lookup (s.lock hdl) = latest log hdl

/-- No operation made for one connection changes the entry found for another. -/
theorem Distinguished.others {L : Libraries} {addressOf hash : Nat → Nat}
    {r r' : WebSocketServer × List Operation} {e : Event}
    (before : Distinguished addressOf hash r.1 r.2) (after : Distinguished addressOf hash r'.1 r'.2)
    (taken : Recording (Serves L) (operations L) r e r') {hdl : Hdl}
    (others : ∀ operation ∈ operations L r.1 e, operation.hdl ≠ hdl) :
    r'.1.subscriptions.lookup (r'.1.lock hdl) = r.1.subscriptions.lookup (r.1.lock hdl) := by
  rw [after.found, before.found, taken.2]
  exact latest_of_others others

/-- No connection is destroyed while somebody holds a handle of it. -/
def DestroysUnheld (s : WebSocketServer) : Event → Prop
  | .destroyed hdl => ¬ s.Held hdl
  | .opened _ | .message _ _ _ | .closed _ | .run _ _ _ => True

instance (s : WebSocketServer) (e : Event) : Decidable (DestroysUnheld s e) :=
  match e with
  | .destroyed hdl => inferInstanceAs (Decidable (¬ s.Held hdl))
  | .opened _ | .message _ _ _ | .closed _ | .run _ _ _ => .isTrue trivial

/-- Every key is the handle of a connection that is there. -/
structure Keyed (s : WebSocketServer) (log : List Operation) : Prop where
  alive : ∀ hdl, s.Held hdl → s.phase hdl ≠ .destroyed
  stored : ∀ hdl, s.subscriptions.lookup (some hdl) = latest log hdl
  named : none ∉ s.subscriptions

theorem keyed_create : Keyed .create [] where
  alive := by
    intro hdl held
    exact nofun
  stored := fun _ => rfl
  named := AList.notMem_empty none

theorem WebSocketServer.lock_of_present {s : WebSocketServer} {hdl : Hdl}
    (present : s.phase hdl ≠ .destroyed) : s.lock hdl = some hdl := if_neg present

theorem Keyed.distinguished {s : WebSocketServer} {log : List Operation} (keyed : Keyed s log)
    (addressOf hash : Nat → Nat) : Distinguished addressOf hash s log := by
  have locked {a : Hdl} (held : s.Held a) : s.lock a = some a :=
    WebSocketServer.lock_of_present (keyed.alive a held)
  have found (hdl : Hdl) : s.subscriptions.lookup (s.lock hdl) = latest log hdl := by
    by_cases destroyed : s.phase hdl = .destroyed
    · have unlisted : some hdl ∉ s.subscriptions :=
        fun listed => keyed.alive hdl (.inr listed) destroyed
      rw [← keyed.stored hdl, AList.lookup_eq_none.mpr unlisted, WebSocketServer.lock,
        if_pos destroyed]
      exact AList.lookup_eq_none.mpr keyed.named
    · rw [WebSocketServer.lock_of_present destroyed]
      exact keyed.stored hdl
  constructor
  · intro a b heldA heldB
    rw [WebSocketServer.connectionHdlEqual, locked heldA, locked heldB, beq_iff_eq,
      Option.some.injEq]
  · intro a held
    rw [WebSocketServer.connectionHdlHash, locked held]
  · intro hdl
    rw [← latest_isSome_iff, ← found, AList.lookup_isSome, WebSocketServer.count]
    split <;> simp [*]
  · exact found

theorem Keyed.insert {s : WebSocketServer} {log : List Operation} (keyed : Keyed s log) {hdl : Hdl}
    (present : s.phase hdl ≠ .destroyed) (symbol : Bytes) :
    Keyed (s.subscribe hdl symbol) (log ++ [.inserted hdl symbol]) := by
  have inserted : (s.subscribe hdl symbol).subscriptions =
      s.subscriptions.insert (some hdl) symbol := by
    rw [← WebSocketServer.lock_of_present present]
    rfl
  constructor
  · intro other held
    rcases held with captured | listed
    · exact keyed.alive other (.inl captured)
    · rw [inserted, AList.mem_insert] at listed
      rcases listed with same | old
      · cases same
        exact present
      · exact keyed.alive other (.inr old)
  · intro other
    rw [latest_snoc, inserted]
    by_cases same : other = hdl
    · subst same
      simp [Operation.hdl, Operation.entry]
    · rw [AList.lookup_insert_ne (by simpa using same), keyed.stored]
      simp [Operation.hdl, Ne.symm same]
  · rw [inserted, AList.mem_insert]
    intro listed
    rcases listed with key | old
    · cases key
    · exact keyed.named old

theorem Keyed.erase {s : WebSocketServer} {log : List Operation} (keyed : Keyed s log) {hdl : Hdl}
    (present : s.phase hdl ≠ .destroyed) : Keyed (s.onClose hdl) (log ++ [.erased hdl]) := by
  have erased : (s.onClose hdl).subscriptions = s.subscriptions.erase (some hdl) := by
    rw [← WebSocketServer.lock_of_present present]
    rfl
  constructor
  · intro other held
    rcases held with captured | listed
    · exact keyed.alive other (.inl captured)
    · rw [erased] at listed
      exact keyed.alive other (.inr (AList.mem_erase.mp listed).2)
  · intro other
    rw [latest_snoc, erased]
    by_cases same : other = hdl
    · subst same
      simp [Operation.hdl, Operation.entry]
    · rw [AList.lookup_erase_ne (by simpa using same), keyed.stored]
      simp [Operation.hdl, Ne.symm same]
  · rw [erased]
    exact fun listed => keyed.named (AList.mem_erase.mp listed).2

theorem Keyed.enter {s : WebSocketServer} {log : List Operation} (keyed : Keyed s log) {hdl : Hdl}
    {phase : Phase} (allowed : s.Held hdl → phase ≠ .destroyed) :
    Keyed (s.enter hdl phase) log where
  alive := by
    intro other held destroyed
    obtain ⟨rfl, same⟩ | ⟨_, same⟩ := (s.phase_enter ..).mp destroyed
    · exact allowed held same
    · exact keyed.alive other held same
  stored := keyed.stored
  named := keyed.named

theorem Keyed.move {s : WebSocketServer} {log : List Operation} (keyed : Keyed s log) {tid : Nat}
    {thread : Thread} (present : s.phase thread.hdl ≠ .destroyed) (stage : Stage) :
    Keyed (s.move tid thread stage) log where
  alive := by
    intro hdl held
    rcases held with ⟨other, member, same, going⟩ | listed
    · obtain old | rfl := s.mem_move member
      · exact keyed.alive hdl (.inl ⟨other, old, same, going⟩)
      · exact same ▸ present
    · exact keyed.alive hdl (.inr listed)
  stored := keyed.stored
  named := keyed.named

theorem Keyed.message {s : WebSocketServer} {log : List Operation} (keyed : Keyed s log) {hdl : Hdl}
    (isOpen : s.phase hdl = .opened) (payload : Bytes) (receivedMillis : Int64) :
    Keyed (s.onMessage hdl payload receivedMillis) log where
  alive := by
    intro other held
    rcases held with ⟨thread, member, same, going⟩ | listed
    · rcases List.mem_append.mp member with old | new
      · exact keyed.alive other (.inl ⟨thread, old, same, going⟩)
      · cases List.mem_singleton.mp new
        cases same
        exact fun destroyed => by cases isOpen.symm.trans destroyed
    · exact keyed.alive other (.inr listed)
  stored := keyed.stored
  named := keyed.named

theorem not_done_of_turn {L : Libraries} {s : WebSocketServer} {u : Upstream} {now : Int64}
    {thread : Thread} {turn : Turn} (taken : s.turn L u now thread = some turn) :
    thread.stage ≠ .done := by
  intro ended
  simp [WebSocketServer.turn, ended] at taken

theorem keyed_step {L : Libraries} {s t : WebSocketServer} {log : List Operation} {e : Event}
    (keyed : Keyed s log) (unheld : DestroysUnheld s e) (served : Served L s e t) :
    Keyed t (log ++ operations L s e) := by
  have captured {tid : Nat} {thread : Thread} (here : s.threads[tid]? = some thread)
      (going : thread.stage ≠ .done) : s.phase thread.hdl ≠ .destroyed :=
    keyed.alive thread.hdl (.inl ⟨thread, List.mem_of_getElem? here, rfl, going⟩)
  cases served with
  | @opened hdl fresh =>
      have entered : Keyed (s.enter hdl .opened) log := keyed.enter (by simp)
      exact entered.insert (by simp [WebSocketServer.enter]) []
  | message isOpen =>
      rw [operations, List.append_nil]
      exact keyed.message isOpen ..
  | @closed hdl isOpen =>
      have entered : Keyed (s.enter hdl .closed) log := keyed.enter (by simp)
      exact entered.erase (by simp [WebSocketServer.enter])
  | destroyed isClosed =>
      rw [operations, List.append_nil]
      exact keyed.enter fun held => absurd held unheld
  | goes here taken =>
      simp only [operations, recorded, here, taken, List.map_nil, List.append_nil]
      exact keyed.move (captured here (not_done_of_turn taken)) _
  | @subscribes tid u now thread symbol here taken =>
      simp only [operations, recorded, here, taken, List.map_cons, List.map_nil]
      have present := captured here (not_done_of_turn taken)
      exact (keyed.insert present symbol).move present _
  | dies here taken =>
      simp only [operations, recorded, here, taken, List.map_nil, List.append_nil]
      exact { keyed with }

/-- A connection that is destroyed under a handle takes the handle's hash with it. -/
theorem not_distinguished_of_destroyed {addressOf hash : Nat → Nat} {s : WebSocketServer}
    {log : List Operation} {hdl : Hdl} (apart : hash (addressOf hdl) ≠ hash 0) (held : s.Held hdl) :
    ¬ Distinguished addressOf hash (s.enter hdl .destroyed) log := by
  intro identified
  have hashed := identified.hashed hdl held
  rw [WebSocketServer.connectionHdlHash, WebSocketServer.lock,
    if_pos (by simp [WebSocketServer.enter])] at hashed
  exact apart hashed.symm

/-- Handles stand for their connections throughout a run if, and where no address has
the hash of null only if, no connection is ever destroyed under a handle. -/
theorem handles_identified_iff (L : Libraries) (addressOf hash : Nat → Nat) {events : List Event}
    {r : WebSocketServer × List Operation}
    (run : Trace (Recording (Serves L) (operations L)) (.create, []) events r) :
    (Stepwise (Serves L) DestroysUnheld .create events →
      Throughout (Recording (Serves L) (operations L))
        (fun r => Distinguished addressOf hash r.1 r.2) (.create, []) events) ∧
    ((∀ hdl, hash (addressOf hdl) ≠ hash 0) →
      Throughout (Recording (Serves L) (operations L))
        (fun r => Distinguished addressOf hash r.1 r.2) (.create, []) events →
      Stepwise (Serves L) DestroysUnheld .create events) := by
  constructor
  · intro unheld
    have keyed : Throughout (Recording (Serves L) (operations L)) (fun r => Keyed r.1 r.2)
        (.create, []) events := by
      refine (stepwise_recording_iff.mpr unheld).throughout ?_ keyed_create
      intro r e r' keyed condition taken
      rw [taken.2]
      exact keyed_step keyed condition (Serves.cases taken.1).2
    exact keyed.mono fun r keyed => keyed.distinguished addressOf hash
  · intro apart identified
    have necessary : ∀ (r : WebSocketServer × List Operation) e r', True →
        Distinguished addressOf hash r.1 r.2 → Recording (Serves L) (operations L) r e r' →
        Distinguished addressOf hash r'.1 r'.2 → DestroysUnheld r.1 e := by
      intro r e r' _ _ taken after
      cases e with
      | destroyed hdl =>
          intro held
          obtain ⟨s', log'⟩ := r'
          obtain ⟨_, served⟩ := Serves.cases taken.1
          cases served
          exact not_distinguished_of_destroyed (apart hdl) held after
      | opened | message | closed | run => exact trivial
    refine stepwise_recording_iff.mp (identified.stepwise ?_ necessary run ?_)
    · exact Recording.functional Takes.functional
    · exact .of_forall fun _ _ _ => trivial

/-- A connection from its opening to its destruction, with one thread that ends before. -/
def sampleLifetime : List Event :=
  [.opened 0, .message 0 samplePayload 1700000000005, .run 0 sampleUpstream 0,
    .run 0 sampleUpstream 0, .run 0 sampleUpstream 0, .closed 0, .run 0 sampleUpstream 0,
    .destroyed 0]

theorem sampleLifetime_identified :
    ∃ s log, Trace (Recording (Serves sampleServer) (operations sampleServer)) (.create, [])
        sampleLifetime (s, log) ∧
      s.phase 0 = .destroyed ∧ Distinguished (fun hdl => hdl + 1) id s log := by
  have followed : (follow (WebSocketServer.next sampleServer) .create sampleLifetime).any
      (fun s => s.phase 0 == .destroyed) := by decide +kernel
  obtain ⟨s, run, shown⟩ := exists_trace_of_follow followed
  obtain ⟨log, recordedRun⟩ : ∃ log, Trace (Recording (Serves sampleServer)
      (operations sampleServer)) (.create, []) sampleLifetime (s, log) := run.recorded []
  have identified := (handles_identified_iff sampleServer (fun hdl => hdl + 1) id recordedRun).1
    (stepwise_of_along (by decide +kernel))
  exact ⟨s, log, recordedRun, beq_iff_eq.mp shown,
    identified sampleLifetime [] (s, log) (List.append_nil _).symm recordedRun⟩

/-- Two connections are destroyed under their threads, of which the second is in its
loop, and the first only then subscribes. -/
def destroyedUnderThreads : List Event :=
  [.opened 0, .opened 1, .message 0 samplePayload 1700000000005,
    .message 1 samplePayload 1700000000005, .run 1 sampleUpstream 0, .run 1 sampleUpstream 0,
    .run 1 sampleUpstream 0, .closed 0, .closed 1, .destroyed 0, .destroyed 1,
    .run 0 sampleUpstream 0]

/-- The handles are equal, and the second is found in the table by what the first
has put there. -/
theorem foreign_handle_found :
    ∃ s log, Trace (Recording (Serves sampleServer) (operations sampleServer)) (.create, [])
        destroyedUnderThreads (s, log) ∧
      s.Held 0 ∧ s.Held 1 ∧ s.connectionHdlEqual 0 1 = true ∧
      s.count 1 = 1 ∧ ¬ InsertedSinceErase log 1 ∧
      ∀ addressOf hash, ¬ Distinguished addressOf hash s log := by
  have followed : (follow (recordingNext (WebSocketServer.next sampleServer)
      (operations sampleServer)) (.create, []) destroyedUnderThreads).any
      (fun r => decide (r.1.Held 0) && decide (r.1.Held 1) && r.1.connectionHdlEqual 0 1 &&
        r.1.count 1 == 1 && latest r.2 1 == none) := by decide +kernel
  obtain ⟨⟨s, log⟩, run, shown⟩ := exists_trace_of_follow followed
  rw [takes_recordingNext] at run
  simp only [Bool.and_eq_true, decide_eq_true_eq, beq_iff_eq] at shown
  obtain ⟨⟨⟨⟨first, second⟩, equal⟩, found⟩, unlisted⟩ := shown
  refine ⟨s, log, run, first, second, equal, found, ?_, ?_⟩
  · intro inserted
    have entered := (latest_isSome_iff log 1).mpr inserted
    rw [unlisted] at entered
    cases entered
  · intro addressOf hash identified
    cases (identified.equal 0 1 first second).mp equal

end DeribitTrading
