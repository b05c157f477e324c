import DeribitTrading.Client.CurlConnectionManager
import DeribitTrading.Library.Interleaving
import DeribitTrading.Library.Runs

/-!
The two ways of `OrderAPI` to make many requests at once, and what the requests
would give one after the other. The network is what it answers to each URL; the
order in which the transfers go on and complete is the run's.
-/
namespace DeribitTrading
open ByteString Runs Interleaving

namespace Transfer

/-- What `WriteCallback` has put into an empty buffer in the end. -/
def body (t : Transfer) : Bytes := t.chunks.foldl writeCallback []

def succeeded (t : Transfer) : Bool := t.code = .ok

end Transfer

/-- What request number `i` of a batch meets when it asks for this URL. -/
abbrev Answers := Nat → Bytes → Transfer

/-- The transfers of a batch, in the order of its URLs. -/
def transfers (answers : Answers) (urls : List Bytes) : List Transfer := urls.mapIdx answers

def bodyAt (answers : Answers) (urls : List Bytes) (i : Nat) : Option Bytes :=
  urls[i]?.map fun url => (answers i url).body

/-- What the requests give one after the other: each response at the place of its
URL, and true for a batch without a failure. -/
def Sequential (answers : Answers) (urls responses : List Bytes) (result : Bool) : Prop :=
  responses = (transfers answers urls).map Transfer.body ∧
    (result = true ↔ ∀ t ∈ transfers answers urls, t.succeeded = true)

theorem bodies_eq (answers : Answers) (urls : List Bytes) :
    ((transfers answers urls).map Transfer.body).map some =
      (List.range urls.length).map (bodyAt answers urls) := by
  apply List.ext_getElem?
  intro i
  by_cases below : i < urls.length
  · simp [transfers, bodyAt, below]
  · simp [transfers, below]

theorem forall_transfers_iff (answers : Answers) (urls : List Bytes) (P : Transfer → Prop) :
    (∀ t ∈ transfers answers urls, P t) ↔
      ∀ i < urls.length, ∀ url, urls[i]? = some url → P (answers i url) := by
  constructor
  · intro all i below url here
    refine all _ (List.mem_iff_getElem?.mpr ⟨i, ?_⟩)
    rw [transfers, List.getElem?_mapIdx, here, Option.map_some]
  · intro all t member
    obtain ⟨i, there⟩ := List.mem_iff_getElem?.mp member
    rw [transfers, List.getElem?_mapIdx, Option.map_eq_some_iff] at there
    obtain ⟨url, here, rfl⟩ := there
    exact all i (List.getElem?_eq_some_iff.mp here).1 url here

/-- For its caller a request is one transfer, whatever attempts it took. -/
theorem performAttempts_transfer {ω : Type} (net : Network ω) (o : CurlOptions) (left : Nat)
    (response : Bytes) (w : ω) :
    ∃ t : Transfer, (performAttempts net o left response w).2.1 =
        t.chunks.foldl writeCallback response ∧
      (performAttempts net o left response w).1 = t.code := by
  induction left generalizing response w with
  | zero =>
      rw [performAttempts]
      rcases net.perform o w with ⟨⟨_ | code, chunks⟩, w'⟩
      · exact ⟨⟨.ok, chunks⟩, rfl, rfl⟩
      · exact ⟨⟨.failed code, chunks⟩, rfl, rfl⟩
  | succ left ih =>
      rw [performAttempts]
      rcases net.perform o w with ⟨⟨_ | code, chunks⟩, w'⟩
      · exact ⟨⟨.ok, chunks⟩, rfl, rfl⟩
      · obtain ⟨t, response, code⟩ := ih (chunks.foldl writeCallback response) w'
        refine ⟨⟨t.code, chunks ++ t.chunks⟩, ?_, code⟩
        rw [List.foldl_append]
        exact response

/-- Whatever network a request meets, it ends as one of the transfers that the batches
below are given as the answers to their URLs. -/
theorem performCurlRequest_transfer {ω : Type} (net : Network ω) (m : CurlConnectionManager)
    (url accessToken : Bytes) (buffer : Addr) (w : ω) :
    ∃ t : Transfer,
      (performCurlRequest net m url accessToken buffer [] w).response = t.body ∧
      (performCurlRequest net m url accessToken buffer [] w).success = t.succeeded := by
  unfold performCurlRequest CurlConnectionManager.getCurlHandle
  cases free : m.freeHandles with
  | nil => exact ⟨⟨.failed 0, []⟩, rfl, rfl⟩
  | cons curl rest =>
      obtain ⟨t, response, code⟩ := performAttempts_transfer net
        (requestOptions (m.options curl) url accessToken buffer) (maxRetries - 1) [] w
      refine ⟨t, response, ?_⟩
      simp only [Transfer.succeeded, ← code]

namespace AsyncBatch

/-- A `std::async` task of `performBatchAsyncCurlRequest` and what its future holds. -/
structure Task where
  url : Bytes
  result : Option Bool
  deriving DecidableEq

structure State where
  tasks : List Task
  responses : List Bytes
  collected : Nat
  allSuccessful : Bool
  returned : Option Bool
  deriving DecidableEq

/-- Called with an empty `responses`. -/
def initial : State where
  tasks := []
  responses := []
  collected := 0
  allSuccessful := true
  returned := none

inductive Event where
  | launch
  | complete (i : Nat)
  | collect

def next (answers : Answers) (urls : List Bytes) (s : State) : Event → Option State
  | .launch =>
      urls[s.tasks.length]?.map fun url => { s with tasks := s.tasks ++ [⟨url, none⟩] }
  | .complete i =>
      match s.tasks[i]? with
      | some ⟨url, none⟩ =>
          some { s with
            responses := s.responses ++ [(answers i url).body]
            tasks := s.tasks.set i ⟨url, some (answers i url).succeeded⟩ }
      | _ => none
  | .collect =>
      -- `future.get()` for the next future, once all are launched
      if s.tasks.length = urls.length ∧ s.returned = none then
        match s.tasks[s.collected]? with
        | some task =>
            task.result.map fun result =>
              { s with
                collected := s.collected + 1
                allSuccessful := s.allSuccessful && result }
        | none => some { s with returned := some s.allSuccessful }
      else none

def completed : Event → List Nat
  | .complete i => [i]
  | .launch | .collect => []

def completions (events : List Event) : List Nat := events.flatMap completed

/-- The invariant of the run, beside the order of completion so far. -/
structure Inv (answers : Answers) (urls : List Bytes) (s : State) (order : List Nat) : Prop where
  launched : s.tasks.length ≤ urls.length
  tasks : Each (fun i task => urls[i]? = some task.url ∧
    ∀ result, task.result = some result → result = (answers i task.url).succeeded) s.tasks
  responses : s.responses.map some = order.map (bodyAt answers urls)
  collected : s.collected ≤ urls.length
  allSuccessful : s.allSuccessful = true ↔
    ∀ i < s.collected, ∀ url, urls[i]? = some url → (answers i url).succeeded = true
  returned : ∀ result, s.returned = some result →
    s.collected = urls.length ∧ result = s.allSuccessful

theorem inv_initial (answers : Answers) (urls : List Bytes) : Inv answers urls initial [] where
  launched := Nat.zero_le _
  tasks := .nil
  responses := rfl
  collected := Nat.zero_le _
  allSuccessful := by simp [initial]
  returned := by
    intro result returned
    cases returned

theorem inv_step {answers : Answers} {urls : List Bytes} (s : State) (order : List Nat) (e : Event)
    (t : State) (inv : Inv answers urls s order) (taken : Takes (next answers urls) s e t) :
    Inv answers urls t (order ++ completed e) := by
  cases e with
  | launch =>
      obtain ⟨url, here, rfl⟩ := Option.map_eq_some_iff.mp taken
      obtain ⟨below, _⟩ := List.getElem?_eq_some_iff.mp here
      rw [completed, List.append_nil]
      refine { inv with
        launched := ?_
        tasks := inv.tasks.append ⟨here, ?_⟩ fun _ _ _ own => own }
      · rw [List.length_append, List.length_singleton]
        exact below
      · intro result finished
        cases finished
  | complete i =>
      simp only [Takes, next] at taken
      split at taken
      · rename_i url pending
        cases taken
        obtain ⟨place, _⟩ := inv.tasks i _ pending
        refine { inv with launched := ?_, tasks := ?_, responses := ?_ }
        · rw [List.length_set]
          exact inv.launched
        · refine inv.tasks.set ⟨place, ?_⟩ fun _ _ _ _ own => own
          intro result finished
          exact (Option.some.inj finished).symm
        · rw [List.map_append, List.map_append, inv.responses]
          simp [completed, bodyAt, place]
      · cases taken
  | collect =>
      rw [completed, List.append_nil]
      simp only [Takes, next] at taken
      split at taken
      · rename_i ready
        obtain ⟨all, unfinished⟩ := ready
        split at taken
        · rename_i task here
          obtain ⟨result, finished, rfl⟩ := Option.map_eq_some_iff.mp taken
          obtain ⟨place, outcome⟩ := inv.tasks _ task here
          obtain ⟨below, _⟩ := List.getElem?_eq_some_iff.mp place
          refine { inv with collected := below, allSuccessful := ?_, returned := ?_ }
          · rw [Bool.and_eq_true, inv.allSuccessful, outcome result finished,
              Nat.forall_lt_succ_right]
            apply and_congr_right
            intro before
            constructor
            · intro now url there
              cases place.symm.trans there
              exact now
            · intro each
              exact each _ place
          · intro result returned
            rw [unfinished] at returned
            cases returned
        · rename_i past
          cases taken
          refine { inv with returned := ?_ }
          intro result returned
          have ended := List.getElem?_eq_none_iff.mp past
          exact ⟨Nat.le_antisymm inv.collected (all ▸ ended), (Option.some.inj returned).symm⟩
      · cases taken

theorem inv_run {answers : Answers} {urls : List Bytes} {events : List Event} {s : State}
    (trace : Trace (Takes (next answers urls)) initial events s) :
    Inv answers urls s (completions events) := by
  obtain ⟨order, recorded, inv⟩ : ∃ order,
      Trace (Recording _ fun _ e => completed e) _ events (s, order) ∧ Inv answers urls s order :=
    trace.exists_record inv_step (inv_initial answers urls)
  have same := recorded.record_eq
  rw [List.nil_append] at same
  dsimp only at same
  subst same
  exact inv

/-- The transfers complete in an order that leaves every body at its URL's place. -/
def InPlace (answers : Answers) (urls : List Bytes) (order : List Nat) : Prop :=
  order.map (bodyAt answers urls) = (List.range urls.length).map (bodyAt answers urls)

theorem sequential_iff {answers : Answers} {urls : List Bytes} {events : List Event} {s : State}
    {result : Bool} (trace : Trace (Takes (next answers urls)) initial events s)
    (returned : s.returned = some result) :
    Sequential answers urls s.responses result ↔ InPlace answers urls (completions events) := by
  have inv := inv_run trace
  obtain ⟨all, same⟩ := inv.returned result returned
  have truthful : result = true ↔ ∀ t ∈ transfers answers urls, t.succeeded = true := by
    rw [same, inv.allSuccessful, all, forall_transfers_iff answers urls]
  rw [Sequential, and_iff_left truthful, InPlace, ← inv.responses, ← bodies_eq,
    List.map_inj_right fun _ _ => Option.some.inj]

def Task.pending (task : Task) : Nat := if task.result.isSome then 0 else 1

def stepsLeft (urls : List Bytes) (s : State) : Nat :=
  2 * (urls.length - s.tasks.length) + (s.tasks.map Task.pending).sum +
    (urls.length - s.collected) + if s.returned.isSome then 0 else 1

/-- Until the function returns there is a step, and every such step brings it closer. -/
theorem step_closer {answers : Answers} {urls : List Bytes} {s : State} {order : List Nat}
    (inv : Inv answers urls s order) (unfinished : s.returned = none) :
    ∃ e t, next answers urls s e = some t ∧ stepsLeft urls t < stepsLeft urls s := by
  have bound := inv.launched
  rcases Nat.lt_or_eq_of_le bound with more | all
  · refine ⟨.launch, _, by rw [next, List.getElem?_eq_getElem more, Option.map_some], ?_⟩
    simp only [stepsLeft, List.length_append, List.length_singleton, List.map_append,
      List.sum_append, List.map_cons, List.map_nil, List.sum_cons, List.sum_nil, Task.pending]
    simp only [Option.isSome_none, Bool.false_eq_true, if_false]
    omega
  · by_cases working : ∃ (i : Nat) (url : Bytes), s.tasks[i]? = some ⟨url, none⟩
    · obtain ⟨i, url, pending⟩ := working
      refine ⟨.complete i, _, by rw [next, pending], ?_⟩
      have fewer := sum_set Task.pending pending (⟨url, some (answers i url).succeeded⟩ : Task)
      simp only [stepsLeft, List.length_set]
      simp only [Task.pending, Option.isSome_none, Option.isSome_some, Bool.false_eq_true,
        if_false, if_true] at fewer ⊢
      omega
    · rcases Nat.lt_or_eq_of_le inv.collected with more | done
      · have here : s.tasks[s.collected]? = some s.tasks[s.collected] :=
          List.getElem?_eq_getElem (by omega)
        cases finished : s.tasks[s.collected].result with
        | none =>
            refine absurd ⟨s.collected, s.tasks[s.collected].url, ?_⟩ working
            rw [here, ← finished]
        | some result =>
            refine ⟨.collect, _, by
              rw [next, if_pos ⟨all, unfinished⟩, here]
              simp only [finished, Option.map_some]
              rfl, ?_⟩
            simp only [stepsLeft]
            omega
      · refine ⟨.collect, _, by
          rw [next, if_pos ⟨all, unfinished⟩, List.getElem?_eq_none (by omega)], ?_⟩
        simp only [stepsLeft, unfinished, Option.isSome_none, Option.isSome_some,
          Bool.false_eq_true, if_false, if_true]
        omega

theorem returns {answers : Answers} {urls : List Bytes} {events : List Event} {s : State}
    (trace : Trace (Takes (next answers urls)) initial events s) :
    ∃ later t, Trace (Takes (next answers urls)) s later t ∧ t.returned ≠ none := by
  refine exists_completion (P := fun s => ∃ order, Inv answers urls s order)
    (m := stepsLeft urls) ?_ ⟨_, inv_run trace⟩
  intro s ⟨order, inv⟩ unfinished
  obtain ⟨e, t, taken, less⟩ := step_closer inv (Decidable.not_not.mp unfinished)
  exact ⟨e, t, taken, ⟨_, inv_step s order e t inv taken⟩, less⟩

end AsyncBatch

/-- `batchNetworkRequests`: all transfers driven by one multi handle. -/
structure EasyHandle where
  url : Bytes
  /-- `CURLOPT_WRITEDATA`: the place in `responses` -/
  writedata : Nat
  /-- what the transfer has still to deliver -/
  left : List Bytes
  running : Bool
  deriving DecidableEq

namespace MultiBatch

structure State where
  handles : List EasyHandle
  responses : List Bytes
  returned : Option Bool
  deriving DecidableEq

/-- The loop that sets the handles up, with one empty string for each URL. -/
def initial (answers : Answers) (urls : List Bytes) : State where
  handles := urls.mapIdx fun i url => ⟨url, i, (answers i url).chunks, true⟩
  responses := urls.map fun _ => []
  returned := none

inductive Event where
  /-- `WriteCallback` with the next piece of transfer `i` -/
  | deliver (i : Nat)
  /-- transfer `i` ends, as it may be -/
  | finish (i : Nat)
  /-- `curl_multi_perform` returns; `none` is `CURLM_OK` -/
  | performed (mc : Option Nat)

/-- One event before the handles are cleaned up. -/
def State.work (s : State) : Event → Option State
  | .deliver i =>
      match s.handles[i]? with
      | some ⟨url, writedata, contents :: left, true⟩ =>
          some { s with
            handles := s.handles.set i ⟨url, writedata, left, true⟩
            responses := s.responses.modify writedata (writeCallback · contents) }
      | _ => none
  | .finish i =>
      match s.handles[i]? with
      | some ⟨url, writedata, [], true⟩ =>
          some { s with handles := s.handles.set i ⟨url, writedata, [], false⟩ }
      | _ => none
  | .performed (some _) => some { s with returned := some true }
  | .performed none =>
      if s.handles.any (·.running) then some s else some { s with returned := some true }

def next (s : State) (e : Event) : Option State :=
  if s.returned = none then s.work e else none

theorem works {s t : State} {e : Event} (taken : Takes next s e t) :
    s.returned = none ∧ s.work e = some t := by
  unfold Takes next at taken
  split at taken
  · exact ⟨by assumption, taken⟩
  · cases taken

/-- All that an event does: a handle moves on, nothing happens, or the loop is left. -/
theorem work_cases {s t : State} {e : Event} (taken : s.work e = some t) :
    (∃ i url writedata contents left,
      s.handles[i]? = some ⟨url, writedata, contents :: left, true⟩ ∧
      t = { s with
        handles := s.handles.set i ⟨url, writedata, left, true⟩
        responses := s.responses.modify writedata (writeCallback · contents) }) ∨
    (∃ i url writedata, s.handles[i]? = some ⟨url, writedata, [], true⟩ ∧
      t = { s with handles := s.handles.set i ⟨url, writedata, [], false⟩ }) ∨
    t = s ∨
    t = { s with returned := some true } ∧
      ((∃ code, e = .performed (some code)) ∨ ∀ h ∈ s.handles, h.running = false) := by
  cases e with
  | deliver i =>
      rw [State.work] at taken
      split at taken
      · rename_i url writedata contents left here
        cases taken
        exact .inl ⟨i, url, writedata, contents, left, here, rfl⟩
      · cases taken
  | finish i =>
      rw [State.work] at taken
      split at taken
      · rename_i url writedata here
        cases taken
        exact .inr (.inl ⟨i, url, writedata, here, rfl⟩)
      · cases taken
  | performed mc =>
      cases mc with
      | some code =>
          cases taken
          exact .inr (.inr (.inr ⟨rfl, .inl ⟨code, rfl⟩⟩))
      | none =>
          rw [State.work] at taken
          split at taken
          · cases taken
            exact .inr (.inr (.inl rfl))
          · rename_i idle
            cases taken
            exact .inr (.inr (.inr ⟨rfl, .inr (by simpa using idle)⟩))

/-- A handle writes to its own place, where what has come and what is still to come
make up the body of its transfer. -/
def Filling (answers : Answers) (urls responses : List Bytes) (i : Nat) (h : EasyHandle) : Prop :=
  h.writedata = i ∧ urls[i]? = some h.url ∧ (h.running = false → h.left = []) ∧
    ∃ response, responses[i]? = some response ∧
      response ++ h.left.flatten = (answers i h.url).body

structure Inv (answers : Answers) (urls : List Bytes) (s : State) : Prop where
  handles : s.handles.length = urls.length
  responses : s.responses.length = urls.length
  filling : Each (Filling answers urls s.responses) s.handles
  returned : ∀ result, s.returned = some result → result = true

theorem inv_initial (answers : Answers) (urls : List Bytes) :
    Inv answers urls (initial answers urls) where
  handles := List.length_mapIdx
  responses := List.length_map _
  filling := by
    intro i h there
    simp only [initial, List.getElem?_mapIdx, Option.map_eq_some_iff] at there
    obtain ⟨url, here, rfl⟩ := there
    refine ⟨rfl, here, by simp, [], ?_, ?_⟩
    · rw [initial, List.getElem?_map, here]
      rfl
    · rw [Transfer.body, foldl_writeCallback]
  returned := by
    intro result returned
    cases returned

theorem inv_step {answers : Answers} {urls : List Bytes} (s : State) (e : Event) (t : State)
    (inv : Inv answers urls s) (taken : Takes next s e t) : Inv answers urls t := by
  obtain ⟨unfinished, taken⟩ := works taken
  obtain ⟨i, url, writedata, contents, left, here, rfl⟩ | ⟨i, url, writedata, here, rfl⟩ |
    rfl | ⟨rfl, _⟩ := work_cases taken
  · obtain ⟨own, place, _, response, held, rest⟩ := inv.filling i _ here
    dsimp only at own
    subst own
    refine { inv with handles := ?_, responses := ?_, filling := inv.filling.set ?_ ?_ }
    · rw [List.length_set]
      exact inv.handles
    · rw [List.length_modify]
      exact inv.responses
    · refine ⟨rfl, place, by simp, response ++ contents, ?_, ?_⟩
      · rw [List.getElem?_modify_eq, held]
        rfl
      · rw [← rest, List.flatten_cons, List.append_assoc]
    · intro j h other there filling
      obtain ⟨own, place, drained, response, held, rest⟩ := filling
      refine ⟨own, place, drained, response, ?_, rest⟩
      exact (List.getElem?_modify_ne _ _ (Ne.symm other)).trans held
  · refine { inv with handles := ?_, filling := inv.filling.set ?_ fun _ _ _ _ own => own }
    · rw [List.length_set]
      exact inv.handles
    · obtain ⟨own, place, _, response⟩ := inv.filling i _ here
      exact ⟨own, place, fun _ => rfl, response⟩
  · exact inv
  · exact { inv with returned := fun _ returned => (Option.some.inj returned).symm }

theorem inv_run {answers : Answers} {urls : List Bytes} {events : List Event} {s : State}
    (trace : Trace (Takes next) (initial answers urls) events s) : Inv answers urls s :=
  trace.invariant inv_step (inv_initial answers urls)

def Delivered (s : State) : Prop := ∀ h ∈ s.handles, h.left.flatten = []

theorem delivered_iff {answers : Answers} {urls : List Bytes} {s : State}
    (inv : Inv answers urls s) :
    s.responses = (transfers answers urls).map Transfer.body ↔ Delivered s := by
  have place : ∀ (i : Nat) (h : EasyHandle), s.handles[i]? = some h →
      ((transfers answers urls).map Transfer.body)[i]? = some (answers i h.url).body := by
    intro i h there
    obtain ⟨_, here, _⟩ := inv.filling i h there
    rw [List.getElem?_map, transfers, List.getElem?_mapIdx, here]
    rfl
  constructor
  · intro same h member
    obtain ⟨i, there⟩ := List.mem_iff_getElem?.mp member
    obtain ⟨_, _, _, response, held, rest⟩ := inv.filling i h there
    rw [same, place i h there, Option.some.injEq] at held
    rw [← held] at rest
    exact List.append_right_eq_self.mp rest
  · intro delivered
    apply List.ext_getElem?
    intro i
    cases there : s.handles[i]? with
    | some h =>
        obtain ⟨_, _, _, response, held, rest⟩ := inv.filling i h there
        rw [delivered h (List.mem_of_getElem? there), List.append_nil] at rest
        rw [held, place i h there, rest]
    | none =>
        have past := List.getElem?_eq_none_iff.mp there
        rw [inv.handles] at past
        rw [List.getElem?_eq_none (by rw [inv.responses]; exact past),
          List.getElem?_eq_none (by simpa [transfers] using past)]

theorem sequential_iff {answers : Answers} {urls : List Bytes} {events : List Event} {s : State}
    {result : Bool} (trace : Trace (Takes next) (initial answers urls) events s)
    (returned : s.returned = some result) :
    Sequential answers urls s.responses result ↔
      Delivered s ∧ ∀ t ∈ transfers answers urls, t.succeeded = true := by
  have inv := inv_run trace
  rw [Sequential, delivered_iff inv, inv.returned result returned]
  simp

def EasyHandle.stepsLeft (h : EasyHandle) : Nat := h.left.length + if h.running then 1 else 0

def stepsLeft (s : State) : Nat :=
  (s.handles.map EasyHandle.stepsLeft).sum + if s.returned.isSome then 0 else 1

/-- A handle that still runs can be driven on; with none left the loop ends. -/
theorem step_closer {s : State} (unfinished : s.returned = none) :
    ∃ e t, next s e = some t ∧ stepsLeft t < stepsLeft s := by
  by_cases working : ∃ h ∈ s.handles, h.running = true
  · obtain ⟨h, member, running⟩ := working
    obtain ⟨i, there⟩ := List.mem_iff_getElem?.mp member
    obtain ⟨url, writedata, left, _⟩ := h
    dsimp only at running
    subst running
    cases left with
    | nil =>
        refine ⟨.finish i, _, by rw [next, if_pos unfinished, State.work, there], ?_⟩
        have fewer := sum_set EasyHandle.stepsLeft there ⟨url, writedata, [], false⟩
        simp [stepsLeft, EasyHandle.stepsLeft] at fewer ⊢
        omega
    | cons contents left =>
        refine ⟨.deliver i, _, by rw [next, if_pos unfinished, State.work, there], ?_⟩
        have fewer := sum_set EasyHandle.stepsLeft there ⟨url, writedata, left, true⟩
        simp [stepsLeft, EasyHandle.stepsLeft] at fewer ⊢
        omega
  · have idle : s.handles.any (·.running) = false := by simpa using working
    refine ⟨.performed none, { s with returned := some true }, ?_, ?_⟩
    · rw [next, if_pos unfinished, State.work, idle]
      rfl
    · simp [stepsLeft, unfinished]

theorem returns {answers : Answers} {urls : List Bytes} {events : List Event} {s : State}
    (trace : Trace (Takes next) (initial answers urls) events s) :
    ∃ later t, Trace (Takes next) s later t ∧ t.returned ≠ none := by
  refine exists_completion (P := Inv answers urls) (m := stepsLeft) ?_ (inv_run trace)
  intro s inv unfinished
  obtain ⟨e, t, taken, less⟩ := step_closer (Decidable.not_not.mp unfinished)
  exact ⟨e, t, taken, inv_step s e t inv taken, less⟩

/-- Without an error of `curl_multi_perform` the loop goes on until all is delivered. -/
theorem delivered_of_no_error {answers : Answers} {urls : List Bytes} {events : List Event}
    {s : State} {result : Bool} (trace : Trace (Takes next) (initial answers urls) events s)
    (returned : s.returned = some result)
    (fine : ∀ e ∈ events, ∀ code, e ≠ .performed (some code)) : Delivered s := by
  have noError : Stepwise (Takes next) (fun _ e => ∀ code, e ≠ .performed (some code))
      (initial answers urls) events := .of_forall fun e member _ => fine e member
  have ended : s.returned = none ∨ ∀ h ∈ s.handles, h.running = false := by
    refine (trace.guarded noError).invariant
      (fun s e t (_ : s.returned = none ∨ ∀ h ∈ s.handles, h.running = false) guarded => ?_)
      (Or.inl rfl)
    obtain ⟨unfinished, taken⟩ := works guarded.2
    obtain ⟨i, url, writedata, contents, left, here, rfl⟩ | ⟨i, url, writedata, here, rfl⟩ |
      rfl | ⟨rfl, ⟨code, failed⟩ | idle⟩ := work_cases taken
    · exact .inl unfinished
    · exact .inl unfinished
    · exact .inl unfinished
    · exact absurd failed (guarded.1 code)
    · exact .inr idle
  have stopped := ended.resolve_left (by simp [returned])
  intro h member
  obtain ⟨i, there⟩ := List.mem_iff_getElem?.mp member
  obtain ⟨_, _, drained, _⟩ := (inv_run trace).filling i h there
  rw [drained (stopped h member), List.flatten_nil]

end MultiBatch

/-- For every batch: the asynchronous one is the sequential one exactly if the
transfers complete in an order that puts no other body in a URL's place, the one
over a multi handle exactly if every body arrives and no transfer fails. -/
theorem batches_sequential_iff (answers : Answers) (urls : List Bytes) :
    (∀ events s result, Trace (Takes (AsyncBatch.next answers urls)) AsyncBatch.initial events s →
      s.returned = some result →
        (Sequential answers urls s.responses result ↔
          AsyncBatch.InPlace answers urls (AsyncBatch.completions events))) ∧
    (∀ events s result, Trace (Takes MultiBatch.next) (MultiBatch.initial answers urls) events s →
      s.returned = some result →
        (Sequential answers urls s.responses result ↔
          MultiBatch.Delivered s ∧ ∀ t ∈ transfers answers urls, t.succeeded = true) ∧
        ((∀ e ∈ events, ∀ code, e ≠ .performed (some code)) → MultiBatch.Delivered s)) := by
  constructor
  · intro events s result trace returned
    exact AsyncBatch.sequential_iff trace returned
  · intro events s result trace returned
    exact ⟨MultiBatch.sequential_iff trace returned,
      MultiBatch.delivered_of_no_error trace returned⟩

def twoUrls : List Bytes := [bytes "/a", bytes "/b"]

/-- Every transfer delivers its URL in two pieces and succeeds. -/
def echo : Answers := fun _ url => ⟨.ok, [url.take 1, url.drop 1]⟩

/-- The same, but for the second transfer, which fails in the end. -/
def secondFails : Answers := fun i url =>
  ⟨if i = 1 then .failed 28 else .ok, [url.take 1, url.drop 1]⟩

/-- Both futures are launched, the transfers complete in this order, and all is collected. -/
def asyncRun (order : List Nat) : List AsyncBatch.Event :=
  [.launch, .launch] ++ order.map .complete ++ [.collect, .collect, .collect]

def multiRun : List MultiBatch.Event :=
  [.deliver 0, .deliver 1, .performed none, .deliver 1, .finish 1, .deliver 0, .finish 0,
    .performed none]

theorem batches_sequential_echo :
    (∃ s, Trace (Takes (AsyncBatch.next echo twoUrls)) AsyncBatch.initial (asyncRun [0, 1]) s ∧
      Sequential echo twoUrls s.responses true) ∧
    ∃ s, Trace (Takes MultiBatch.next) (MultiBatch.initial echo twoUrls) multiRun s ∧
      Sequential echo twoUrls s.responses true := by
  obtain ⟨async, multi⟩ := batches_sequential_iff echo twoUrls
  constructor
  · obtain ⟨s, trace, returned⟩ : ∃ s, Trace (Takes (AsyncBatch.next echo twoUrls))
        AsyncBatch.initial (asyncRun [0, 1]) s ∧ decide (s.returned = some true) = true :=
      exists_trace_of_follow (by decide +kernel)
    exact ⟨s, trace, (async _ s true trace (of_decide_eq_true returned)).mpr rfl⟩
  · obtain ⟨s, trace, returned⟩ : ∃ s, Trace (Takes MultiBatch.next)
        (MultiBatch.initial echo twoUrls) multiRun s ∧ decide (s.returned = some true) = true :=
      exists_trace_of_follow (by decide +kernel)
    obtain ⟨sequential, arrives⟩ := multi _ s true trace (of_decide_eq_true returned)
    have noError : ∀ e ∈ multiRun, ∀ code, e ≠ .performed (some code) := by
      intro e member code same
      subst same
      simp [multiRun] at member
    exact ⟨s, trace, sequential.mpr ⟨arrives noError, by decide⟩⟩

theorem batches_not_sequential :
    (∃ s, Trace (Takes (AsyncBatch.next echo twoUrls)) AsyncBatch.initial (asyncRun [1, 0]) s ∧
      s.returned = some true ∧ s.responses = [bytes "/b", bytes "/a"] ∧
      ¬ Sequential echo twoUrls s.responses true) ∧
    ∃ s, Trace (Takes MultiBatch.next) (MultiBatch.initial secondFails twoUrls) multiRun s ∧
      s.returned = some true ∧ ¬ Sequential secondFails twoUrls s.responses true := by
  constructor
  · obtain ⟨s, trace, shown⟩ : ∃ s, Trace (Takes (AsyncBatch.next echo twoUrls))
        AsyncBatch.initial (asyncRun [1, 0]) s ∧
          decide (s.returned = some true ∧ s.responses = [bytes "/b", bytes "/a"]) = true :=
      exists_trace_of_follow (by decide +kernel)
    obtain ⟨returned, responses⟩ := of_decide_eq_true shown
    refine ⟨s, trace, returned, responses, ?_⟩
    intro sequential
    rw [responses] at sequential
    exact absurd sequential.1 (by decide)
  · obtain ⟨s, trace, shown⟩ : ∃ s, Trace (Takes MultiBatch.next)
        (MultiBatch.initial secondFails twoUrls) multiRun s ∧
          decide (s.returned = some true) = true :=
      exists_trace_of_follow (by decide +kernel)
    refine ⟨s, trace, of_decide_eq_true shown, ?_⟩
    intro sequential
    exact absurd (sequential.2.mp rfl) (by decide)

end DeribitTrading
