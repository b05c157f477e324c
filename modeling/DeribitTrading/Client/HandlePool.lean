import DeribitTrading.Client.CurlConnectionManager
import DeribitTrading.Library.Interleaving
import DeribitTrading.Library.Runs

/-!
Any number of `performCurlRequest` calls at once on one `CurlConnectionManager`.
Every libcurl call is a step of its own; the two operations on the pool are
atomic, as `poolMutex` makes them.
-/
namespace DeribitTrading
open ByteString Runs Interleaving
open scoped List

/-- The `curl_easy_setopt` calls of a request, in the order they are made. -/
inductive Setopt where
  | httpheader
  | url
  | writefunction
  | writedata
  | acceptEncoding
  deriving DecidableEq, Repr

def requestSetopts : List Setopt :=
  [.httpheader, .url, .writefunction, .writedata, .acceptEncoding]

/-- The statement that a call executes next. -/
inductive RequestPoint where
  | getCurlHandle
  | configure (curl : Handle) (rest : List Setopt)
  | perform (curl : Handle) (retries : Nat)
  | freeHeaders (curl : Handle) (res : CURLcode)
  | releaseHandle (curl : Handle) (res : CURLcode)
  | returned (result : Bool)
  deriving DecidableEq, Repr

def RequestPoint.held : RequestPoint → List Handle
  | .getCurlHandle | .returned _ => []
  | .configure curl _ | .perform curl _ | .freeHeaders curl _ | .releaseHandle curl _ => [curl]

def RequestPoint.finished : RequestPoint → Bool
  | .returned _ => true
  | _ => false

structure RunningRequest where
  url : Bytes
  accessToken : Bytes
  buffer : Addr
  response : Bytes
  point : RequestPoint

namespace RunningRequest

def held (r : RunningRequest) : List Handle := r.point.held

/-- The options that the request asks for, whatever handle it got. -/
def options (r : RunningRequest) : CurlOptions :=
  requestOptions setupCurlOptions r.url r.accessToken r.buffer

def setopt (r : RunningRequest) (o : CurlOptions) : Setopt → CurlOptions
  | .httpheader =>
      { o with
        httpheader := .live [cString (bytes "Authorization: Bearer " ++ r.accessToken),
          bytes "Content-Type: application/json"] }
  | .url => { o with url := some (cString r.url) }
  | .writefunction => { o with writefunction := true }
  | .writedata => { o with writedata := some r.buffer }
  | .acceptEncoding => { o with acceptEncoding := some (bytes "gzip, deflate") }

end RunningRequest

/-- The manager, and for each handle the request whose header list it points to. -/
structure Connections where
  manager : CurlConnectionManager
  headersOf : Handle → Option Nat

namespace Connections

def setopt (c : Connections) (i : Nat) (r : RunningRequest) (curl : Handle) (x : Setopt) :
    Connections where
  manager := c.manager.setOptions curl (r.setopt (c.manager.options curl) x)
  headersOf := if x = .httpheader then Function.update c.headersOf curl (some i) else c.headersOf

/-- `curl_slist_free_all`: whatever points to the list of request `i` now dangles. -/
def freeHeaders (c : Connections) (i : Nat) : Connections :=
  { c with
    manager :=
      { c.manager with
        options := fun h =>
          if c.headersOf h = some i then { c.manager.options h with httpheader := .freed }
          else c.manager.options h } }

end Connections

/-- One step of request `i`; the transfer is what `curl_easy_perform` meets if
that is the statement to execute. -/
def RunningRequest.advance (i : Nat) (transfer : Transfer) (r : RunningRequest)
    (c : Connections) : Option (RunningRequest × Connections) :=
  match r.point with
  | .getCurlHandle =>
      match c.manager.getCurlHandle with
      | (none, m) => some ({ r with point := .returned false }, { c with manager := m })
      | (some curl, m) =>
          some ({ r with point := .configure curl requestSetopts }, { c with manager := m })
  | .configure curl (x :: rest) =>
      some ({ r with point := .configure curl rest }, c.setopt i r curl x)
  | .configure curl [] => some ({ r with point := .perform curl 0 }, c)
  | .perform curl retries =>
      let r := { r with response := transfer.chunks.foldl writeCallback r.response }
      match transfer.code with
      | .ok => some ({ r with point := .freeHeaders curl .ok }, c)
      | .failed code =>
          if retries + 1 < maxRetries then some ({ r with point := .perform curl (retries + 1) }, c)
          else some ({ r with point := .freeHeaders curl (.failed code) }, c)
  | .freeHeaders curl res =>
      some ({ r with point := .releaseHandle curl res }, c.freeHeaders i)
  | .releaseHandle curl res =>
      some ({ r with point := .returned (res = .ok) },
        { c with manager := c.manager.releaseCurlHandle curl })
  | .returned _ => none

structure ConcurrentRequests where
  connections : Connections
  requests : List RunningRequest

namespace ConcurrentRequests

def manager (s : ConcurrentRequests) : CurlConnectionManager := s.connections.manager

/-- The manager after `initializePool`, before the first request. -/
def initial (inits : List (Option Handle)) : ConcurrentRequests where
  connections := { manager := .initializePool inits, headersOf := fun _ => none }
  requests := []

inductive Event where
  | call (url accessToken : Bytes) (buffer : Addr) (response : Bytes)
  | advance (i : Nat) (transfer : Transfer)

def next (s : ConcurrentRequests) : Event → Option ConcurrentRequests
  | .call url accessToken buffer response =>
      some { s with
        requests := s.requests ++ [⟨url, accessToken, buffer, response, .getCurlHandle⟩] }
  | .advance i transfer =>
      s.requests[i]?.bind fun r =>
        (r.advance i transfer s.connections).map fun moved =>
          ⟨moved.2, s.requests.set i moved.1⟩

end ConcurrentRequests

/-- Everything one step of a request can do. -/
inductive Advances (i : Nat) (c : Connections) (r : RunningRequest) :
    RunningRequest → Connections → Prop
  | refused : r.point = .getCurlHandle → c.manager.freeHandles = [] →
      Advances i c r { r with point := .returned false } c
  | taken (curl : Handle) (rest : List Handle) : r.point = .getCurlHandle →
      c.manager.freeHandles = curl :: rest →
      Advances i c r { r with point := .configure curl requestSetopts }
        { c with manager := { c.manager with freeHandles := rest } }
  | configured (curl : Handle) (x : Setopt) (rest : List Setopt) :
      r.point = .configure curl (x :: rest) →
      Advances i c r { r with point := .configure curl rest } (c.setopt i r curl x)
  | ready (curl : Handle) : r.point = .configure curl [] →
      Advances i c r { r with point := .perform curl 0 } c
  | retried (curl : Handle) (retries : Nat) (response : Bytes) :
      r.point = .perform curl retries →
      Advances i c r { r with response, point := .perform curl (retries + 1) } c
  | performed (curl : Handle) (retries : Nat) (response : Bytes) (res : CURLcode) :
      r.point = .perform curl retries →
      Advances i c r { r with response, point := .freeHeaders curl res } c
  | freed (curl : Handle) (res : CURLcode) : r.point = .freeHeaders curl res →
      Advances i c r { r with point := .releaseHandle curl res } (c.freeHeaders i)
  | released (curl : Handle) (res : CURLcode) : r.point = .releaseHandle curl res →
      Advances i c r { r with point := .returned (res = .ok) }
        { c with manager := c.manager.releaseCurlHandle curl }

theorem RunningRequest.advances {i : Nat} {transfer : Transfer} {r r' : RunningRequest}
    {c c' : Connections} (moved : r.advance i transfer c = some (r', c')) :
    Advances i c r r' c' := by
  unfold advance at moved
  split at moved
  · rename_i here
    unfold CurlConnectionManager.getCurlHandle at moved
    split at moved
    · rename_i free taken
      split at taken
      · rename_i empty
        cases moved
        cases taken
        exact .refused here empty
      · cases taken
    · rename_i curl free taken
      split at taken
      · cases taken
      · rename_i h rest nonempty
        cases moved
        cases taken
        exact .taken curl rest here nonempty
  · rename_i curl x rest here
    cases moved
    exact .configured curl x rest here
  · rename_i curl here
    cases moved
    exact .ready curl here
  · rename_i curl retries here
    dsimp only at moved
    split at moved
    · cases moved
      exact .performed curl retries _ _ here
    · split at moved
      · cases moved
        exact .retried curl retries _ here
      · cases moved
        exact .performed curl retries _ _ here
  · rename_i curl res here
    cases moved
    exact .freed curl res here
  · rename_i curl res here
    cases moved
    exact .released curl res here
  · cases moved

namespace RunningRequest

/-- The options once the remaining `curl_easy_setopt` calls are made. -/
def complete (r : RunningRequest) (rest : List Setopt) (o : CurlOptions) : CurlOptions :=
  rest.foldl r.setopt o

theorem complete_requestSetopts (r : RunningRequest) (o : CurlOptions) :
    r.complete requestSetopts o = requestOptions o r.url r.accessToken r.buffer := by
  simp only [complete, requestSetopts, List.foldl_cons, List.foldl_nil, setopt, requestOptions]

/-- A header list that is still to be set does not matter before. -/
theorem complete_httpheader {r : RunningRequest} {rest : List Setopt}
    (later : .httpheader ∈ rest) (o : CurlOptions) (headers : Slist) :
    r.complete rest { o with httpheader := headers } = r.complete rest o := by
  induction rest generalizing o with
  | nil => simp at later
  | cons x rest ih =>
      cases x with
      | httpheader => rfl
      | url => exact ih (by simpa using later) { o with url := _ }
      | writefunction => exact ih (by simpa using later) { o with writefunction := _ }
      | writedata => exact ih (by simpa using later) { o with writedata := _ }
      | acceptEncoding => exact ih (by simpa using later) { o with acceptEncoding := _ }

end RunningRequest

/-- The handle of request `i` will have, or has, the options that it asks for, and
points to the header list of this request. -/
def Prepared (c : Connections) (i : Nat) (r : RunningRequest) : Prop :=
  match r.point with
  | .configure curl rest =>
      r.complete rest (c.manager.options curl) = r.options ∧
        (.httpheader ∈ rest ∨ c.headersOf curl = some i)
  | .perform curl _ => c.manager.options curl = r.options ∧ c.headersOf curl = some i
  | _ => True

theorem Connections.reusable_setopt {c : Connections} (reusable : c.manager.Reusable) (i : Nat)
    (r : RunningRequest) (curl : Handle) (x : Setopt) :
    (c.setopt i r curl x).manager.Reusable := by
  intro h url accessToken buffer
  have before := reusable h url accessToken buffer
  simp only [Connections.setopt, CurlConnectionManager.setOptions, Function.update_apply]
  split
  · rename_i same
    rw [← before, same]
    cases x <;> rfl
  · exact before

theorem Connections.reusable_freeHeaders {c : Connections} (reusable : c.manager.Reusable)
    (i : Nat) : (c.freeHeaders i).manager.Reusable := by
  intro h url accessToken buffer
  have before := reusable h url accessToken buffer
  simp only [Connections.freeHeaders]
  split
  · exact before
  · exact before

namespace Connections

theorem setopt_options_of_ne {c : Connections} {h curl : Handle} (other : h ≠ curl) (i : Nat)
    (r : RunningRequest) (x : Setopt) :
    (c.setopt i r curl x).manager.options h = c.manager.options h :=
  Function.update_of_ne other ..

theorem setopt_headersOf_of_ne {c : Connections} {h curl : Handle} (other : h ≠ curl) (i : Nat)
    (r : RunningRequest) (x : Setopt) :
    (c.setopt i r curl x).headersOf h = c.headersOf h := by
  rw [setopt]
  dsimp only
  split
  · exact Function.update_of_ne other ..
  · rfl

end Connections

/-- Only the handle that a request holds matters to it. -/
theorem Prepared.of_held {c c' : Connections} {j : Nat} {q : RunningRequest}
    (prepared : Prepared c j q)
    (options : ∀ h ∈ q.held, c'.manager.options h = c.manager.options h)
    (headers : ∀ h ∈ q.held, c'.headersOf h = c.headersOf h) : Prepared c' j q := by
  unfold Prepared at prepared ⊢
  unfold RunningRequest.held at options headers
  split
  · rename_i h rest there
    rw [there] at prepared options headers
    rw [options h (List.mem_singleton_self h), headers h (List.mem_singleton_self h)]
    exact prepared
  · rename_i h retries there
    rw [there] at prepared options headers
    rw [options h (List.mem_singleton_self h), headers h (List.mem_singleton_self h)]
    exact prepared
  · exact trivial

/-- What a step of one request leaves to another that holds its own handle. -/
theorem Prepared.other {c c' : Connections} {i j : Nat} {r r' q : RunningRequest}
    (prepared : Prepared c j q) (different : j ≠ i) (apart : r.held.Disjoint q.held)
    (taken : Advances i c r r' c') : Prepared c' j q := by
  cases taken with
  | refused here empty => exact prepared
  | taken curl rest here free => exact prepared
  | configured curl x rest here =>
      have elsewhere : ∀ h ∈ q.held, h ≠ curl := by
        intro h held same
        refine apart ?_ (same ▸ held)
        simp [RunningRequest.held, here, RequestPoint.held]
      apply prepared.of_held
      · intro h held
        exact Connections.setopt_options_of_ne (elsewhere h held) i r x
      · intro h held
        exact Connections.setopt_headersOf_of_ne (elsewhere h held) i r x
  | ready curl here => exact prepared
  | retried curl retries response here => exact prepared
  | performed curl retries response res here => exact prepared
  | freed curl res here =>
      unfold Prepared at prepared ⊢
      simp only [Connections.freeHeaders]
      split
      · rename_i h rest there
        simp only [there] at prepared
        obtain ⟨complete, pointed⟩ := prepared
        refine ⟨?_, pointed⟩
        split
        · rename_i mine
          rcases pointed with later | pointed
          · rw [RunningRequest.complete_httpheader later]
            exact complete
          · exact absurd (Option.some.inj (pointed.symm.trans mine)) different
        · exact complete
      · rename_i h retries there
        simp only [there] at prepared
        obtain ⟨options, pointed⟩ := prepared
        refine ⟨?_, pointed⟩
        rw [if_neg]
        · exact options
        · intro mine
          exact different (Option.some.inj (pointed.symm.trans mine))
      · exact trivial
  | released curl res here => exact prepared

/-- What a step of a request establishes for itself. -/
theorem Prepared.own {c c' : Connections} {i : Nat} {r r' : RunningRequest}
    (reusable : c.manager.Reusable) (prepared : Prepared c i r) (taken : Advances i c r r' c') :
    Prepared c' i r' := by
  cases taken with
  | refused here empty => exact trivial
  | taken curl rest here free =>
      refine ⟨?_, .inl (List.mem_cons_self ..)⟩
      exact (RunningRequest.complete_requestSetopts _ _).trans
        (reusable curl r.url r.accessToken r.buffer)
  | configured curl x rest here =>
      simp only [Prepared, here] at prepared
      obtain ⟨complete, pointed⟩ := prepared
      simp only [Prepared, Connections.setopt, CurlConnectionManager.setOptions,
        Function.update_self]
      refine ⟨complete, ?_⟩
      cases x with
      | httpheader => exact .inr (Function.update_self ..)
      | url => simpa using pointed
      | writefunction => simpa using pointed
      | writedata => simpa using pointed
      | acceptEncoding => simpa using pointed
  | ready curl here =>
      simp only [Prepared, here] at prepared
      obtain ⟨complete, pointed⟩ := prepared
      exact ⟨complete, pointed.resolve_left List.not_mem_nil⟩
  | retried curl retries response here =>
      simp only [Prepared, here] at prepared
      exact prepared
  | performed curl retries response res here => exact trivial
  | freed curl res here => exact trivial
  | released curl res here => exact trivial

/-- A step of a request only moves a handle between it and the free list. -/
theorem Advances.conserves {i : Nat} {c c' : Connections} {r r' : RunningRequest}
    (taken : Advances i c r r' c') :
    c'.manager.freeHandles ++ r'.held ~ c.manager.freeHandles ++ r.held ∧
      c'.manager.curlPool = c.manager.curlPool := by
  cases taken with
  | refused here empty =>
      simp [RunningRequest.held, here, RequestPoint.held]
  | taken curl rest here free =>
      simp only [RunningRequest.held, here, RequestPoint.held, free, List.append_nil]
      exact ⟨List.perm_append_singleton curl rest, trivial⟩
  | configured curl x rest here =>
      simp [RunningRequest.held, here, RequestPoint.held, Connections.setopt,
        CurlConnectionManager.setOptions]
  | ready curl here => simp [RunningRequest.held, here, RequestPoint.held]
  | retried curl retries response here => simp [RunningRequest.held, here, RequestPoint.held]
  | performed curl retries response res here =>
      simp [RunningRequest.held, here, RequestPoint.held]
  | freed curl res here =>
      simp [RunningRequest.held, here, RequestPoint.held, Connections.freeHeaders]
  | released curl res here =>
      simp only [RunningRequest.held, here, RequestPoint.held, List.append_nil,
        CurlConnectionManager.releaseCurlHandle]
      exact ⟨(List.perm_append_singleton curl _).symm, trivial⟩

theorem Advances.reusable {c c' : Connections} {i : Nat} {r r' : RunningRequest}
    (taken : Advances i c r r' c') (reusable : c.manager.Reusable) : c'.manager.Reusable := by
  cases taken with
  | refused here empty => exact reusable
  | taken curl rest here free => exact reusable
  | configured curl x rest here => exact Connections.reusable_setopt reusable i r curl x
  | ready curl here => exact reusable
  | retried curl retries response here => exact reusable
  | performed curl retries response res here => exact reusable
  | freed curl res here => exact Connections.reusable_freeHeaders reusable i
  | released curl res here => exact reusable

namespace ConcurrentRequests

/-- The invariant of the concurrent requests over a pool of handles. -/
structure Sound (pool : List Handle) (s : ConcurrentRequests) : Prop where
  curlPool : s.manager.curlPool = pool
  accounted : s.manager.freeHandles ++ s.requests.flatMap RunningRequest.held ~ pool
  reusable : s.manager.Reusable
  prepared : Each (Prepared s.connections) s.requests

theorem sound_initial (inits : List (Option Handle)) :
    Sound inits.reduceOption (initial inits) where
  curlPool := rfl
  accounted := by
    simp only [initial, manager, CurlConnectionManager.initializePool, List.flatMap_nil,
      List.append_nil]
    exact List.reverse_perm _
  reusable := by
    intro h url accessToken buffer
    rfl
  prepared := .nil

theorem Sound.step {pool : List Handle} (distinct : pool.Nodup) {s t : ConcurrentRequests}
    {e : Event} (sound : Sound pool s) (taken : Takes next s e t) : Sound pool t := by
  cases e with
  | call url accessToken buffer response =>
      cases taken
      refine ⟨sound.curlPool, ?_, sound.reusable, sound.prepared.append trivial ?_⟩
      · show s.manager.freeHandles ++ (s.requests ++ [_]).flatMap RunningRequest.held ~ pool
        rw [List.flatMap_append]
        simpa [RunningRequest.held, RequestPoint.held] using sound.accounted
      · intro j q there prepared
        exact prepared
  | advance i transfer =>
      obtain ⟨r, here, moved⟩ := Option.bind_eq_some_iff.mp taken
      obtain ⟨⟨r', c'⟩, stepped, rfl⟩ := Option.map_eq_some_iff.mp moved
      have advances := RunningRequest.advances stepped
      obtain ⟨kept, samePool⟩ := advances.conserves
      have held : (s.requests.flatMap RunningRequest.held).Nodup :=
        (List.nodup_append.mp (sound.accounted.nodup_iff.mpr distinct)).2.1
      refine ⟨samePool.trans sound.curlPool, ?_, advances.reusable sound.reusable, ?_⟩
      · exact (conserved RunningRequest.held here kept).trans sound.accounted
      · refine sound.prepared.set (.own sound.reusable (sound.prepared i r here) advances) ?_
        intro j q other there prepared
        refine prepared.other other ?_ advances
        intro h mine theirs
        exact other (holder_unique RunningRequest.held held there here theirs mine)

theorem Sound.run {inits : List (Option Handle)} (distinct : inits.reduceOption.Nodup)
    {t : ConcurrentRequests} {events : List Event}
    (trace : Trace (Takes next) (initial inits) events t) : Sound inits.reduceOption t := by
  refine trace.invariant ?_ (sound_initial inits)
  intro s e t sound taken
  exact sound.step distinct taken

/-- Whatever the requests on one manager do to each other's timing, every handle is
free or held by one request, and a request is performed with its own options. -/
theorem handles_conserved_and_isolated {inits : List (Option Handle)}
    (distinct : inits.reduceOption.Nodup) {t : ConcurrentRequests} {events : List Event}
    (trace : Trace (Takes next) (initial inits) events t) :
    t.manager.curlPool = inits.reduceOption ∧ t.manager.curlPool.Nodup ∧
      t.manager.freeHandles ++ t.requests.flatMap RunningRequest.held ~ t.manager.curlPool ∧
      (∀ (i j : Nat) (r q : RunningRequest) (h : Handle), t.requests[i]? = some r →
        t.requests[j]? = some q → h ∈ r.held → h ∈ q.held → i = j) ∧
      (∀ (i : Nat) (r : RunningRequest) (curl : Handle) (retries : Nat),
        t.requests[i]? = some r → r.point = .perform curl retries →
          t.manager.options curl = requestOptions setupCurlOptions r.url r.accessToken r.buffer ∧
            t.connections.headersOf curl = some i) ∧
      ((∀ r ∈ t.requests, r.point.finished) → t.manager.freeHandles ~ t.manager.curlPool) := by
  have sound := Sound.run distinct trace
  have accounted := sound.accounted
  rw [← sound.curlPool] at accounted distinct
  refine ⟨sound.curlPool, distinct, accounted, ?_, ?_, ?_⟩
  · intro i j r q h first second ofFirst ofSecond
    have held := (List.nodup_append.mp (accounted.nodup_iff.mpr distinct)).2.1
    exact holder_unique RunningRequest.held held first second ofFirst ofSecond
  · intro i r curl retries here performing
    have prepared := sound.prepared i r here
    simp only [Prepared, performing] at prepared
    exact prepared
  · intro finished
    have none : t.requests.flatMap RunningRequest.held = [] := by
      refine List.flatMap_eq_nil_iff.mpr fun r member => ?_
      have ended := finished r member
      unfold RunningRequest.held
      cases point : r.point <;> simp_all [RequestPoint.finished, RequestPoint.held]
    rwa [none, List.append_nil] at accounted

def twoRequests : List Event :=
  [.call (bytes "/buy") (bytes "a") 1 [], .call (bytes "/sell") (bytes "b") 2 []] ++
    (List.replicate 10 [.advance 0 ⟨.ok, [bytes "one"]⟩, .advance 1 ⟨.ok, [bytes "two"]⟩]).flatten

theorem handles_back_after_two :
    ∃ t, Trace (Takes next) (initial [some 0, none, some 7]) twoRequests t ∧
      t.requests.length = 2 ∧ t.manager.freeHandles ~ t.manager.curlPool := by
  let ended (t : ConcurrentRequests) : Bool :=
    t.requests.all (fun r => r.point.finished) && t.requests.length == 2
  obtain ⟨t, trace, shown⟩ : ∃ t, Trace (Takes next) (initial [some 0, none, some 7])
      twoRequests t ∧ ended t = true := exists_trace_of_follow (by decide +kernel)
  obtain ⟨finished, two⟩ := Bool.and_eq_true_iff.mp shown
  rw [List.all_eq_true] at finished
  rw [beq_iff_eq] at two
  obtain ⟨_, _, _, _, _, back⟩ := handles_conserved_and_isolated (by decide) trace
  exact ⟨t, trace, two, back finished⟩

end ConcurrentRequests

/-- The steps of request `i` by itself, on its own state and the connections. -/
def RunningRequest.stepAlone (i : Nat) (s : RunningRequest × Connections) (transfer : Transfer) :
    Option (RunningRequest × Connections) := s.1.advance i transfer s.2

namespace ConcurrentRequests

theorem run_alone {i : Nat} {transfers : List Transfer} {p p' : RunningRequest × Connections}
    (trace : Trace (Takes (RunningRequest.stepAlone i)) p transfers p')
    {requests : List RunningRequest} (here : requests[i]? = some p.1) :
    Trace (Takes next) ⟨p.2, requests⟩ (transfers.map (Event.advance i))
      ⟨p'.2, requests.set i p'.1⟩ := by
  induction trace generalizing requests with
  | nil p =>
      obtain ⟨below, same⟩ := List.getElem?_eq_some_iff.mp here
      rw [← same, List.set_getElem_self]
      exact .nil _
  | @cons p m p' transfer transfers head tail ih =>
      obtain ⟨below, _⟩ := List.getElem?_eq_some_iff.mp here
      have later := @ih (requests.set i m.1) (List.getElem?_set_self below)
      rw [List.set_set] at later
      refine .cons ?_ later
      show (requests[i]?.bind fun r => (r.advance i transfer p.2).map _) = _
      rw [here, Option.bind_some, show p.1.advance i transfer p.2 = some m from head]
      rfl

end ConcurrentRequests

section
variable {ω : Type} (net : Network ω)

/-- The retry loop, attempt by attempt. -/
theorem attempts_alone (i : Nat) (curl : Handle) (c : Connections) (left : Nat) :
    ∀ (r : RunningRequest) (retries : Nat) (w : ω), retries + left + 1 = maxRetries →
      r.point = .perform curl retries →
      ∃ transfers, Trace (Takes (RunningRequest.stepAlone i)) (r, c) transfers
        ({ r with
            response := (performAttempts net (c.manager.options curl) left r.response w).2.1
            point := .freeHeaders curl
              (performAttempts net (c.manager.options curl) left r.response w).1 }, c) := by
  induction left with
  | zero =>
      intro r retries w last here
      refine ⟨[(net.perform (c.manager.options curl) w).1], .single ?_⟩
      rcases transfer : net.perform (c.manager.options curl) w with ⟨⟨_ | code, chunks⟩, w'⟩
      · simp only [Takes, RunningRequest.stepAlone, RunningRequest.advance, here,
          performAttempts, transfer]
      · simp only [Takes, RunningRequest.stepAlone, RunningRequest.advance, here,
          performAttempts, transfer]
        rw [if_neg (by omega)]
  | succ left ih =>
      intro r retries w last here
      rw [performAttempts]
      rcases transfer : net.perform (c.manager.options curl) w with ⟨⟨_ | code, chunks⟩, w'⟩
      · refine ⟨[⟨.ok, chunks⟩], .single ?_⟩
        simp only [Takes, RunningRequest.stepAlone, RunningRequest.advance, here]
      · let retried := { r with
          response := chunks.foldl writeCallback r.response
          point := .perform curl (retries + 1) }
        obtain ⟨transfers, later⟩ := ih retried (retries + 1) w' (by omega) rfl
        refine ⟨⟨.failed code, chunks⟩ :: transfers, .cons (m := (retried, c)) ?_ ?_⟩
        · simp only [Takes, RunningRequest.stepAlone, RunningRequest.advance, here]
          rw [if_pos (by omega)]
        · exact later

/-- The `curl_easy_setopt` calls, one by one. -/
theorem configure_alone (i : Nat) (curl : Handle) (rest : List Setopt) :
    ∀ (r : RunningRequest) (c : Connections), r.point = .configure curl rest →
      ∃ transfers c', Trace (Takes (RunningRequest.stepAlone i)) (r, c) transfers
          ({ r with point := .perform curl 0 }, c') ∧
        c'.manager = c.manager.setOptions curl (r.complete rest (c.manager.options curl)) ∧
        (∀ h, h ≠ curl → c'.headersOf h = c.headersOf h) ∧
        (.httpheader ∈ rest ∨ c.headersOf curl = some i → c'.headersOf curl = some i) := by
  induction rest with
  | nil =>
      intro r c here
      refine ⟨[⟨.ok, []⟩], c, .single ?_, ?_, fun h _ => rfl, ?_⟩
      · simp only [Takes, RunningRequest.stepAlone, RunningRequest.advance, here]
      · simp only [CurlConnectionManager.setOptions, RunningRequest.complete, List.foldl_nil,
          Function.update_eq_self]
      · intro pointed
        exact pointed.resolve_left List.not_mem_nil
  | cons x rest ih =>
      intro r c here
      obtain ⟨transfers, c', later, manager, elsewhere, pointed⟩ :=
        ih { r with point := .configure curl rest } (c.setopt i r curl x) rfl
      refine ⟨⟨.ok, []⟩ :: transfers, c', .cons (m := (_, _)) ?_ later, ?_, ?_, ?_⟩
      · simp only [Takes, RunningRequest.stepAlone, RunningRequest.advance, here]
      · rw [manager]
        simp only [Connections.setopt, CurlConnectionManager.setOptions, Function.update_self,
          Function.update_idem]
        rfl
      · intro h other
        rw [elsewhere h other, Connections.setopt_headersOf_of_ne other]
      · intro started
        refine pointed ?_
        rw [Connections.setopt]
        dsimp only
        split
        · exact .inr (Function.update_self ..)
        · rename_i notHeader
          rcases started with later | already
          · exact .inl ((List.mem_cons.mp later).resolve_left (Ne.symm notHeader))
          · exact .inr already

theorem performCurlRequest_taken {m : CurlConnectionManager} {curl : Handle}
    {rest : List Handle} (free : m.freeHandles = curl :: rest) {url accessToken response : Bytes}
    {buffer : Addr} {w : ω} {o : CurlOptions} {p : CURLcode × Bytes × ω}
    (asked : requestOptions (m.options curl) url accessToken buffer = o)
    (attempts : performAttempts net o (maxRetries - 1) response w = p) :
    performCurlRequest net m url accessToken buffer response w =
      ⟨p.1 = .ok, p.2.1,
        { m with options := Function.update m.options curl { o with httpheader := .freed } },
        p.2.2⟩ := by
  simp only [performCurlRequest, CurlConnectionManager.getCurlHandle, free, asked, attempts,
    CurlConnectionManager.setOptions, CurlConnectionManager.releaseCurlHandle]

theorem refused_alone (i : Nat) {r : RunningRequest} {c : Connections}
    (here : r.point = .getCurlHandle) (empty : c.manager.freeHandles = []) :
    Takes (RunningRequest.stepAlone i) (r, c) ⟨.ok, []⟩
      ({ r with point := .returned false }, c) := by
  have none : c.manager.getCurlHandle = (none, c.manager) := by
    rw [CurlConnectionManager.getCurlHandle, empty]
  simp only [Takes, RunningRequest.stepAlone, RunningRequest.advance, here, none]

theorem taken_alone (i : Nat) {r : RunningRequest} {c : Connections} {curl : Handle}
    {rest : List Handle} (here : r.point = .getCurlHandle)
    (free : c.manager.freeHandles = curl :: rest) :
    Takes (RunningRequest.stepAlone i) (r, c) ⟨.ok, []⟩
      ({ r with point := .configure curl requestSetopts },
        { c with manager := { c.manager with freeHandles := rest } }) := by
  have first : c.manager.getCurlHandle =
      (some curl, { c.manager with freeHandles := rest }) := by
    rw [CurlConnectionManager.getCurlHandle, free]
  simp only [Takes, RunningRequest.stepAlone, RunningRequest.advance, here, first]

/-- Behind the transfer only the handle's own header list dangles, and the handle is
back where it came from. -/
theorem releaseCurlHandle_freeHeaders {m : CurlConnectionManager} {curl : Handle}
    {rest : List Handle} (free : m.freeHandles = curl :: rest) {c : Connections} {i : Nat}
    {o : CurlOptions} (manager : c.manager = { m with freeHandles := rest }.setOptions curl o)
    (own : c.headersOf curl = some i) (others : ∀ h, h ≠ curl → c.headersOf h ≠ some i) :
    (c.freeHeaders i).manager.releaseCurlHandle curl =
      { m with options := Function.update m.options curl { o with httpheader := .freed } } := by
  have dangling : (c.freeHeaders i).manager.options =
      Function.update m.options curl { o with httpheader := .freed } := by
    funext h
    simp only [Connections.freeHeaders, manager, CurlConnectionManager.setOptions]
    by_cases same : h = curl
    · subst same
      rw [if_pos own, Function.update_self, Function.update_self]
    · rw [if_neg (others h same), Function.update_of_ne same, Function.update_of_ne same]
  have pool : (c.freeHeaders i).manager.curlPool = m.curlPool := congrArg (·.curlPool) manager
  have handles : (c.freeHeaders i).manager.freeHandles = rest := congrArg (·.freeHandles) manager
  simp only [CurlConnectionManager.releaseCurlHandle, dangling, pool, handles, free]

/-- A request that nobody interrupts is `performCurlRequest`. -/
theorem performCurlRequest_alone {s : ConcurrentRequests} {i : Nat}
    {url accessToken response : Bytes} {buffer : Addr}
    (here : s.requests[i]? = some ⟨url, accessToken, buffer, response, .getCurlHandle⟩)
    (unset : ∀ h, s.connections.headersOf h ≠ some i) (w : ω) :
    let r := performCurlRequest net s.manager url accessToken buffer response w
    ∃ (transfers : List Transfer) (t : ConcurrentRequests),
      Trace (Takes ConcurrentRequests.next) s
        (transfers.map (ConcurrentRequests.Event.advance i)) t ∧
      t.manager = r.manager ∧
      t.requests =
        s.requests.set i ⟨url, accessToken, buffer, r.response, .returned r.success⟩ := by
  let called : RunningRequest := ⟨url, accessToken, buffer, response, .getCurlHandle⟩
  cases free : s.manager.freeHandles with
  | nil =>
      have refused : Takes (RunningRequest.stepAlone i) (called, s.connections) _ _ :=
        refused_alone i rfl free
      refine ⟨[⟨.ok, []⟩], _, ConcurrentRequests.run_alone (.single refused) here, ?_, ?_⟩
      · simp only [performCurlRequest, CurlConnectionManager.getCurlHandle, free]
        rfl
      · simp only [performCurlRequest, CurlConnectionManager.getCurlHandle, free]
        rfl
  | cons curl rest =>
      generalize asked : requestOptions (s.manager.options curl) url accessToken buffer = o
      let first : Connections :=
        { s.connections with manager := { s.manager with freeHandles := rest } }
      have taken : Takes (RunningRequest.stepAlone i) (called, s.connections) ⟨.ok, []⟩
          ({ called with point := .configure curl requestSetopts }, first) :=
        taken_alone i rfl free
      obtain ⟨setting, c, configured, manager, elsewhere, pointed⟩ := configure_alone i curl
        requestSetopts { called with point := .configure curl requestSetopts } first rfl
      rw [RunningRequest.complete_requestSetopts,
        show requestOptions (first.manager.options curl) _ _ _ = o from asked] at manager
      have options : c.manager.options curl = o := by
        rw [manager, CurlConnectionManager.setOptions]
        exact Function.update_self ..
      obtain ⟨attempts, performed⟩ := attempts_alone net i curl c (maxRetries - 1)
        { called with point := .perform curl 0 } 0 w rfl rfl
      rw [options] at performed
      generalize got : performAttempts net o (maxRetries - 1) response w = p at performed
      rw [performCurlRequest_taken net free asked got]
      let freed : Connections := c.freeHeaders i
      let released : Connections :=
        { freed with manager := freed.manager.releaseCurlHandle curl }
      have frees : Takes (RunningRequest.stepAlone i)
          ({ called with response := p.2.1, point := .freeHeaders curl p.1 }, c) ⟨.ok, []⟩
          ({ called with response := p.2.1, point := .releaseHandle curl p.1 }, freed) := rfl
      have releases : Takes (RunningRequest.stepAlone i)
          ({ called with response := p.2.1, point := .releaseHandle curl p.1 }, freed) ⟨.ok, []⟩
          ({ called with response := p.2.1, point := .returned (p.1 = .ok) }, released) := rfl
      have alone := (Trace.cons taken (configured.append performed)).append
        (.cons frees (.single releases))
      refine ⟨_, _, ConcurrentRequests.run_alone alone here, ?_, rfl⟩
      refine releaseCurlHandle_freeHeaders free manager ?_ ?_
      · exact pointed (.inl (List.mem_cons_self ..))
      · intro h other
        rw [elsewhere h other]
        exact unset h

end

end DeribitTrading
