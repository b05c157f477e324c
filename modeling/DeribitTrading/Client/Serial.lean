import DeribitTrading.Client.HandlePool

/-!
Requests that run at once on one manager return what each of them returns by
itself, on the transfers that it met: the others only decide whether it finds a handle.
-/
namespace DeribitTrading
open ByteString Runs Interleaving

/-- One `curl_easy_perform`: the options of its handle, and what it met. -/
abbrev Meeting := CurlOptions × Transfer

/-- A network that does again what it did, as long as it is asked the same. -/
def replaying : Network (List Meeting) where
  perform := fun o meetings =>
    match meetings with
    | [] => (⟨.failed 28, []⟩, [])
    | (asked, transfer) :: rest =>
        if o = asked then (transfer, rest) else (⟨.failed 28, []⟩, meetings)

/-- What is put on record: a request that is made, and what one meets. -/
inductive RequestNote where
  | made (r : RunningRequest)
  | met (i : Nat) (meeting : Meeting)

namespace RequestNote

def request : RequestNote → Option RunningRequest
  | .made r => some r
  | .met _ _ => none

def meetingOf (i : Nat) : RequestNote → Option Meeting
  | .made _ => none
  | .met j meeting => if j = i then some meeting else none

end RequestNote

def RunningRequest.meets (r : RunningRequest) (c : Connections) (transfer : Transfer) :
    List Meeting :=
  match r.point with
  | .perform curl _ => [(c.manager.options curl, transfer)]
  | _ => []

namespace ConcurrentRequests

def notes (s : ConcurrentRequests) : Event → List RequestNote
  | .call url accessToken buffer response =>
      [.made ⟨url, accessToken, buffer, response, .getCurlHandle⟩]
  | .advance i transfer =>
      s.requests[i]?.elim [] fun r => (r.meets s.connections transfer).map (RequestNote.met i)

/-- The requests as they were made, in this order. -/
def made (log : List RequestNote) : List RunningRequest := log.filterMap RequestNote.request

/-- What request `i` has met. -/
def metBy (log : List RequestNote) (i : Nat) : List Meeting :=
  log.filterMap (RequestNote.meetingOf i)

theorem made_append_met (log : List RequestNote) (i : Nat) (meetings : List Meeting) :
    made (log ++ meetings.map (RequestNote.met i)) = made log := by
  have unmade : (meetings.map (RequestNote.met i)).filterMap RequestNote.request = [] := by
    rw [List.filterMap_map]
    exact List.filterMap_eq_nil_iff.mpr fun _ _ => rfl
  rw [made, List.filterMap_append, unmade, List.append_nil]
  rfl

theorem metBy_append_met (log : List RequestNote) (i : Nat) (meetings : List Meeting) :
    metBy (log ++ meetings.map (RequestNote.met i)) i = metBy log i ++ meetings := by
  have own : (meetings.map (RequestNote.met i)).filterMap (RequestNote.meetingOf i) =
      meetings := by
    rw [List.filterMap_map, ← List.filterMap_some (l := meetings), List.filterMap_filterMap]
    exact List.filterMap_congr fun _ _ => if_pos rfl
  rw [metBy, List.filterMap_append, own]
  rfl

theorem metBy_append_met_of_ne (log : List RequestNote) {i j : Nat} (other : j ≠ i)
    (meetings : List Meeting) :
    metBy (log ++ meetings.map (RequestNote.met i)) j = metBy log j := by
  have none : (meetings.map (RequestNote.met i)).filterMap (RequestNote.meetingOf j) = [] := by
    rw [List.filterMap_map]
    exact List.filterMap_eq_nil_iff.mpr fun _ _ => if_neg (Ne.symm other)
  rw [metBy, List.filterMap_append, none, List.append_nil]
  rfl

end ConcurrentRequests

/-! ## One request -/

section
variable {o : CurlOptions} {response : Bytes} {t : Transfer} {more : List Meeting}

theorem replay_ok (left : Nat) (ended : t.code = .ok) :
    performAttempts replaying o left response ((o, t) :: more) =
      (.ok, t.chunks.foldl writeCallback response, more) := by
  unfold performAttempts
  simp only [replaying, ↓reduceIte, ended]

theorem replay_given_up {code : Nat} (ended : t.code = .failed code) :
    performAttempts replaying o 0 response ((o, t) :: more) =
      (.failed code, t.chunks.foldl writeCallback response, more) := by
  unfold performAttempts
  simp only [replaying, ↓reduceIte, ended]

theorem replay_repeated (left : Nat) {code : Nat} (ended : t.code = .failed code) :
    performAttempts replaying o (left + 1) response ((o, t) :: more) =
      performAttempts replaying o left (t.chunks.foldl writeCallback response) more := by
  rw [performAttempts]
  simp only [replaying, ↓reduceIte, ended]

end

/-- The attempts that meet this end with this code and this response, and need no more. -/
def Ends (o : CurlOptions) (first : Bytes) (met : List Meeting) (res : CURLcode)
    (response : Bytes) : Prop :=
  ∀ more, performAttempts replaying o (maxRetries - 1) first (met ++ more) = (res, response, more)

/-- The request has come as far as the attempts have on what it has met. -/
def Stands (o : CurlOptions) (first : Bytes) (met : List Meeting) (r : RunningRequest) : Prop :=
  match r.point with
  | .getCurlHandle | .configure _ _ => met = [] ∧ r.response = first
  | .perform _ retries => retries < maxRetries ∧ ∀ more,
      performAttempts replaying o (maxRetries - 1) first (met ++ more) =
        performAttempts replaying o (maxRetries - 1 - retries) r.response more
  | .freeHeaders _ res | .releaseHandle _ res => Ends o first met res r.response
  | .returned success => met = [] ∧ r.response = first ∧ success = false ∨
      ∃ res, success = decide (res = .ok) ∧ Ends o first met res r.response

theorem Stands.perform {o : CurlOptions} {first : Bytes} {met : List Meeting}
    {r : RunningRequest} {curl : Handle} {retries : Nat} (here : r.point = .perform curl retries)
    (stands : Stands o first met r) (transfer : Transfer) :
    (transfer.code = .ok ∧
      Ends o first (met ++ [(o, transfer)]) .ok (transfer.chunks.foldl writeCallback r.response)) ∨
    ∃ code, transfer.code = .failed code ∧
      (if retries + 1 < maxRetries then
        ∀ more,
          performAttempts replaying o (maxRetries - 1) first (met ++ [(o, transfer)] ++ more) =
            performAttempts replaying o (maxRetries - 1 - (retries + 1))
              (transfer.chunks.foldl writeCallback r.response) more
      else
        Ends o first (met ++ [(o, transfer)]) (.failed code)
          (transfer.chunks.foldl writeCallback r.response)) := by
  simp only [Stands, here] at stands
  obtain ⟨few, stands⟩ := stands
  rcases ended : transfer.code with _ | code
  · refine .inl ⟨rfl, ?_⟩
    intro more
    rw [List.append_assoc, stands]
    exact replay_ok _ ended
  · refine .inr ⟨code, rfl, ?_⟩
    split
    · rename_i again
      intro more
      have left : maxRetries - 1 - retries = maxRetries - 1 - (retries + 1) + 1 := by omega
      rw [List.append_assoc, stands, left]
      exact replay_repeated _ ended
    · rename_i last
      intro more
      have left : maxRetries - 1 - retries = 0 := by omega
      rw [List.append_assoc, stands, left]
      exact replay_given_up ended

/-- A step of the request itself, prepared as it is by the steps before. -/
theorem Stands.advance {first : Bytes} {met : List Meeting} {i : Nat} {transfer : Transfer}
    {r r' : RunningRequest} {c c' : Connections} (stands : Stands r.options first met r)
    (prepared : Prepared c i r) (moved : r.advance i transfer c = some (r', c')) :
    Stands r.options first (met ++ r.meets c transfer) r' := by
  cases here : r.point with
  | getCurlHandle =>
      simp only [Stands, here] at stands
      simp only [RunningRequest.advance, here] at moved
      simp only [RunningRequest.meets, here, List.append_nil]
      split at moved
      · cases moved
        exact .inl ⟨stands.1, stands.2, rfl⟩
      · cases moved
        exact stands
  | configure curl rest =>
      simp only [Stands, here] at stands
      simp only [RunningRequest.meets, here, List.append_nil]
      obtain ⟨rfl, rfl⟩ := stands
      cases rest with
      | nil =>
          simp only [RunningRequest.advance, here] at moved
          cases moved
          exact ⟨Nat.succ_pos _, fun _ => rfl⟩
      | cons x rest =>
          simp only [RunningRequest.advance, here] at moved
          cases moved
          exact ⟨rfl, rfl⟩
  | perform curl retries =>
      have outcome := stands.perform here transfer
      simp only [Prepared, here] at prepared
      simp only [RunningRequest.meets, here, prepared.1]
      simp only [RunningRequest.advance, here] at moved
      rcases outcome with ⟨ended, ends⟩ | ⟨code, ended, next⟩
      · rw [ended] at moved
        cases moved
        exact ends
      · rw [ended] at moved
        dsimp only at moved
        split at moved
        · rename_i again
          rw [if_pos again] at next
          cases moved
          exact ⟨again, next⟩
        · rename_i last
          rw [if_neg last] at next
          cases moved
          exact next
  | freeHeaders curl res =>
      simp only [Stands, here] at stands
      simp only [RunningRequest.advance, here] at moved
      simp only [RunningRequest.meets, here, List.append_nil]
      cases moved
      exact stands
  | releaseHandle curl res =>
      simp only [Stands, here] at stands
      simp only [RunningRequest.advance, here] at moved
      simp only [RunningRequest.meets, here, List.append_nil]
      cases moved
      exact .inr ⟨res, rfl, stands⟩
  | returned success =>
      simp only [RunningRequest.advance, here] at moved
      cases moved

/-- A request never changes what it asks for. -/
theorem Advances.options {i : Nat} {c c' : Connections} {r r' : RunningRequest}
    (taken : Advances i c r r' c') : r'.options = r.options := by
  cases taken <;> rfl

namespace ConcurrentRequests

/-- Each request stands where the attempts stand that meet what it has met. -/
structure Serial (s : ConcurrentRequests) (log : List RequestNote) : Prop where
  made : (made log).length = s.requests.length
  fresh : ∀ i, s.requests.length ≤ i → metBy log i = []
  stands : Each (fun i r => ∃ first, (ConcurrentRequests.made log)[i]? = some first ∧
    r.options = first.options ∧ Stands r.options first.response (metBy log i) r) s.requests

theorem serial_initial (inits : List (Option Handle)) : Serial (initial inits) [] where
  made := rfl
  fresh := by
    intro i _
    rfl
  stands := .nil

theorem Serial.call {s : ConcurrentRequests} {log : List RequestNote} (serial : Serial s log)
    (url accessToken : Bytes) (buffer : Addr) (response : Bytes) :
    let called : RunningRequest := ⟨url, accessToken, buffer, response, .getCurlHandle⟩
    Serial { s with requests := s.requests ++ [called] } (log ++ [.made called]) := by
  intro called
  have made : ConcurrentRequests.made (log ++ [.made called]) =
      ConcurrentRequests.made log ++ [called] := by
    rw [ConcurrentRequests.made, List.filterMap_append]
    rfl
  have met : ∀ i, metBy (log ++ [.made called]) i = metBy log i := by
    intro i
    rw [metBy, List.filterMap_append]
    exact List.append_nil _
  refine ⟨?_, ?_, serial.stands.append ?_ ?_⟩
  · rw [made, List.length_append, List.length_append, serial.made]
  · intro i above
    rw [met]
    rw [List.length_append] at above
    exact serial.fresh i (Nat.le_of_add_right_le above)
  · refine ⟨called, ?_, rfl, ?_, rfl⟩
    · rw [made, ← serial.made, List.getElem?_concat_length]
    · rw [met]
      exact serial.fresh _ (Nat.le_refl _)
  · intro j r there ⟨first, wasMade, options, stands⟩
    refine ⟨first, ?_, options, ?_⟩
    · obtain ⟨before, _⟩ := List.getElem?_eq_some_iff.mp wasMade
      rw [made, List.getElem?_append_left before]
      exact wasMade
    · rw [met]
      exact stands

theorem Serial.advance {s : ConcurrentRequests} {log : List RequestNote} (serial : Serial s log)
    {i : Nat} {transfer : Transfer} {r r' : RunningRequest} {c : Connections}
    (here : s.requests[i]? = some r) (prepared : Prepared s.connections i r)
    (moved : r.advance i transfer s.connections = some (r', c)) :
    Serial ⟨c, s.requests.set i r'⟩
      (log ++ (r.meets s.connections transfer).map (RequestNote.met i)) := by
  obtain ⟨below, _⟩ := List.getElem?_eq_some_iff.mp here
  have same : r'.options = r.options := (RunningRequest.advances moved).options
  refine ⟨?_, ?_, serial.stands.set ?_ ?_⟩
  · rw [made_append_met, serial.made, List.length_set]
  · intro j above
    rw [List.length_set] at above
    have other : j ≠ i := Nat.ne_of_gt (Nat.lt_of_lt_of_le below above)
    rw [metBy_append_met_of_ne log other]
    exact serial.fresh j above
  · obtain ⟨first, wasMade, options, stands⟩ := serial.stands i r here
    refine ⟨first, ?_, same.trans options, ?_⟩
    · rw [made_append_met]
      exact wasMade
    · rw [metBy_append_met, same]
      exact stands.advance prepared moved
  · intro j q other there ⟨first, wasMade, options, stands⟩
    refine ⟨first, ?_, options, ?_⟩
    · rw [made_append_met]
      exact wasMade
    · rw [metBy_append_met_of_ne log other]
      exact stands

theorem Serial.step {pool : List Handle} {s t : ConcurrentRequests} {log : List RequestNote}
    {e : Event} (serial : Serial s log) (sound : Sound pool s) (taken : Takes next s e t) :
    Serial t (log ++ s.notes e) := by
  cases e with
  | call url accessToken buffer response =>
      cases taken
      exact serial.call url accessToken buffer response
  | advance i transfer =>
      obtain ⟨r, here, moved⟩ := Option.bind_eq_some_iff.mp taken
      obtain ⟨⟨r', c⟩, stepped, rfl⟩ := Option.map_eq_some_iff.mp moved
      rw [notes, here]
      exact serial.advance here (sound.prepared i r here) stepped

theorem Serial.run {inits : List (Option Handle)} (distinct : inits.reduceOption.Nodup)
    {t : ConcurrentRequests} {log : List RequestNote} {events : List Event}
    (trace : Trace (Recording (Takes next) notes) (initial inits, []) events (t, log)) :
    Serial t log := by
  let Inv (p : ConcurrentRequests × List RequestNote) : Prop :=
    Sound inits.reduceOption p.1 ∧ Serial p.1 p.2
  have kept : Inv (t, log) := by
    refine trace.invariant ?_ ⟨sound_initial inits, serial_initial inits⟩
    rintro ⟨s, before⟩ e ⟨t, after⟩ ⟨sound, serial⟩ ⟨taken, written⟩
    cases written
    exact ⟨sound.step distinct taken, serial.step sound taken⟩
  exact kept.2

end ConcurrentRequests

theorem performCurlRequest_refused {ω : Type} (net : Network ω) {m : CurlConnectionManager}
    (empty : m.freeHandles = []) (url accessToken : Bytes) (buffer : Addr) (response : Bytes)
    (w : ω) : performCurlRequest net m url accessToken buffer response w =
      ⟨false, response, m, w⟩ := by
  simp only [performCurlRequest, CurlConnectionManager.getCurlHandle, empty]

/-- What a request that returned is by itself, on a manager that has a handle for it
or has none, as it was. -/
theorem Stands.alone {first r : RunningRequest} {met : List Meeting} {success : Bool}
    (stands : Stands first.options first.response met r) (returned : r.point = .returned success) :
    ∃ found : Bool, ∀ m : CurlConnectionManager, m.Reusable →
      (m.freeHandles ≠ [] ↔ found = true) →
      ∃ m', performCurlRequest replaying m first.url first.accessToken first.buffer
        first.response met = ⟨success, r.response, m', []⟩ := by
  simp only [Stands, returned] at stands
  rcases stands with ⟨rfl, same, rfl⟩ | ⟨res, rfl, ends⟩
  · refine ⟨false, fun m _ found => ⟨m, ?_⟩⟩
    rw [same]
    exact performCurlRequest_refused replaying (by simpa using found) ..
  · refine ⟨true, fun m reusable found => ?_⟩
    obtain ⟨curl, rest, free⟩ := List.exists_cons_of_ne_nil (found.mpr rfl)
    have attempts := ends []
    rw [List.append_nil] at attempts
    exact ⟨_, performCurlRequest_taken replaying free (reusable curl _ _ _) attempts⟩

namespace ConcurrentRequests

/-- However the requests on one manager interleave, one that has returned returned
what it returns by itself when it meets what it met here; what the others do shows
only in whether it found a handle. -/
theorem requests_serial {inits : List (Option Handle)} (distinct : inits.reduceOption.Nodup)
    {t : ConcurrentRequests} {log : List RequestNote} {events : List Event}
    (trace : Trace (Recording (Takes next) notes) (initial inits, []) events (t, log))
    {i : Nat} {r : RunningRequest} {success : Bool} (here : t.requests[i]? = some r)
    (returned : r.point = .returned success) :
    ∃ (first : RunningRequest) (found : Bool), (made log)[i]? = some first ∧
      ∀ m : CurlConnectionManager, m.Reusable → (m.freeHandles ≠ [] ↔ found = true) →
        ∃ m', performCurlRequest replaying m first.url first.accessToken first.buffer
          first.response (metBy log i) = ⟨success, r.response, m', []⟩ := by
  obtain ⟨first, wasMade, same, stands⟩ := (Serial.run distinct trace).stands i r here
  rw [same] at stands
  obtain ⟨found, alone⟩ := stands.alone returned
  exact ⟨first, found, wasMade, alone⟩

/-- While request 0 has the only handle, request 1 is refused; the first transfer of
request 0 breaks off. -/
def oneHandle : List Event :=
  [.call (bytes "/buy") (bytes "a") 1 [], .call (bytes "/sell") (bytes "b") 2 [],
    .advance 0 ⟨.ok, []⟩, .advance 1 ⟨.ok, []⟩] ++
    List.replicate 6 (.advance 0 ⟨.ok, []⟩) ++
    [.advance 0 ⟨.failed 28, [bytes "par"]⟩, .advance 0 ⟨.ok, [bytes "whole"]⟩] ++
    List.replicate 2 (.advance 0 ⟨.ok, []⟩)

theorem oneHandle_serial :
    ∃ t log, Trace (Recording (Takes next) notes) (initial [some 3], []) oneHandle (t, log) ∧
      t.requests.map RunningRequest.point = [.returned true, .returned false] ∧
      t.requests.map RunningRequest.response = [bytes "parwhole", []] ∧
      ∃ (first : RunningRequest) (found : Bool), (made log)[0]? = some first ∧
        ∀ m : CurlConnectionManager, m.Reusable → (m.freeHandles ≠ [] ↔ found = true) →
          ∃ m', performCurlRequest replaying m first.url first.accessToken first.buffer
            first.response (metBy log 0) = ⟨true, bytes "parwhole", m', []⟩ := by
  have followed : (follow (recordingNext next notes) (initial [some 3], []) oneHandle).any
      (fun r => r.1.requests.map RunningRequest.point = [.returned true, .returned false] ∧
        r.1.requests.map RunningRequest.response = [bytes "parwhole", []]) = true := by
    decide +kernel
  obtain ⟨⟨t, log⟩, run, shown⟩ := exists_trace_of_follow followed
  rw [takes_recordingNext] at run
  obtain ⟨points, responses⟩ := of_decide_eq_true shown
  obtain ⟨r, rest, some_request⟩ : ∃ r rest, t.requests = r :: rest := by
    cases some_request : t.requests with
    | nil => rw [some_request] at points; cases points
    | cons r rest => exact ⟨r, rest, rfl⟩
  have here : t.requests[0]? = some r := by
    rw [some_request]
    rfl
  have returned : r.point = .returned true := by
    rw [some_request] at points
    exact (List.cons.inj points).1
  have response : r.response = bytes "parwhole" := by
    rw [some_request] at responses
    exact (List.cons.inj responses).1
  refine ⟨t, log, run, points, responses, ?_⟩
  rw [← response]
  exact requests_serial (by decide) run here returned

end ConcurrentRequests

end DeribitTrading
