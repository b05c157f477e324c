import Mathlib.Order.Defs.LinearOrder
import DeribitTrading.Client.TokenManager
import DeribitTrading.Library.Runs

/-!
Runs of `getAccessToken`. The mutex makes the calls of all threads one sequence;
each call is put on record with the clock readings it took and what its fetch,
if it made one, came to. A fetch counts as complete at the clock reading that
follows it.
-/
namespace DeribitTrading
open ByteString Runs

structure TokenCall where
  before : TokenManager
  after : TokenManager
  check : Int
  done : Int
  fetched : Option (Outcome Bytes)
  returned : Outcome Bytes

/-- The reading for the test, and the one that dates a fetch that came back. -/
def TokenCall.readings (c : TokenCall) : List Int :=
  match c.fetched with
  | some (.ok _) => [c.check, c.done]
  | _ => [c.check]

namespace TokenManager

/-- The condition of the `if`. -/
def Refreshes (t : TokenManager) (clock : TokenClock) : Prop :=
  t.expiryTime < clock.check ∨ t.accessToken = []

def record (L : Libraries) (t : TokenManager) (clock : TokenClock) : TokenCall :=
  let (returned, after, fetched) := t.accessTokenAndFetch L clock
  { before := t, after, check := clock.check, done := clock.done, fetched, returned }

theorem getAccessToken_eq (L : Libraries) (t : TokenManager) (clock : TokenClock) :
    t.getAccessToken L clock = ((t.record L clock).returned, (t.record L clock).after) := rfl

def Calls (L : Libraries) (t : TokenManager) (clock : TokenClock) (t' : TokenManager) : Prop :=
  t' = (t.getAccessToken L clock).2

/-- Everything a call can do: serve the cache, fail with its fetch, or keep what
its fetch brought. -/
theorem record_cases (L : Libraries) (t : TokenManager) (clock : TokenClock) :
    (t.record L clock).fetched = none ∧ clock.check ≤ t.expiryTime ∧ t.accessToken ≠ [] ∧
        (t.record L clock).returned = .ok t.accessToken ∧ (t.record L clock).after = t ∨
      (∃ f, t.Refreshes clock ∧ (t.record L clock).fetched = some (.error f) ∧
        (t.record L clock).returned = .error f ∧ (t.record L clock).after = t) ∨
      ∃ token, t.Refreshes clock ∧ (t.record L clock).fetched = some (.ok token) ∧
        (t.record L clock).returned = .ok token ∧
        (t.record L clock).after =
          { t with accessToken := token, expiryTime := clock.done + tokenLifetime } := by
  by_cases refreshes : t.Refreshes clock
  · refine .inr ?_
    have test : t.expiryTime < clock.check ∨ t.accessToken = [] := refreshes
    simp only [record, accessTokenAndFetch, if_pos test]
    cases t.fetchAccessToken L clock.fetch with
    | error f => exact .inl ⟨f, refreshes, rfl, rfl, rfl⟩
    | ok token => exact .inr ⟨token, refreshes, rfl, rfl, rfl⟩
  · refine .inl ?_
    have test : ¬ (t.expiryTime < clock.check ∨ t.accessToken = []) := refreshes
    simp only [record, accessTokenAndFetch, if_neg test]
    rw [not_or, Int.not_lt] at test
    refine ⟨?_, test.1, test.2, ?_, ?_⟩ <;> trivial

end TokenManager

/-- The calls of a run, on record, from a new manager. -/
def TokenRun (L : Libraries) (clientId clientSecret : Bytes) (events : List TokenClock)
    (t : TokenManager) (calls : List TokenCall) : Prop :=
  Trace (Recording (TokenManager.Calls L) fun t clock => [t.record L clock])
    (.create clientId clientSecret, []) events (t, calls)

def NonDecreasing (calls : List TokenCall) : Prop :=
  (calls.flatMap TokenCall.readings).Pairwise (· ≤ ·)

instance (calls : List TokenCall) : Decidable (NonDecreasing calls) :=
  inferInstanceAs (Decidable (List.Pairwise ..))

/-- A token that a call returns is its own fetch's, or an earlier one's that was
complete no more than 59 minutes before the call's check. -/
def Fresh (calls : List TokenCall) : Prop :=
  ∀ earlier call later token, calls = earlier ++ call :: later → call.returned = .ok token →
    token ≠ [] → call.fetched = some (.ok token) ∨
      ∃ source ∈ earlier, source.fetched = some (.ok token) ∧ source.done ≤ call.check ∧
        call.check ≤ source.done + tokenLifetime

/-- After a fetch that brought a token, the next one starts more than 59 minutes later. -/
def Spaced (calls : List TokenCall) : Prop :=
  ∀ earlier first between second later token,
    calls = earlier ++ first :: (between ++ second :: later) →
    first.fetched = some (.ok token) → token ≠ [] → (∀ c ∈ between, c.fetched = none) →
    second.fetched ≠ none → first.done + tokenLifetime < second.check

def EmptyIsFetched (calls : List TokenCall) : Prop :=
  ∀ call ∈ calls, call.returned = .ok [] → call.fetched = some (.ok [])

def FailureKeepsToken (calls : List TokenCall) : Prop :=
  ∀ call ∈ calls, ∀ f, call.fetched = some (.error f) →
    call.after.accessToken = call.before.accessToken ∧
      call.after.expiryTime = call.before.expiryTime

/-- A cached token is one that a recorded fetch brought, and expires 59 minutes
after that fetch. -/
def Sourced (t : TokenManager) (calls : List TokenCall) : Prop :=
  t.accessToken ≠ [] → ∃ source ∈ calls, source.fetched = some (.ok t.accessToken) ∧
    t.expiryTime = source.done + tokenLifetime

/-- What the last fetch brought is what is cached. -/
def Remembered (t : TokenManager) (calls : List TokenCall) : Prop :=
  ∀ earlier last later token, calls = earlier ++ last :: later →
    last.fetched = some (.ok token) → (∀ c ∈ later, c.fetched = none) →
    t.accessToken = token ∧ t.expiryTime = last.done + tokenLifetime

/-- `Fresh`, but for the order of the two readings. -/
def Unexpired (calls : List TokenCall) : Prop :=
  ∀ earlier call later token, calls = earlier ++ call :: later → call.returned = .ok token →
    token ≠ [] → call.fetched = some (.ok token) ∨
      ∃ source ∈ earlier, source.fetched = some (.ok token) ∧
        call.check ≤ source.done + tokenLifetime

structure CacheInvariant (t : TokenManager) (calls : List TokenCall) : Prop where
  sourced : Sourced t calls
  remembered : Remembered t calls
  unexpired : Unexpired calls
  spaced : Spaced calls
  emptyIsFetched : EmptyIsFetched calls
  failureKeepsToken : FailureKeepsToken calls

theorem CacheInvariant.create (clientId clientSecret : Bytes) :
    CacheInvariant (.create clientId clientSecret) [] where
  sourced := by
    intro some
    exact absurd rfl some
  remembered := by
    intro earlier last later token same
    simp at same
  unexpired := by
    intro earlier call later token same
    simp at same
  spaced := by
    intro earlier first between second later token same
    simp at same
  emptyIsFetched := by simp [EmptyIsFetched]
  failureKeepsToken := by simp [FailureKeepsToken]

/-- An element of a list that has grown at its end is the new one or an old one. -/
theorem snoc_split {α : Type} {calls earlier later : List α} {a b : α}
    (same : calls ++ [a] = earlier ++ b :: later) :
    (earlier = calls ∧ b = a ∧ later = []) ∨
      ∃ rest, later = rest ++ [a] ∧ calls = earlier ++ b :: rest := by
  induction later using List.reverseRecOn with
  | nil =>
      obtain ⟨front, last⟩ := List.append_inj' same rfl
      exact .inl ⟨front.symm, (List.cons.inj last).1.symm, rfl⟩
  | append_singleton rest c =>
      rw [← List.cons_append, ← List.append_assoc] at same
      obtain ⟨front, last⟩ := List.append_inj' same rfl
      exact .inr ⟨rest, by rw [last], front⟩

variable {L : Libraries} {t : TokenManager} {clock : TokenClock} {calls : List TokenCall}

theorem Sourced.snoc (sourced : Sourced t calls) :
    Sourced (t.getAccessToken L clock).2 (calls ++ [t.record L clock]) := by
  rw [t.getAccessToken_eq]
  have old : Sourced t (calls ++ [t.record L clock]) := by
    intro some
    obtain ⟨source, there, fetched, expires⟩ := sourced some
    exact ⟨source, List.mem_append_left _ there, fetched, expires⟩
  rcases t.record_cases L clock with ⟨_, _, _, _, after⟩ | ⟨f, _, _, _, after⟩ |
    ⟨token, _, fetched, _, after⟩
  · rw [after]
    exact old
  · rw [after]
    exact old
  · intro _
    rw [after]
    exact ⟨_, by simp, fetched, rfl⟩

theorem Remembered.snoc (remembered : Remembered t calls) :
    Remembered (t.getAccessToken L clock).2 (calls ++ [t.record L clock]) := by
  rw [t.getAccessToken_eq]
  intro earlier last later token same brought quiet
  rcases snoc_split same with ⟨rfl, rfl, rfl⟩ | ⟨rest, rfl, old⟩
  · rcases t.record_cases L clock with ⟨fetched, _⟩ | ⟨f, _, fetched, _⟩ |
      ⟨held, _, fetched, _, after⟩
    · cases fetched.symm.trans brought
    · cases fetched.symm.trans brought
    · cases fetched.symm.trans brought
      rw [after]
      exact ⟨rfl, rfl⟩
  · have before := remembered earlier last rest token old brought fun c there =>
      quiet c (List.mem_append_left _ there)
    have unfetched : (t.record L clock).fetched = none := quiet _ (by simp)
    rcases t.record_cases L clock with ⟨_, _, _, _, after⟩ | ⟨f, _, fetched, _⟩ |
      ⟨held, _, fetched, _⟩
    · rw [after]
      exact before
    · cases fetched.symm.trans unfetched
    · cases fetched.symm.trans unfetched

theorem Unexpired.snoc (unexpired : Unexpired calls) (sourced : Sourced t calls) :
    Unexpired (calls ++ [t.record L clock]) := by
  intro earlier call later token same returned some
  rcases snoc_split same with ⟨rfl, rfl, rfl⟩ | ⟨rest, rfl, old⟩
  · rcases t.record_cases L clock with ⟨_, inTime, held, served, _⟩ | ⟨f, _, _, failed, _⟩ |
      ⟨held, _, fetched, served, _⟩
    · cases served.symm.trans returned
      obtain ⟨source, there, fetched, expires⟩ := sourced held
      exact .inr ⟨source, there, fetched, expires ▸ inTime⟩
    · cases failed.symm.trans returned
    · cases served.symm.trans returned
      exact .inl fetched
  · exact unexpired earlier call rest token old returned some

theorem Spaced.snoc (spaced : Spaced calls) (remembered : Remembered t calls) :
    Spaced (calls ++ [t.record L clock]) := by
  intro earlier first between second later token same brought some quiet fetches
  rw [← List.cons_append, ← List.append_assoc] at same
  rcases snoc_split same with ⟨front, rfl, rfl⟩ | ⟨rest, rfl, old⟩
  · obtain ⟨held, expires⟩ := remembered earlier first between token front.symm brought quiet
    have refreshes : t.Refreshes clock := by
      rcases t.record_cases L clock with ⟨unfetched, _⟩ | ⟨f, refreshes, _⟩ |
        ⟨_, refreshes, _⟩
      · exact absurd unfetched fetches
      · exact refreshes
      · exact refreshes
    rcases refreshes with late | empty
    · rw [← expires]
      exact late
    · exact absurd (held.symm.trans empty) some
  · exact spaced earlier first between second rest token
      (by rw [old, List.append_assoc, List.cons_append]) brought some quiet fetches

theorem EmptyIsFetched.snoc (fetched : EmptyIsFetched calls) :
    EmptyIsFetched (calls ++ [t.record L clock]) := by
  intro call there returned
  rcases List.mem_append.mp there with old | new
  · exact fetched call old returned
  · cases List.mem_singleton.mp new
    rcases t.record_cases L clock with ⟨_, _, some, served, _⟩ | ⟨f, _, _, failed, _⟩ |
      ⟨token, _, brought, served, _⟩
    · exact absurd (Except.ok.inj (served.symm.trans returned)) some
    · cases failed.symm.trans returned
    · cases served.symm.trans returned
      exact brought

theorem FailureKeepsToken.snoc (keeps : FailureKeepsToken calls) :
    FailureKeepsToken (calls ++ [t.record L clock]) := by
  intro call there f failed
  rcases List.mem_append.mp there with old | new
  · exact keeps call old f failed
  · cases List.mem_singleton.mp new
    rcases t.record_cases L clock with ⟨unfetched, _⟩ | ⟨f', _, _, _, after⟩ |
      ⟨token, _, fetched, _⟩
    · cases unfetched.symm.trans failed
    · rw [after]
      exact ⟨rfl, rfl⟩
    · cases fetched.symm.trans failed

theorem CacheInvariant.snoc (inv : CacheInvariant t calls) :
    CacheInvariant (t.getAccessToken L clock).2 (calls ++ [t.record L clock]) where
  sourced := inv.sourced.snoc
  remembered := inv.remembered.snoc
  unexpired := inv.unexpired.snoc inv.sourced
  spaced := inv.spaced.snoc inv.remembered
  emptyIsFetched := inv.emptyIsFetched.snoc
  failureKeepsToken := inv.failureKeepsToken.snoc

theorem TokenRun.call {clientId clientSecret : Bytes} {events : List TokenClock}
    (run : TokenRun L clientId clientSecret events t calls) (clock : TokenClock) :
    TokenRun L clientId clientSecret (events ++ [clock]) (t.getAccessToken L clock).2
      (calls ++ [t.record L clock]) := run.snoc ⟨rfl, rfl⟩

theorem TokenRun.invariant {clientId clientSecret : Bytes} {events : List TokenClock}
    (run : TokenRun L clientId clientSecret events t calls) : CacheInvariant t calls := by
  refine @Trace.invariant _ _ _ (fun s => CacheInvariant s.1 s.2) ?_ _ _ _ run
    (.create clientId clientSecret)
  intro s clock s' inv taken
  obtain ⟨next, written⟩ := taken
  rw [written, next]
  exact inv.snoc

/-- Under a clock that never goes back, a fetch that came before a call was
complete before the call's check. -/
theorem done_le_check {earlier later : List TokenCall} {source call : TokenCall} {token : Bytes}
    (clock : NonDecreasing (earlier ++ call :: later)) (there : source ∈ earlier)
    (fetched : source.fetched = some (.ok token)) : source.done ≤ call.check := by
  unfold NonDecreasing at clock
  rw [List.flatMap_append, List.pairwise_append] at clock
  refine clock.2.2 source.done ?_ call.check ?_
  · exact List.mem_flatMap.mpr ⟨source, there, by simp [TokenCall.readings, fetched]⟩
  · refine List.mem_flatMap.mpr ⟨call, by simp, ?_⟩
    unfold TokenCall.readings
    split <;> simp

theorem Unexpired.fresh (unexpired : Unexpired calls) (clock : NonDecreasing calls) :
    Fresh calls := by
  intro earlier call later token same returned some
  rcases unexpired earlier call later token same returned some with own | other
  · exact .inl own
  · obtain ⟨source, there, fetched, inTime⟩ := other
    exact .inr ⟨source, there, fetched, done_le_check (same ▸ clock) there fetched, inTime⟩

theorem token_cache_correct (L : Libraries) (clientId clientSecret : Bytes)
    (events : List TokenClock) (t : TokenManager) (calls : List TokenCall)
    (run : TokenRun L clientId clientSecret events t calls) (clock : NonDecreasing calls) :
    Fresh calls ∧ Spaced calls ∧ EmptyIsFetched calls ∧ FailureKeepsToken calls := by
  have inv := run.invariant
  exact ⟨inv.unexpired.fresh clock, inv.spaced, inv.emptyIsFetched, inv.failureKeepsToken⟩

/-- A token endpoint that knows one body. -/
def grantingLibraries : Libraries where
  rapidParse := fun _ => none
  nlohmannParse := fun text =>
    if text = bytes "\x7b\"result\":\x7b\"access_token\":\"T\"\x7d\x7d" then
      some (.object [(bytes "result", .object [(bytes "access_token", .string (bytes "T"))])])
    else none
  dump := fun _ => []
  gunzip := .ofTable fun _ => []
  deflate := .ofTable fun _ => []

/-- A failed transfer, a body that does not parse, a token, a call that finds it
cached, and one that comes too late for it. -/
def sampleCalls : List TokenClock :=
  [⟨0, 5, fun _ => .failed 28⟩, ⟨6, 6, fun _ => .received []⟩,
    ⟨7, 10, fun _ => .received (bytes "\x7b\"result\":\x7b\"access_token\":\"T\"\x7d\x7d")⟩,
    ⟨10 + tokenLifetime, 0, fun _ => .noHandle⟩,
    ⟨11 + tokenLifetime, 12 + tokenLifetime, fun _ => .noHandle⟩]

theorem sampleCalls_run : ∃ t calls,
    TokenRun grantingLibraries (bytes "id") (bytes "secret") sampleCalls t calls ∧
      NonDecreasing calls ∧
      calls.map TokenCall.returned = [.ok [], .error .parseError, .ok (bytes "T"),
        .ok (bytes "T"), .ok []] ∧
      Fresh calls ∧ Spaced calls ∧ EmptyIsFetched calls ∧ FailureKeepsToken calls := by
  have start : TokenRun grantingLibraries (bytes "id") (bytes "secret") [] _ _ := .nil _
  have run : TokenRun grantingLibraries (bytes "id") (bytes "secret") sampleCalls _ _ :=
    (((((start.call _).call _).call _).call _).call _)
  refine ⟨_, _, run, ?_, rfl, token_cache_correct _ _ _ _ _ _ run ?_⟩ <;>
    decide +kernel

end DeribitTrading
