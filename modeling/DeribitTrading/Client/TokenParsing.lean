import DeribitTrading.Client.TokenManager

/-!
`TokenManager::parseAccessToken` against the convention that its callers rely on:
the token, or the empty string when the reply holds none.
-/
namespace DeribitTrading
open ByteString Nlohmann

/-- The string at `result.access_token`; empty for every other reply. -/
def grantedToken : Option Json → Bytes
  | some (.object reply) =>
      match Members.lookup reply (bytes "result") with
      | some (.object result) =>
          match Members.lookup result (bytes "access_token") with
          | some (.string token) => token
          | _ => []
      | _ => []
  | _ => []

/-- The reply is JSON, and a result that it holds holds a token. -/
def TokenReply (reply : Option Json) : Prop :=
  ∃ json, reply = some json ∧ ∀ result, Member json (bytes "result") result →
    ∃ token, Member result (bytes "access_token") (.string token)

theorem grantedToken_of_member {json result : Json} {token : Bytes}
    (here : Member json (bytes "result") result)
    (granted : Member result (bytes "access_token") (.string token)) :
    grantedToken (some json) = token := by
  obtain ⟨reply, rfl, found⟩ := here
  obtain ⟨members, rfl, held⟩ := granted
  simp only [grantedToken, found, held]

theorem grantedToken_of_absent {json : Json}
    (absent : ∀ result, ¬ Member json (bytes "result") result) :
    grantedToken (some json) = [] := by
  cases json with
  | object reply =>
      cases found : Members.lookup reply (bytes "result") with
      | none => simp only [grantedToken, found]
      | some result => exact absurd ⟨reply, rfl, found⟩ (absent result)
  | _ => rfl

theorem token_of_result_iff (result : Json) (token : Bytes) :
    (result.index (bytes "access_token") >>= fun read => read.1.getString) = .ok token ↔
      Member result (bytes "access_token") (.string token) := by
  constructor
  · intro given
    obtain ⟨⟨held, grown⟩, read, text⟩ := bind_eq_ok_iff.mp given
    have string : held = .string token := by
      cases held with
      | string s =>
          cases text
          rfl
      | _ => cases text
    subst string
    cases result with
    | object members =>
        refine ⟨members, rfl, ?_⟩
        simp only [Json.index] at read
        split at read
        · rename_i found
          cases read
          exact found
        · cases read
    | null => cases read
    | _ => cases read
  · intro granted
    obtain ⟨members, rfl, held⟩ := granted
    simp only [index_of_lookup held, ok_bind]
    rfl

/-- Whenever the function returns, it returns what it should; it does so exactly
on the replies that answer. -/
theorem parseAccessToken_eq_ok_iff (L : Libraries) (body token : Bytes) :
    TokenManager.parseAccessToken L body = .ok token ↔
      TokenReply (L.nlohmannParse body) ∧ token = grantedToken (L.nlohmannParse body) := by
  unfold TokenManager.parseAccessToken
  cases L.nlohmannParse body with
  | none =>
      constructor
      · intro given
        cases given
      · intro ⟨⟨json, parsed, _⟩, _⟩
        cases parsed
  | some json =>
      rcases member_cases json (bytes "result") with ⟨absent, none⟩ | ⟨result, here, read, only⟩
      · have empty := grantedToken_of_absent none
        simp only [absent, Bool.false_eq_true, if_false, empty, Except.ok.injEq]
        constructor
        · intro nothing
          exact ⟨⟨json, rfl, fun result member => absurd member (none result)⟩, nothing.symm⟩
        · intro ⟨_, nothing⟩
          exact nothing.symm
      · have member : Member json (bytes "result") result := (only result).mpr rfl
        simp only [here, if_true, read, ok_bind]
        refine (token_of_result_iff result token).trans ?_
        constructor
        · intro granted
          refine ⟨⟨json, rfl, ?_⟩, (grantedToken_of_member member granted).symm⟩
          intro other there
          exact ⟨token, (only other).mp there ▸ granted⟩
        · intro ⟨⟨_, same, answered⟩, given⟩
          cases same
          obtain ⟨held, granted⟩ := answered result member
          exact given ▸ (grantedToken_of_member member granted) ▸ granted

theorem parseAccessToken_total_iff (L : Libraries) (body : Bytes) :
    TokenManager.parseAccessToken L body = .ok (grantedToken (L.nlohmannParse body)) ↔
      TokenReply (L.nlohmannParse body) := by
  rw [parseAccessToken_eq_ok_iff]
  constructor
  · intro ⟨answered, _⟩
    exact answered
  · intro answered
    exact ⟨answered, rfl⟩

def authTexts : List (Bytes × Json) :=
  [(bytes "\x7b\"result\":\x7b\x7d\x7d", .object [(bytes "result", .object [])]),
    (bytes "\x7b\"result\":null\x7d", .object [(bytes "result", .null)]),
    (bytes "\x7b\"result\":5\x7d", .object [(bytes "result", .numberUnsigned 5)])]

def authLibraries : Libraries where
  rapidParse := fun _ => none
  nlohmannParse := fun text => (authTexts.find? fun t => t.1 == text).map Prod.snd
  dump := fun _ => []
  gunzip := .ofTable fun _ => []
  deflate := .ofTable fun _ => []

/-- An empty body, and three results that hold no token. -/
theorem parseAccessToken_throws :
    TokenManager.parseAccessToken authLibraries [] = .error .parseError ∧
      TokenManager.parseAccessToken authLibraries (bytes "\x7b\"result\":\x7b\x7d\x7d") =
        .error .typeError ∧
      TokenManager.parseAccessToken authLibraries (bytes "\x7b\"result\":null\x7d") =
        .error .typeError ∧
      TokenManager.parseAccessToken authLibraries (bytes "\x7b\"result\":5\x7d") =
        .error .typeError ∧
      ¬ ∀ (L : Libraries) (body : Bytes), TokenManager.parseAccessToken L body =
        .ok (grantedToken (L.nlohmannParse body)) := by
  refine ⟨rfl, rfl, rfl, rfl, ?_⟩
  intro total
  cases total authLibraries []

end DeribitTrading
