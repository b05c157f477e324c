import DeribitTrading.Libraries

/-!
`TokenManager`: one cached access token. Times are nanoseconds of the steady
clock; the clock readings of a call and the outcome of a fetch are inputs.
-/
namespace DeribitTrading
open ByteString Nlohmann

/-- What a plain easy handle gives a caller: no handle, an error code, or the body. -/
inductive CurlFetch where
  | noHandle
  | failed (code : Nat)
  | received (body : Bytes)
  deriving Repr

structure TokenManager where
  clientId : Bytes
  clientSecret : Bytes
  accessToken : Bytes
  expiryTime : Int

/-- `steady_clock::now()` before and after a fetch, and what a fetch of a URL meets. -/
structure TokenClock where
  check : Int
  done : Int
  fetch : Bytes → CurlFetch

/-- `std::chrono::minutes(59)`. -/
def tokenLifetime : Int := 59 * 60 * 10 ^ 9

namespace TokenManager

/-- `access_token` and `expiry_time` are default-initialised. -/
def create (clientId clientSecret : Bytes) : TokenManager :=
  { clientId, clientSecret, accessToken := [], expiryTime := 0 }

def parseAccessToken (L : Libraries) (jsonResponse : Bytes) : Outcome Bytes :=
  match L.nlohmannParse jsonResponse with
  | none => .error .parseError
  | some json =>
      if json.contains (bytes "result") then do
        let (result, _) ← json.index (bytes "result")
        let (token, _) ← result.index (bytes "access_token")
        token.getString
      else
        .ok []

def authUrl (t : TokenManager) : Bytes :=
  bytes "https://test.deribit.com/api/v2/public/auth?client_id=" ++ t.clientId ++
    bytes "&client_secret=" ++ t.clientSecret ++ bytes "&grant_type=client_credentials"

def fetchAccessToken (L : Libraries) (t : TokenManager) (fetch : Bytes → CurlFetch) :
    Outcome Bytes :=
  match fetch (cString t.authUrl) with
  | .noHandle => .ok []
  | .failed _ => .ok []
  | .received readBuffer => parseAccessToken L readBuffer

/-- `getAccessToken`: what it returns and leaves behind, and what its fetch came to if
it made one. -/
def accessTokenAndFetch (L : Libraries) (t : TokenManager) (clock : TokenClock) :
    Outcome Bytes × TokenManager × Option (Outcome Bytes) :=
  if t.expiryTime < clock.check ∨ t.accessToken = [] then
    match t.fetchAccessToken L clock.fetch with
    | .error f => (.error f, t, some (.error f))
    | .ok token =>
        (.ok token, { t with accessToken := token, expiryTime := clock.done + tokenLifetime },
          some (.ok token))
  else
    (.ok t.accessToken, t, none)

def getAccessToken (L : Libraries) (t : TokenManager) (clock : TokenClock) :
    Outcome Bytes × TokenManager :=
  let (returned, after, _) := t.accessTokenAndFetch L clock
  (returned, after)

end TokenManager
end DeribitTrading
