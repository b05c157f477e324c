import DeribitTrading.Client.MemoryPool
import DeribitTrading.Library.ByteString

/-!
`CurlConnectionManager` and `OrderAPI::performCurlRequest` on top of it. The
network is a parameter: what one `curl_easy_perform` on a handle with given
options delivers, and what it does to the world outside the process.
-/
namespace DeribitTrading
open ByteString

abbrev Handle := Nat

/-- `CURLOPT_HTTPHEADER` keeps a pointer: the list it was set to may be gone. -/
inductive Slist where
  | null
  | live (lines : List Bytes)
  | freed
  deriving DecidableEq, Repr

/-- The options the program sets; `none` is libcurl's default. -/
structure CurlOptions where
  verbose : Option Nat := none
  tcpNodelay : Option Nat := none
  timeoutMs : Option Nat := none
  connecttimeoutMs : Option Nat := none
  followlocation : Option Nat := none
  maxredirs : Option Nat := none
  dnsCacheTimeout : Option Nat := none
  pipewait : Option Nat := none
  sslVerifypeer : Option Nat := none
  forbidReuse : Option Nat := none
  httpVersion : Option Nat := none
  timeout : Option Nat := none
  expect100TimeoutMs : Option Nat := none
  headeropt : Option Nat := none
  header : Option Nat := none
  httpheader : Slist := .null
  url : Option Bytes := none
  writefunction : Bool := false
  writedata : Option Addr := none
  acceptEncoding : Option Bytes := none
  deriving DecidableEq, Repr

def curlHttpVersion20 : Nat := 3
def curlheaderUnified : Nat := 0

/-- `setupCurlOptions` resets the handle first, so nothing of its past stays. -/
def setupCurlOptions : CurlOptions where
  verbose := some 0
  tcpNodelay := some 1
  timeoutMs := some 2000
  connecttimeoutMs := some 1000
  followlocation := some 1
  maxredirs := some 3
  dnsCacheTimeout := some 3600
  pipewait := some 1
  sslVerifypeer := some 1
  forbidReuse := some 0
  httpVersion := some curlHttpVersion20
  timeout := some 2
  expect100TimeoutMs := some 500
  headeropt := some curlheaderUnified
  header := some 1

/-- `freeHandles` is kept with its back at the head. -/
structure CurlConnectionManager where
  curlPool : List Handle
  freeHandles : List Handle
  options : Handle → CurlOptions

namespace CurlConnectionManager

/-- `initializePool`, given what each `curl_easy_init` returned. -/
def initializePool (inits : List (Option Handle)) : CurlConnectionManager where
  curlPool := inits.reduceOption
  freeHandles := inits.reduceOption.reverse
  options := fun _ => setupCurlOptions

def getCurlHandle (m : CurlConnectionManager) : Option Handle × CurlConnectionManager :=
  match m.freeHandles with
  | [] => (none, m)
  | handle :: rest => (some handle, { m with freeHandles := rest })

def releaseCurlHandle (m : CurlConnectionManager) (curl : Handle) : CurlConnectionManager :=
  { m with freeHandles := curl :: m.freeHandles }

def setOptions (m : CurlConnectionManager) (curl : Handle) (o : CurlOptions) :
    CurlConnectionManager :=
  { m with options := Function.update m.options curl o }

end CurlConnectionManager

inductive CURLcode where
  | ok
  | failed (code : Nat)
  deriving DecidableEq, Repr

/-- One `curl_easy_perform`: its code and the pieces `WriteCallback` was called with. -/
structure Transfer where
  code : CURLcode
  chunks : List Bytes

structure Network (ω : Type) where
  perform : CurlOptions → ω → Transfer × ω

/-- A network that follows a script; past its end every transfer fails. -/
def scripted : Network (List Transfer) where
  perform := fun _ script =>
    match script with
    | [] => (⟨.failed 28, []⟩, [])
    | t :: rest => (t, rest)

/-- `WriteCallback` appends whatever arrives. -/
def writeCallback (userp contents : Bytes) : Bytes := userp ++ contents

theorem foldl_writeCallback (chunks : List Bytes) (response : Bytes) :
    chunks.foldl writeCallback response = response ++ chunks.flatten := by
  induction chunks generalizing response with
  | nil => simp
  | cons chunk chunks ih => simp [ih, writeCallback, List.append_assoc]

def maxRetries : Nat := 3

variable {ω : Type}

/-- The retry loop; `left` counts how often `retries < maxRetries` still holds. -/
def performAttempts (net : Network ω) (o : CurlOptions) :
    Nat → Bytes → ω → CURLcode × Bytes × ω
  | left, response, w =>
      let (transfer, w) := net.perform o w
      let response := transfer.chunks.foldl writeCallback response
      match transfer.code, left with
      | .ok, _ => (.ok, response, w)
      | .failed code, 0 => (.failed code, response, w)
      | .failed _, left + 1 => performAttempts net o left response w

/-- The options of `setupCurlOptions` stay; these five are set for each request. -/
def requestOptions (o : CurlOptions) (url accessToken : Bytes) (buffer : Addr) : CurlOptions :=
  { o with
    httpheader := .live [cString (bytes "Authorization: Bearer " ++ accessToken),
      bytes "Content-Type: application/json"]
    url := some (cString url)
    writefunction := true
    writedata := some buffer
    acceptEncoding := some (bytes "gzip, deflate") }

/-- Whatever was set on a handle, the next request sets again. -/
def CurlOptions.AsSetUp (o : CurlOptions) : Prop :=
  ∀ url accessToken buffer,
    requestOptions o url accessToken buffer = requestOptions setupCurlOptions url accessToken buffer

def CurlConnectionManager.Reusable (m : CurlConnectionManager) : Prop :=
  ∀ curl, (m.options curl).AsSetUp

structure Performed (ω : Type) where
  success : Bool
  response : Bytes
  manager : CurlConnectionManager
  world : ω

def performCurlRequest (net : Network ω) (m : CurlConnectionManager) (url accessToken : Bytes)
    (buffer : Addr) (response : Bytes) (w : ω) : Performed ω :=
  match m.getCurlHandle with
  | (none, m) => ⟨false, response, m, w⟩
  | (some curl, m) =>
      let o := requestOptions (m.options curl) url accessToken buffer
      let (res, response, w) := performAttempts net o (maxRetries - 1) response w
      -- curl_slist_free_all leaves the handle with a dangling header list
      let m := (m.setOptions curl { o with httpheader := .freed }).releaseCurlHandle curl
      ⟨res = .ok, response, m, w⟩

/-- `std::async` followed at once by `get()`. -/
def performAsyncCurlRequest (net : Network ω) (m : CurlConnectionManager)
    (url accessToken : Bytes) (buffer : Addr) (response : Bytes) (w : ω) : Performed ω :=
  performCurlRequest net m url accessToken buffer response w

end DeribitTrading
