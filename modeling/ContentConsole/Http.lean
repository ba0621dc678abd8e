import ContentConsole.Url.Basic

set_option autoImplicit false
set_option relaxedAutoImplicit false

/-!
Requests and responses over HTTP. A request is sent only if its URL and its headers are fit for it;
a network answers it, or says why it could not be sent.
-/
namespace ContentConsole.Http

inductive Method
  | get
  | put
  | delete
deriving DecidableEq, Repr

structure Request where
  method : Method
  url : Url
  /-- Names in small letters, each with its value. -/
  headers : List (String × String)
  body : Option String
deriving DecidableEq, Repr

structure Response where
  status : Nat
  body : String
deriving DecidableEq, Repr

def Response.isSuccess (r : Response) : Bool := 200 ≤ r.status && r.status < 300

/-- Carries requests in a state of its own; a failure says why nothing came back. -/
structure Network (σ : Type) where
  send : Request → σ → Except String Response × σ

def Network.unreachable {σ : Type} : Network σ :=
  ⟨fun _ state =>
    (.error "error trying to connect: tcp connect error: Network is unreachable (os error 101)",
      state)⟩

/-! ## Headers -/

private def isTokenChar (c : Char) : Bool :=
  ('a' ≤ c && c ≤ 'z') || ('A' ≤ c && c ≤ 'Z') || ('0' ≤ c && c ≤ '9') ||
    ['!', '#', '$', '%', '&', '\'', '*', '+', '-', '.', '^', '_', '\x60', '|', '~'].contains c

def isHeaderName (s : String) : Bool := !s.isEmpty && s.toList.all isTokenChar

/-- A value that a header may have: visible ASCII characters, blanks and tabs. -/
def isHeaderValue (s : String) : Bool :=
  s.toList.all fun c => c = '\t' || (0x20 ≤ c.toNat && c.toNat < 0x7F)

/-! ## Failures -/

inductive Failure
  | headerName
  | headerValue
  | scheme (url : Url)
  | unsent (url : Url) (reason : String)
deriving DecidableEq, Repr

def Failure.message : Failure → String
  | .headerName => "builder error: invalid HTTP header name"
  | .headerValue => "builder error: failed to parse header value"
  | .scheme url => s!"builder error for url ({url.text}): URL scheme is not allowed"
  | .unsent url reason => s!"error sending request for url ({url.text}): {reason}"

def isServed (scheme : String) : Bool := scheme = "http" || scheme = "https"

/-- Sends a request if its headers and its scheme allow it. -/
def Network.exchange {σ : Type} (network : Network σ) (r : Request) (state : σ) :
    Except Failure Response × σ :=
  if r.headers.any fun h => !isHeaderName h.1 then (.error .headerName, state)
  else if r.headers.any fun h => !isHeaderValue h.2 then (.error .headerValue, state)
  else if !isServed r.url.scheme then (.error (.scheme r.url), state)
  else
    match network.send r state with
    | (.ok response, state) => (.ok response, state)
    | (.error reason, state) => (.error (.unsent r.url reason), state)

end ContentConsole.Http
