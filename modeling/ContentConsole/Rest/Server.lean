import ContentConsole.Rest.Client
import ContentConsole.Server

set_option autoImplicit false
set_option relaxedAutoImplicit false

/-! The server behind a network: each call is at most one request. -/
namespace ContentConsole.RestClient

open Http (Network Request Response)

variable {σ α : Type}

def perform (network : Network σ) (request : Except Fault Request)
    (read : Url → Response → Except Fault α) (state : σ) : Except Fault α × σ :=
  match request with
  | .error e => (.error e, state)
  | .ok r =>
    match network.exchange r state with
    | (.error failure, state) => (.error (.transport failure.message), state)
    | (.ok response, state) => (read r.url response, state)

/--
Answers calls over a network. Uploads carry no content and are accepted;
`agrees` answers every question.
-/
def answer (c : RestClient) (network : Network σ) (agrees : Bool) :
    (call : Call) → σ → call.Answer × σ
  | .children id resourceId, state =>
    perform network (c.childrenRequest id resourceId) childrenOf state
  | .delete id, state => perform network (c.deleteRequest id) deletionOf state
  | .set id key value, state =>
    perform network (c.setRequest id key value)
      (fun url r => (accepted url r).map fun _ => ()) state
  | .get id key, state => perform network (c.getRequest id) (fun url => propertyOf url key) state
  | .records id facet pageSize, state =>
    perform network (c.recordsRequest id facet pageSize) recordsOf state
  | .upload _, state => (.ok (), state)
  | .confirm _, state => (agrees, state)

def server (c : RestClient) (network : Network σ) (agrees : Bool) : Server σ :=
  ⟨c.answer network agrees⟩

end ContentConsole.RestClient
