import ContentConsole.Console.Basic
import ContentConsole.Rest.Server

set_option autoImplicit false
set_option relaxedAutoImplicit false

/-!
What goes over the network. A network can keep a log of what it carries, beside its state; what a
call of the console adds to the log is at most one transfer, and its answer is read off that. Main
statement: `exists_answers_ask`.
-/
namespace ContentConsole

namespace Http

/-- A request that was sent, and what came back, or why nothing did. -/
structure Transfer where
  request : Request
  answer : Except String Response

/-- The network with a log of its transfers. -/
def Network.logged {σ : Type} (network : Network σ) : Network (σ × List Transfer) where
  send r state :=
    let (answer, next) := network.send r state.1
    (answer, next, state.2 ++ [⟨r, answer⟩])

theorem Network.send_logged {σ : Type} (network : Network σ) (r : Request)
    (state : σ × List Transfer) :
    network.logged.send r state =
      ((network.send r state.1).1, (network.send r state.1).2,
        state.2 ++ [⟨r, (network.send r state.1).1⟩]) :=
  rfl

theorem Network.exchange_logged {σ : Type} (network : Network σ) (r : Request)
    (state : σ × List Transfer) :
    (∃ failure, network.logged.exchange r state = (.error failure, state)) ∨
      (∃ reason failure next,
        network.logged.exchange r state =
          (.error failure, (next, state.2 ++ [⟨r, .error reason⟩]))) ∨
      ∃ response next,
        network.logged.exchange r state =
          (.ok response, (next, state.2 ++ [⟨r, .ok response⟩])) := by
  unfold Network.exchange
  split
  · exact .inl ⟨_, rfl⟩
  split
  · exact .inl ⟨_, rfl⟩
  split
  · exact .inl ⟨_, rfl⟩
  rcases hsend : network.send r state.1 with ⟨reason | response, next⟩
  · exact .inr (.inl ⟨reason, _, next, by rw [network.send_logged, hsend]⟩)
  · exact .inr (.inr ⟨response, next, by rw [network.send_logged, hsend]⟩)

/-- The transfer was of this request, and its response was a success that was read as a value. -/
def Transfer.Gives {α : Type} (x : Transfer) (request : Except Fault Request)
    (read : Url → Response → Except Fault α) (value : α) : Prop :=
  request = .ok x.request ∧
    ∃ response, x.answer = .ok response ∧ response.isSuccess = true ∧
      read x.request.url response = .ok value

end Http

open Http (Transfer Network Request Response)

def World.logged {σ : Type} (w : World σ) : World (σ × List Transfer) where
  files := w.files
  env := w.env
  network := w.network.logged
  state := (w.state, [])
  agrees := w.agrees

namespace RestClient

variable {σ α : Type} {c : RestClient} {request : Except Fault Request}
  {read : Url → Response → Except Fault α}
  {sent : List Transfer} {answer : Except Fault α}

/-- How a request ends: it is not sent, nothing comes back, or the response is read. -/
inductive Performed (request : Except Fault Request) (read : Url → Response → Except Fault α) :
    List Transfer → Except Fault α → Prop
  | unsent (e : Fault) : Performed request read [] (.error e)
  | unanswered (r : Request) (hrequest : request = .ok r) (reason : String) (e : Fault) :
      Performed request read [⟨r, .error reason⟩] (.error e)
  | answered (r : Request) (hrequest : request = .ok r) (response : Response) :
      Performed request read [⟨r, .ok response⟩] (read r.url response)

theorem exists_performed (network : Network σ) (request : Except Fault Request)
    (read : Url → Response → Except Fault α) (state : σ × List Transfer) :
    ∃ sent, (perform network.logged request read state).2.2 = state.2 ++ sent ∧
      Performed request read sent (perform network.logged request read state).1 := by
  cases request with
  | error e => exact ⟨[], (List.append_nil _).symm, .unsent e⟩
  | ok r =>
    rw [perform]
    rcases network.exchange_logged r state with ⟨failure, h⟩ | ⟨reason, failure, next, h⟩
      | ⟨response, next, h⟩
    · rw [h]
      exact ⟨[], (List.append_nil _).symm, .unsent _⟩
    · rw [h]
      exact ⟨_, rfl, .unanswered r rfl reason _⟩
    · rw [h]
      exact ⟨_, rfl, .answered r rfl response⟩

namespace Performed

theorem request_eq (h : Performed request read sent answer) :
    ∀ x ∈ sent, request = .ok x.request := by
  cases h with
  | unsent => exact fun x hx => absurd hx List.not_mem_nil
  | unanswered r hrequest | answered r hrequest => exact List.forall_mem_singleton.mpr hrequest

theorem exists_gives {value : α} (h : Performed request read sent (.ok value))
    (hread : ∀ {url response}, read url response = .ok value → response.isSuccess = true) :
    ∃ x, sent = [x] ∧ x.Gives request read value := by
  generalize hanswer : Except.ok value = answer at h
  cases h with
  | unsent | unanswered => cases hanswer
  | answered r hrequest response =>
    exact ⟨_, rfl, hrequest, response, rfl, hread hanswer.symm, hanswer.symm⟩

end Performed

/-! ## Calls -/

/-- What a call sends, and how it is answered. -/
def Answers (c : RestClient) (agrees : Bool) : (call : Call) → List Transfer → call.Answer → Prop
  | .children id resourceId, sent, answer =>
    Performed (c.childrenRequest id resourceId) childrenOf sent answer
  | .delete id, sent, answer => Performed (c.deleteRequest id) deletionOf sent answer
  | .set id key value, sent, answer =>
    Performed (c.setRequest id key value)
      (fun url r => (accepted url r).map fun _ => ()) sent answer
  | .get id key, sent, answer =>
    Performed (c.getRequest id) (fun url => propertyOf url key) sent answer
  | .records id facet pageSize, sent, answer =>
    Performed (c.recordsRequest id facet pageSize) recordsOf sent answer
  | .upload _, sent, answer => sent = [] ∧ answer = .ok ()
  | .confirm _, sent, answer => sent = [] ∧ answer = agrees

theorem exists_answers (c : RestClient) (network : Network σ) (agrees : Bool) (call : Call)
    (state : σ × List Transfer) :
    ∃ sent, (c.answer network.logged agrees call state).2.2 = state.2 ++ sent ∧
      c.Answers agrees call sent (c.answer network.logged agrees call state).1 := by
  cases call with
  | children | delete | set | get | records => exact exists_performed network _ _ state
  | upload | confirm => exact ⟨[], (List.append_nil _).symm, rfl, rfl⟩

theorem method_of_urlOf {id : String} {part : Option String} {method : Http.Method}
    {f : Url → Url} {body : Option Json} {r : Request}
    (h : (c.urlOf id part).map (fun url => c.request method (f url) body) = .ok r) :
    r.method = method := by
  cases hurl : c.urlOf id part with
  | error e =>
    rw [hurl] at h
    cases h
  | ok url =>
    rw [hurl] at h
    cases h
    rfl

theorem method_childrenRequest {id : String} {resourceId : Option String} {r : Request}
    (h : c.childrenRequest id resourceId = .ok r) : r.method = .get :=
  method_of_urlOf h

theorem method_getRequest {id : String} {r : Request}
    (h : c.getRequest id = .ok r) : r.method = .get :=
  method_of_urlOf (f := fun url => url) h

theorem method_deleteRequest {id : String} {r : Request}
    (h : c.deleteRequest id = .ok r) : r.method = .delete :=
  method_of_urlOf (f := fun url => url) h

theorem method_setRequest {id key : String} {value : Json} {r : Request}
    (h : c.setRequest id key value = .ok r) : r.method = .put :=
  method_of_urlOf (f := fun url => url) h

theorem isSuccess_of_accepted {url : Url} {r r' : Response}
    (h : accepted url r = .ok r') : r.isSuccess = true := by
  unfold accepted at h
  split at h
  · assumption
  · cases h

theorem isSuccess_of_itemsOf {url : Url} {r : Response} {items : List Json}
    (h : itemsOf url r = .ok items) : r.isSuccess = true := by
  cases haccepted : accepted url r with
  | error e =>
    rw [itemsOf, haccepted] at h
    cases h
  | ok r' => exact isSuccess_of_accepted haccepted

theorem isSuccess_of_childrenOf {url : Url} {r : Response} {children : List Entity}
    (h : childrenOf url r = .ok children) : r.isSuccess = true := by
  cases hitems : itemsOf url r with
  | error e =>
    rw [childrenOf, hitems] at h
    cases h
  | ok items => exact isSuccess_of_itemsOf hitems

theorem isSuccess_of_propertyOf {url : Url} {r : Response} {key : String} {value : Json}
    (h : propertyOf url key r = .ok value) : r.isSuccess = true := by
  cases hitems : itemsOf url r with
  | error e =>
    rw [propertyOf, hitems] at h
    cases h
  | ok items => exact isSuccess_of_itemsOf hitems

end RestClient

namespace Session

open RestClient (Answers)

variable {σ : Type} {client : RestClient} {network : Network σ} {agrees : Bool}

/-- A call of a session adds to the log what it sends. -/
theorem exists_answers_ask {s : Session (σ × List Transfer)}
    (hserver : s.server = client.server network.logged agrees) (call : Call) :
    ∃ sent, (s.ask call).2.state.2 = s.state.2 ++ sent ∧
      client.Answers agrees call sent (s.ask call).1 := by
  rw [ask, hserver]
  exact client.exists_answers network agrees call s.state

end Session

end ContentConsole
