import ContentConsole.Proofs.Console.OneEntity
import ContentConsole.Proofs.Session.Deletion

set_option autoImplicit false
set_option relaxedAutoImplicit false

/-!
What the command that deletes an entity sends to the server. It reads first, and sends the deletion
last, if at all. Main statement: `run_delete_log`, by which a deletion is sent only after the server
said that the entity has no children and of what type it is, and after a yes.
-/
namespace ContentConsole

open Http (Transfer Network)

namespace RestClient.Performed

variable {α : Type} {request : Except Fault Http.Request}
  {read : Url → Http.Response → Except Fault α}
  {sent : List Transfer} {answer : Except Fault α}

theorem eq_nil_or_singleton (h : Performed request read sent answer) :
    sent = [] ∨ ∃ x, sent = [x] ∧ request = .ok x.request := by
  cases h with
  | unsent => exact .inl rfl
  | unanswered r hrequest | answered r hrequest => exact .inr ⟨_, rfl, hrequest⟩

end RestClient.Performed

namespace Session

variable {σ : Type} {client : RestClient} {network : Network σ} {agrees : Bool}
  {s s' yes last : Session (σ × List Transfer)} {h : Handle} {prompt : String}

/-- From `s` to `s'` one deletion was sent, for a node that may be deleted and after a yes. -/
def Deletes (client : RestClient) (agrees : Bool) (s : Session (σ × List Transfer)) (h : Handle)
    (s' : Session (σ × List Transfer)) : Prop :=
  agrees = true ∧ ∃ n deletion, s.outline.node? h = some n ∧ n.isDeletable = true ∧
    client.deleteRequest n.entityId = .ok deletion.request ∧ s'.state.2 = s.state.2 ++ [deletion]

theorem log_ask_confirm (hserver : s.server = client.server network.logged agrees) {answer : Bool}
    (hask : s.ask (.confirm prompt) = (answer, s')) :
    answer = agrees ∧ s'.server = client.server network.logged agrees ∧ s'.state.2 = s.state.2 := by
  obtain ⟨sent, hlog, rfl, hanswer⟩ := exists_answers_ask hserver (.confirm prompt)
  rw [hask] at hlog hanswer
  exact ⟨hanswer, (asked_of_ask_eq hask).server.trans hserver, by simpa using hlog⟩

theorem log_ask_delete (hserver : s.server = client.server network.logged agrees) {n : Node}
    {answer : Except Fault Bool} (hoffers : s.Offers h n prompt)
    (hconfirm : s.ask (.confirm prompt) = (true, yes))
    (hdelete : yes.ask (.delete n.entityId) = (answer, last)) :
    last.state.2 = s.state.2 ∨ Deletes client agrees s h last := by
  obtain ⟨hagrees, hyes, hlog⟩ := log_ask_confirm hserver hconfirm
  obtain ⟨sent, hsent, hperformed⟩ := exists_answers_ask hyes (.delete n.entityId)
  rw [hdelete, hlog] at hsent
  obtain rfl | ⟨deletion, rfl, hrequest⟩ := hperformed.eq_nil_or_singleton
  · exact .inl (by simpa using hsent)
  · exact .inr ⟨hagrees.symm, n, deletion, hoffers.node, hoffers.isDeletable, hrequest, hsent⟩

theorem persist_state (s : Session σ) : s.persist.2.state = s.state := by
  unfold persist
  split
  · rfl
  · split <;> rfl

theorem Ends.log {answer : Except Fault Bool} {calls : List Call} (hend : s.Ends h answer s' calls)
    (hserver : s.server = client.server network.logged agrees) :
    s'.state.2 = s.state.2 ∨ Deletes client agrees s h s' := by
  cases hend with
  | gone | disabled => exact .inl rfl
  | declined n prompt hoffers no hconfirm => exact .inl (log_ask_confirm hserver hconfirm).2.2
  | kept n prompt hoffers yes last answer hconfirm hdelete =>
    exact log_ask_delete hserver hoffers hconfirm hdelete
  | deleted n prompt hoffers yes last hconfirm hdelete =>
    have hlog := log_ask_delete hserver hoffers hconfirm hdelete
    rw [Deletes, persist_state]
    exact hlog

end Session

namespace Console

open Session (ShowsOne)

variable {σ : Type} {w : World σ} {i : Invocation} {c : Console} {client : RestClient}

/-- What is read before a deletion of `id`: it has no children, and its type is known. -/
structure Deletable (client : RestClient) (id : String) (reads : List Transfer) : Prop where
  childless : ∃ x ∈ reads, x.Gives (client.childrenRequest id none) RestClient.childrenOf []
  typed : ∃ x ∈ reads, ∃ type, x.Gives (client.getRequest id)
    (fun url => RestClient.propertyOf url "type") type

/-- The log of a deletion: reads alone, or with the deletion behind them. -/
inductive DeletionLog (client : RestClient) (id : String) (isAgreed : Bool) : List Transfer → Prop
  | onlyReads {reads : List Transfer} (hreads : ∀ x ∈ reads, x.request.method = .get) :
      DeletionLog client id isAgreed reads
  | deleted {reads : List Transfer} {deletion : Transfer}
      (hreads : ∀ x ∈ reads, x.request.method = .get) (hdeletable : Deletable client id reads)
      (hagreed : isAgreed = true) (hdeletion : client.deleteRequest id = .ok deletion.request) :
      DeletionLog client id isAgreed (reads ++ [deletion])

variable {network : Network σ} {agreed : Bool} {id : String} {reads : List Transfer}

theorem children_eq_nil_of_isDeletable {e : Entity} {upload : UploadState}
    (h : (Outline.rootNode e upload).isDeletable = true) : e.children = [] := by
  simp only [Outline.rootNode, Outline.freshNode, Bool.not_eq_true', Bool.or_eq_false_iff,
    Bool.not_eq_false', List.isEmpty_iff] at h
  exact h.2

theorem deletionLog_root {s s' : Session (σ × List Transfer)} {e : Entity}
    (hs : ShowsOne client network agreed e s) {answer : Except Fault Bool}
    (hlog : s.state.2 = reads) (hreads : ∀ x ∈ reads, x.request.method = .get)
    (hdeletable : e.children = [] → Deletable client e.id reads)
    (hdelete : s.delete 0 = (answer, s')) : DeletionLog client e.id agreed s'.state.2 := by
  obtain ⟨keys, upload, houtline⟩ := hs.outline
  obtain ⟨calls, hend⟩ := Session.ends_delete s 0
  rw [hdelete] at hend
  obtain hsame | ⟨hagreed, n, deletion, hn, hnode, hrequest, hsent⟩ := hend.log hs.server
  · rw [hsame, hlog]
    exact .onlyReads hreads
  · rw [houtline] at hn
    obtain rfl := Option.some.inj hn
    rw [hsent, hlog]
    exact .deleted hreads (hdeletable (children_eq_nil_of_isDeletable hnode)) hagreed hrequest

theorem deletionLog_delete (hclient : c.client = .ok client) (id : String) (isAgreed : Bool) :
    DeletionLog client id (isAgreed || w.agrees) (c.delete w.logged id isAgreed).state.2 := by
  have hconnected := c.connected_connect w client (isAgreed || w.agrees)
  obtain ⟨asked, hasked, hanswer⟩ :=
    Session.exists_answers_ask hconnected.server (.children id none)
  have hagrees : w.logged.agrees = w.agrees := rfl
  have hlog :
      ((c.connect w.logged client (isAgreed || w.agrees)).ask (.children id none)).2.state.2 =
      asked :=
    hasked
  have hreads : ∀ x ∈ asked, x.request.method = .get := fun x hx =>
    RestClient.method_childrenRequest (hanswer.request_eq x hx)
  unfold delete
  rw [hclient, hagrees]
  dsimp only
  -- Each `split` is one way out of the command; until the node is deleted, all that was sent reads.
  split
  · rename_i hchildren
    rw [hchildren] at hlog
    exact .onlyReads (hlog ▸ hreads)
  rename_i children s hchildren
  rw [hchildren] at hlog hanswer
  obtain ⟨x, rfl, hchildless⟩ := hanswer.exists_gives RestClient.isSuccess_of_childrenOf
  obtain ⟨resolved, hresolved, hmethods, hs, hentity⟩ :=
    exists_resolve (hconnected.of_asked (Session.asked_of_ask_eq hchildren)) id
  have hall : ∀ y ∈ [x] ++ resolved, y.request.method = .get :=
    List.forall_mem_append.mpr ⟨hreads, hmethods⟩
  rw [hlog] at hresolved
  split
  · rename_i hresolve
    rw [hresolve] at hresolved
    exact .onlyReads (hresolved ▸ hall)
  rename_i entity s hresolve
  rw [hresolve] at hresolved hs hentity
  obtain ⟨rfl, hmembers, y, hy, htyped⟩ := hentity entity rfl
  split
  · exact .onlyReads (hresolved ▸ hall)
  rename_i s hkeys
  obtain ⟨hhandle, hshown, hdrawn⟩ :=
    shows_of_withKeys hs hkeys (e := { entity with children }) hmembers
  have hdeletable : children = [] → Deletable client entity.id ([x] ++ resolved) := by
    rintro rfl
    exact ⟨⟨x, by simp, hchildless⟩, y, by simp [hy], htyped⟩
  have hsent := (congrArg Prod.snd hdrawn).trans hresolved
  rw [hhandle]
  split
  · exact .onlyReads (hsent ▸ hall)
  · split
    all_goals
      rename_i hdelete
      exact deletionLog_root (e := { entity with children }) hshown hsent hall hdeletable hdelete

/--
A deletion is sent at most once, as the last request, and only after the server said that the entity
has no children and of what type it is, and after a yes; all else that is sent only reads.
-/
theorem run_delete_log (w : World σ) {args : List String} {i : Invocation} {id : String}
    {isAgreed : Bool} (hread : Invocation.read args w.env = .ok i)
    (hcommand : i.command = .delete id isAgreed) :
    let log := (run w.logged args).state.2
    (∀ x ∈ log, x.request.method = .get) ∨
      ∃ client reads deletion, ClientOf w i client ∧ log = reads ++ [deletion] ∧
        (∀ x ∈ reads, x.request.method = .get) ∧
        client.deleteRequest id = .ok deletion.request ∧ deletion.request.method = .delete ∧
        (∃ x ∈ reads, x.Gives (client.childrenRequest id none) RestClient.childrenOf []) ∧
        (∃ x ∈ reads, ∃ type,
          x.Gives (client.getRequest id) (fun url => RestClient.propertyOf url "type") type) ∧
        (isAgreed = true ∨ w.agrees = true) := by
  intro log
  obtain ⟨-, hnone⟩ | ⟨c, hstart, hend⟩ := run_logged hread
  · exact .inl (by simp [log, hnone])
  · have hlog : log = (c.delete w.logged id isAgreed).state.2 := by
      rw [← show c.perform w.logged i.command =
        c.delete w.logged id isAgreed by rw [hcommand, perform], ← hend.state]
    cases hclient : c.client with
    | error e =>
      have hfailed : c.delete w.logged id isAgreed = w.logged.failed e := by rw [delete, hclient]
      exact .inl (by rw [hlog, hfailed]; exact fun x hx => absurd hx List.not_mem_nil)
    | ok client =>
      have hdeletion := deletionLog_delete (w := w) hclient id isAgreed
      rw [← hlog] at hdeletion
      generalize log = log at hdeletion
      cases hdeletion with
      | onlyReads hreads => exact .inl hreads
      | deleted hreads hdeletable hagreed hdeletion =>
        exact .inr
          ⟨client, _, _, (clientOf_iff_of_start hstart).mpr hclient, rfl, hreads, hdeletion,
          RestClient.method_deleteRequest hdeletion, hdeletable.childless, hdeletable.typed,
          by simpa using hagreed⟩

def leafServer : Network Unit where
  send r state :=
    match r.method, r.url.path with
    | .get, .segments [_, _, "children"] => (.ok ⟨200, "\x7b\"result\": []\x7d"⟩, state)
    | .get, _ =>
      (.ok ⟨200, "\x7b\"result\": [\x7b\"type\": \"Content\", \"name\": \"Leaf\"\x7d]\x7d"⟩, state)
    | _, _ => (.ok ⟨204, ""⟩, state)

theorem run_delete_log_leaf :
    let w : World Unit :=
      { files := .empty, env := fun _ => none, network := leafServer, state := () }
    let log := (run w.logged ["delete", "n1", "--yes"]).state.2
    log.map (fun x => x.request.method) = [.get, .get, .get, .delete] ∧
      ∃ client, ClientOf w ⟨.delete "n1" true, none, "table", false⟩ client ∧
        ∃ x ∈ log, x.Gives (client.childrenRequest "n1" none) RestClient.childrenOf [] := by
  intro w log
  have hmethods : log.map (fun x => x.request.method) = [.get, .get, .get, .delete] := by
    decide +kernel
  refine ⟨hmethods, ?_⟩
  have hread : Invocation.read ["delete", "n1", "--yes"] w.env =
      .ok ⟨.delete "n1" true, none, "table", false⟩ :=
    rfl
  obtain hreads | ⟨client, reads, deletion, hclient, hlog, -, -, -, ⟨x, hx, hchildless⟩, -⟩ :=
    run_delete_log w hread rfl
  · have hsent : Http.Method.delete ∈ log.map fun x => x.request.method := hmethods ▸ by decide
    obtain ⟨deletion, hdeletion, hmethod⟩ := List.mem_map.mp hsent
    exact absurd ((hreads deletion hdeletion).symm.trans hmethod) (by decide)
  · have hsent : x ∈ reads ++ [deletion] := List.mem_append_left _ hx
    rw [← hlog] at hsent
    exact ⟨client, hclient, x, hsent, hchildless⟩

end Console

end ContentConsole
