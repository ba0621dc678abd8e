import ContentConsole.Proofs.Session.Failure
import ContentConsole.Proofs.Session.Reach

set_option autoImplicit false
set_option relaxedAutoImplicit false

/-!
Deleting the entity of a node. Main statement: `delete_protocol`, by which a deletion asks first the
user and then the server, each at most once, leaves everything as it was unless the server deleted
the entity, and else leaves nothing of the entity behind.
-/
namespace ContentConsole

namespace Outline

variable {o o' : Outline} {entityId : String}

/-- The outline `o'` is `o` after an entity was deleted. -/
structure Without (o : Outline) (entityId : String) (o' : Outline) : Prop where
  /-- No node shows the entity any more. -/
  shown : ∀ m ∈ o'.nodes, m.entityId ≠ entityId
  /-- What stood below a node that showed it is gone too. -/
  below : ∀ a ∈ o.nodes, a.entityId = entityId → ∀ m ∈ o.nodes, o.Below a.handle m.handle →
    o'.isLive m.handle = false
  keys : ∀ key, key ∈ o'.openKeys ↔ key ∈ o.openKeys ∧ key.mentions entityId = false
  /-- A node that neither showed the entity nor stood below one that did loses at most children. -/
  others : ∀ m ∈ o.nodes, (∀ a ∈ o.nodes, o.Below a.handle m.handle → a.entityId ≠ entityId) →
    o'.node? m.handle = some (m.trim o'.isLive)
  /-- What stands was there before. -/
  old : ∀ m ∈ o'.nodes, ∃ n ∈ o.nodes, n.trim o'.isLive = m
  /-- The effects that are left are those of before that are for no node or for one that stands. -/
  outbox : o'.outbox = o.outbox.filter fun e => e.node?.all o'.isLive
  roots : o'.roots = o.roots.filter o'.isLive
  selected : o'.selected = o.selected.filter o'.isLive

theorem Arena.without_forget (ha : o.Arena) (entityId : String) :
    o.Without entityId (o.forget entityId).2 := by
  obtain ⟨keep, hkeep, hforget, hiff⟩ := ha.exists_forget_eq entityId
  have hrestrict := ha.restrict_isLive keep
  have hnodes : ∀ m, m ∈ (o.restrict keep).nodes ↔
      ∃ n ∈ o.nodes, (o.restrict keep).isLive n.handle = true ∧
        n.trim (o.restrict keep).isLive = m := by
    intro m
    rw [← mem_restrict_nodes, hrestrict]
  rw [hforget]
  refine ⟨?_, ?_, fun key => OpenKeys.mem_forget, ?_, ?_, ?_, ?_, ?_⟩
  · intro m hm
    obtain ⟨n, hn, hkept, rfl⟩ := mem_restrict_nodes.mp hm
    exact (hiff n hn).mp hkept n hn .refl
  · intro a hshows hid m hm hbelow
    by_contra hstays
    have hkept := (isLive_restrict.mp (Bool.not_eq_false _ ▸ hstays)).2
    exact (hiff m hm).mp hkept a hshows hbelow hid
  · intro m hm hout
    have hlive := isLive_restrict.mpr ⟨isLive_of_mem hm, (hiff m hm).mpr hout⟩
    exact (ha.restrict hkeep).node?_handle ((hnodes _).mpr ⟨m, hm, hlive, rfl⟩)
  · intro m hm
    obtain ⟨n, hn, -, htrim⟩ := (hnodes m).mp hm
    exact ⟨n, hn, htrim⟩
  · exact congrArg Outline.outbox hrestrict.symm
  · exact congrArg Outline.roots hrestrict.symm
  · exact congrArg Outline.selected hrestrict.symm

end Outline

namespace Session

variable {σ : Type} {s s' : Session σ} {h : Handle} {answer : Except Fault Bool} {made : List Call}

/-- Among the calls made from this session on, the server answers one in this way. -/
def Answered (s : Session σ) (calls : List Call) (call : Call) (answer : call.Answer) : Prop :=
  ∃ before rest, calls = before ++ call :: rest ∧
    (s.server.answer call (s.server.after s.state before)).1 = answer

/-- The deletion of a node is offered with a question. -/
structure Offers (s : Session σ) (h : Handle) (n : Node) (prompt : String) : Prop where
  node : s.outline.node? h = some n
  isDeletable : n.isDeletable = true
  prompt : s.outline.deletionPrompt h = .ok (some prompt)

def forget (s : Session σ) (entityId : String) : Session σ :=
  { s with outline := (s.outline.forget entityId).2 }

/-- The ways in which a deletion ends: with its answer, what it leaves
behind and the calls it made. -/
inductive Ends (s : Session σ) (h : Handle) : Except Fault Bool → Session σ → List Call → Prop
  | gone (hnode : s.outline.node? h = none) : Ends s h (.error (.unknownNode h)) s []
  | disabled : Ends s h (.ok false) s []
  | declined (n : Node) (prompt : String) (hoffers : s.Offers h n prompt) (no : Session σ)
      (hconfirm : s.ask (.confirm prompt) = (false, no)) : Ends s h (.ok false) no [.confirm prompt]
  | kept (n : Node) (prompt : String) (hoffers : s.Offers h n prompt) (yes last : Session σ)
      (answer : Except Fault Bool) (hconfirm : s.ask (.confirm prompt) = (true, yes))
      (hdelete : yes.ask (.delete n.entityId) = (answer, last)) (hanswer : answer ≠ .ok true) :
      Ends s h answer last [.confirm prompt, .delete n.entityId]
  | deleted (n : Node) (prompt : String) (hoffers : s.Offers h n prompt) (yes last : Session σ)
      (hconfirm : s.ask (.confirm prompt) = (true, yes))
      (hdelete : yes.ask (.delete n.entityId) = (.ok true, last)) :
      Ends s h ((last.forget n.entityId).persist.1.map fun _ => true)
        (last.forget n.entityId).persist.2
        [.confirm prompt, .delete n.entityId]

theorem offers_of_prompt {n : Node} {prompt : String} (hget : s.outline.get h = .ok n)
    (hprompt : s.outline.deletionPrompt h = .ok (some prompt)) : s.Offers h n prompt := by
  refine ⟨Outline.get_eq_ok_iff.mp hget, ?_, hprompt⟩
  rw [Outline.deletionPrompt, hget] at hprompt
  dsimp only at hprompt
  split at hprompt
  · rename_i hdeletable
    exact hdeletable
  · cases hprompt

theorem ends_delete (s : Session σ) (h : Handle) :
    ∃ calls, s.Ends h (s.delete h).1 (s.delete h).2 calls := by
  unfold delete
  cases hget : s.outline.get h with
  | error e =>
    cases hnode : s.outline.node? h with
    | some n =>
      rw [Outline.get_eq_ok_iff.mpr hnode] at hget
      cases hget
    | none =>
      rw [Outline.get, hnode] at hget
      cases hget
      exact ⟨[], .gone hnode⟩
  | ok n =>
    cases hprompt : s.outline.deletionPrompt h with
    | error e =>
      rw [Outline.deletionPrompt, hget] at hprompt
      dsimp only at hprompt
      split at hprompt <;> cases hprompt
    | ok question =>
      cases question with
      | none => exact ⟨[], .disabled⟩
      | some prompt =>
        have hoffers := offers_of_prompt hget hprompt
        dsimp only
        split
        · rename_i no hconfirm
          exact ⟨_, .declined n prompt hoffers no hconfirm⟩
        · rename_i yes hconfirm
          split
          · rename_i e last hdelete
            exact ⟨_, .kept n prompt hoffers yes last (.error e) hconfirm hdelete (by simp)⟩
          · rename_i last hdelete
            exact ⟨_, .kept n prompt hoffers yes last (.ok false) hconfirm hdelete (by simp)⟩
          · rename_i last hdelete
            have hend := Ends.deleted n prompt hoffers yes last hconfirm hdelete
            refine ⟨[.confirm prompt, .delete n.entityId], ?_⟩
            split <;> rename_i hpersist <;> rw [forget, hpersist] at hend <;> exact hend

theorem answered_delete_iff {prompt id id' : String} :
    s.Answered [.confirm prompt, .delete id] (.delete id') answer ↔
      id = id' ∧ ((s.ask (.confirm prompt)).2.ask (.delete id)).1 = answer := by
  constructor
  · rintro ⟨before, rest, heq, hanswer⟩
    match before, heq with
    | [first], heq =>
      obtain ⟨hfirst, hrest⟩ := List.cons.inj heq
      obtain ⟨hsecond, -⟩ := List.cons.inj hrest
      cases hfirst
      cases hsecond
      exact ⟨rfl, hanswer⟩
    | first :: second :: before, heq => simp at heq
  · rintro ⟨rfl, hanswer⟩
    exact ⟨[.confirm prompt], [], rfl, hanswer⟩

theorem persist_fst (s : Session σ) :
    s.persist.1 = .ok () ∨ ∃ detail, s.persist.1 = .error (.io detail) := by
  unfold persist
  split
  · exact .inl rfl
  · rename_i path _
    rw [OpenKeys.save]
    cases s.files.saveText path s.outline.openKeys.toText with
    | ok files => exact .inl rfl
    | error failure => exact .inr ⟨failure.message, rfl⟩

namespace Ends

theorem calls (hend : s.Ends h answer s' made) : s.Calls made s' := by
  have hask {s s' : Session σ} {call : Call} {answer : call.Answer}
      (heq : s.ask call = (answer, s')) :
      s.Calls [call] s' := by
    have hcalls := calls_ask s call
    rwa [heq] at hcalls
  cases hend with
  | gone | disabled => exact .refl s
  | declined n prompt hoffers no hconfirm => exact hask hconfirm
  | kept n prompt hoffers yes last answer hconfirm hdelete =>
    exact (hask hconfirm).trans (hask hdelete)
  | deleted n prompt hoffers yes last hconfirm hdelete =>
    have hforgotten := (calls_outline last _).trans (calls_persist (last.forget n.entityId))
    exact (hask hconfirm).trans ((hask hdelete).trans hforgotten)

theorem asks (hend : s.Ends h answer s' made) : made = [] ∨ ∃ n prompt, s.Offers h n prompt ∧
    (made = [.confirm prompt] ∨
      made = [.confirm prompt, .delete n.entityId] ∧ s.Answered made (.confirm prompt) true) := by
  cases hend with
  | gone | disabled => exact .inl rfl
  | declined n prompt hoffers => exact .inr ⟨n, prompt, hoffers, .inl rfl⟩
  | kept n prompt hoffers _ _ _ hconfirm | deleted n prompt hoffers _ _ hconfirm =>
    have hyes : s.Answered [.confirm prompt, .delete n.entityId] (.confirm prompt) true :=
      ⟨[], [.delete n.entityId], rfl, congrArg Prod.fst hconfirm⟩
    exact .inr ⟨n, prompt, hoffers, .inr ⟨rfl, hyes⟩⟩

theorem asked (hend : s.Ends h answer s' made)
    (hanswer : answer = .ok false ∨ (∃ x, answer = .error (.unknownNode x)) ∨
      ∃ id e, s.Answered made (.delete id) (.error e) ∧ answer = .error e) : s.Asked s' := by
  cases hend with
  | gone | disabled => exact .refl s
  | declined n prompt hoffers no hconfirm => exact asked_of_ask_eq hconfirm
  | kept n prompt hoffers yes last answer hconfirm hdelete =>
    exact (asked_of_ask_eq hconfirm).trans (asked_of_ask_eq hdelete)
  | deleted n prompt hoffers yes last hconfirm hdelete =>
    exfalso
    have hsaved := persist_fst (last.forget n.entityId)
    rcases hanswer with hno | ⟨x, hunknown⟩ | ⟨id, e, hrefused, -⟩
    · rcases hsaved with heq | ⟨detail, heq⟩ <;> rw [heq] at hno <;> cases hno
    · rcases hsaved with heq | ⟨detail, heq⟩ <;> rw [heq] at hunknown <;> cases hunknown
    · obtain ⟨-, herror⟩ := answered_delete_iff.mp hrefused
      rw [hconfirm, hdelete] at herror
      cases herror

theorem without (hend : s.Ends h answer s' made) (ha : s.outline.Arena) {id : String}
    (hdeleted : s.Answered made (.delete id) (.ok true)) : s.outline.Without id s'.outline := by
  cases hend with
  | gone | disabled | declined =>
    obtain ⟨before, rest, heq, -⟩ := hdeleted
    have hmem : Call.delete id ∈ before ++ Call.delete id :: rest :=
      List.mem_append_right _ (List.mem_cons_self ..)
    rw [← heq] at hmem
    simp at hmem
  | kept n prompt hoffers yes last answer hconfirm hdelete hanswer =>
    obtain ⟨rfl, htrue⟩ := answered_delete_iff.mp hdeleted
    rw [hconfirm, hdelete] at htrue
    exact absurd htrue hanswer
  | deleted n prompt hoffers yes last hconfirm hdelete =>
    obtain ⟨rfl, -⟩ := answered_delete_iff.mp hdeleted
    have hlast := (asked_of_ask_eq hconfirm).trans (asked_of_ask_eq hdelete)
    have hleft := ha.without_forget n.entityId
    rw [← hlast.outline] at hleft
    rw [persist_outline]
    exact hlast.outline ▸ hleft

end Ends

/--
A deletion asks nothing, or first the user, who must be offered it, and after a yes the
server for the entity of the node. Everything stays as it was if the answer is no, that there
is no such node, or what the server refused the deletion with. If the server deleted the
entity, the outline is left without it.
-/
theorem delete_protocol (s₀ : Session σ) (openKeys : OpenKeys) (actions : List UserAction)
    (h : Handle) :
    let s := ({ s₀ with outline := .start openKeys } : Session σ).run actions
    let answer := (s.delete h).1
    let s' := (s.delete h).2
    ∃ made, s.Calls made s' ∧
      (made = [] ∨ ∃ n prompt, s.Offers h n prompt ∧
        (made = [.confirm prompt] ∨
          made = [.confirm prompt, .delete n.entityId] ∧ s.Answered made (.confirm prompt) true)) ∧
      ((answer = .ok false ∨ (∃ x, answer = .error (.unknownNode x)) ∨
          ∃ id e, s.Answered made (.delete id) (.error e) ∧ answer = .error e) →
        s'.outline = s.outline ∧ s'.files = s.files) ∧
      ∀ id, s.Answered made (.delete id) (.ok true) → s.outline.Without id s'.outline := by
  intro s answer s'
  have ha : s.outline.Arena := (reachable_run s₀ openKeys actions).arena
  obtain ⟨made, hend⟩ := ends_delete s h
  refine ⟨made, hend.calls, hend.asks, fun hanswer => ?_, fun id => hend.without ha⟩
  have hasked := hend.asked hanswer
  exact ⟨hasked.outline, hasked.files⟩

end Session

end ContentConsole
