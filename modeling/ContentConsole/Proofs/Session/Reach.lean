import ContentConsole.Proofs.Outline.Continues
import ContentConsole.Proofs.Session.UserAction

set_option autoImplicit false
set_option relaxedAutoImplicit false

/-!
Sessions and the outlines in them: whatever is done in a session, what it makes of the outline is
what a run of actions makes of it. Main statements: `leads_run`, by which these actions are allowed
if all edits are, all that is drawn by hand, and the taking in of children as the server gives them
for what their node shows, and `reachable_run`, by which all that holds of outlines reached by
actions holds of the outline of every session.
-/
namespace ContentConsole

namespace Outline

/-- What some allowed actions make of `o`. -/
inductive Becomes (Allowed : Outline → Action → Prop) (o : Outline) : Outline → Prop
  | refl : Becomes Allowed o o
  | tail {o' : Outline} {a : Action} (h : Becomes Allowed o o') (ha : Allowed o' a) :
    Becomes Allowed o (o'.perform a)

variable {Allowed : Outline → Action → Prop} {o o' o'' : Outline}

namespace Becomes

theorem act {a : Action} (ha : Allowed o a) : o.Becomes Allowed (o.perform a) := .tail .refl ha

theorem trans (h : o.Becomes Allowed o') (h' : o'.Becomes Allowed o'') : o.Becomes Allowed o'' := by
  induction h' with
  | refl => exact h
  | tail _ ha ih => exact .tail ih ha

theorem of_after {result : Except Fault Outline} {a : Action} (ha : o.perform a = o.after result)
    (hallowed : Allowed o a) (h : result = .ok o') : o.Becomes Allowed o' := by
  have hact := act hallowed
  rw [ha, h] at hact
  exact hact

theorem of_after_map {α : Type} {result : Except Fault (α × Outline)} {x : α} {a : Action}
    (ha : o.perform a = o.after (result.map Prod.snd)) (hallowed : Allowed o a)
    (h : result = .ok (x, o')) : o.Becomes Allowed o' :=
  of_after ha hallowed (by rw [h]; rfl)

theorem arena (h : o.Becomes Allowed o') (ha : o.Arena) : o'.Arena := by
  induction h with
  | refl => exact ha
  | tail _ _ ih => exact ih.perform _

theorem induction {P : Outline → Prop} (h : o.Becomes Allowed o') (ha : o.Arena) (ho : P o)
    (hact : ∀ o a, o.Arena → P o → Allowed o a → P (o.perform a)) : P o' := by
  induction h with
  | refl => exact ho
  | tail h hallowed ih => exact hact _ _ (h.arena ha) ih hallowed

theorem reachable (h : o.Becomes Allowed o') (ho : o.Reachable) : o'.Reachable := by
  refine h.induction ho.arena ho fun o a _ hreached _ => ?_
  obtain ⟨openKeys, actions, rfl⟩ := hreached
  exact ⟨openKeys, actions ++ [a], List.foldl_append⟩

theorem continues (h : o.Becomes Allowed o') (ha : o.Arena) : o.Continues o' :=
  h.induction (P := o.Continues) ha (.refl o) fun _ a ha c _ => c.trans (ha.continues_perform a)

theorem addressed (h : o.Becomes Allowed o') (ha : o.Arena) (hs : o.Addressed) : o'.Addressed :=
  h.induction (P := Addressed) ha hs fun _ a ha hs _ => hs.perform ha a

end Becomes

end Outline

/--
In front of the server, all may be done that draws nothing, and children may be taken in as the
server gives them for what their node shows.
-/
structure Server.Allows {σ : Type} (server : Server σ)
    (Allowed : Outline → Action → Prop) : Prop where
  edit : ∀ o a, a.IsEdit → Allowed o a
  takeEffects : ∀ o, Allowed o .takeEffects
  receive : ∀ o h id resourceId state children,
    (server.answer (.children id resourceId) state).1 = .ok children → o.Shows h id resourceId →
      Allowed o (.receive h children)

def UserAction.IsAllowed (Allowed : Outline → Action → Prop) (o : Outline) : UserAction → Prop
  | .draw e parentId resourceId replaces isExpandable =>
    Allowed o (.draw e parentId resourceId replaces isExpandable)
  | .drawTree root =>
    let first : Action := .draw root none none false (root.hasMembers && root.children.isEmpty)
    Allowed o first ∧
      Allowed (o.perform first)
        (.drawTree root (((o.perform first).node? o.nextHandle).bind Node.resourceId))
  | .view a => Allowed o a
  | _ => True

namespace Session

open Outline (Becomes)

variable {σ : Type} {Allowed : Outline → Action → Prop} {s s' s'' : Session σ}

/-- The session `s'` comes of `s` by allowed actions on the outline, in front of the same server. -/
structure Leads (Allowed : Outline → Action → Prop) (s s' : Session σ) : Prop where
  outline : s.outline.Becomes Allowed s'.outline
  server : s'.server = s.server

theorem Leads.refl (s : Session σ) : s.Leads Allowed s := ⟨.refl, rfl⟩

theorem Leads.trans (h : s.Leads Allowed s') (h' : s'.Leads Allowed s'') : s.Leads Allowed s'' :=
  ⟨h.outline.trans h'.outline, h'.server.trans h.server⟩

theorem Leads.allows (h : s.Leads Allowed s') (hserver : s.server.Allows Allowed) :
    s'.server.Allows Allowed := by
  rw [h.server]
  exact hserver

theorem leads_outline {outline : Outline} (h : s.outline.Becomes Allowed outline) :
    s.Leads Allowed { s with outline } := ⟨h, rfl⟩

theorem Asked.leads (h : s.Asked s') : s.Leads Allowed s' := by
  rw [h]
  exact ⟨.refl, rfl⟩

theorem leads_persist (s : Session σ) : s.Leads Allowed s.persist.2 := by
  unfold persist
  split
  · exact .refl s
  · split <;> exact ⟨.refl, rfl⟩

/-! Carrying out effects. -/

theorem leads_settleEach (hserver : s.server.Allows Allowed)
    (settled : List ((Handle × Entity) × Except Fault Unit)) :
    s.Leads Allowed (s.settleEach settled).2 := by
  induction settled generalizing s with
  | nil => exact .refl s
  | cons first rest ih =>
    obtain ⟨⟨h, e⟩, outcome⟩ := first
    have hfirst : s.Leads Allowed
        { s with
          outline := (s.outline.settleUpload h (outcome.mapError (Fault.ofUpload e.id))).2 } :=
      leads_outline (.act (a := .settleUpload h _) (hserver.edit _ _ trivial))
    exact hfirst.trans (ih hserver)

theorem leads_settleUploads (hserver : s.server.Allows Allowed) (staged : List (Handle × Entity)) :
    s.Leads Allowed (s.settleUploads staged).2 := by
  have hasked : s.Leads Allowed (s.askAll upload staged).2 :=
    (asked_askAll asked_upload staged).1.leads
  exact hasked.trans (leads_settleEach (hasked.allows hserver) _)

def AnswersFor (s : Session σ) (answered : Handle × Except Fault (List Entity)) : Prop :=
  ∃ id resourceId state, answered.1 < s.outline.nextHandle ∧
    s.outline.Shows answered.1 id resourceId ∧
    (s.server.answer (.children id resourceId) state).1 = answered.2

theorem AnswersFor.leads {answered : Handle × Except Fault (List Entity)}
    (h : s.AnswersFor answered) (ha : s.outline.Arena) (hleads : s.Leads Allowed s') :
    s'.AnswersFor answered := by
  obtain ⟨id, resourceId, state, hlt, hshows, hanswer⟩ := h
  have c := hleads.outline.continues ha
  exact ⟨id, resourceId, state, Nat.lt_of_lt_of_le hlt c.nextHandle_le, c.shows hlt hshows,
    hleads.server ▸ hanswer⟩

theorem leads_takeChildren (hserver : s.server.Allows Allowed)
    {answered : Handle × Except Fault (List Entity)} (hanswer : s.AnswersFor answered) :
    s.Leads Allowed (s.takeChildren answered.1 answered.2).2 := by
  obtain ⟨h, answer⟩ := answered
  obtain ⟨id, resourceId, state, -, hshows, hgiven⟩ := hanswer
  cases answer with
  | ok children =>
    have hallowed := hserver.receive s.outline h id resourceId state children hgiven hshows
    rw [takeChildren_ok]
    exact leads_outline (.act hallowed)
  | error e =>
    unfold takeChildren
    split
    · exact .refl s
    · dsimp only
      split
      · rename_i habandon
        exact leads_outline
          (.of_after (a := .abandonFetch h) rfl (hserver.edit _ _ trivial) habandon)
      · exact .refl s

theorem leads_takeEach (hserver : s.server.Allows Allowed) (ha : s.outline.Arena)
    {answers : List (Handle × Except Fault (List Entity))}
    (hanswers : ∀ w ∈ answers, s.AnswersFor w) : s.Leads Allowed (s.takeEach answers).2 := by
  induction answers generalizing s with
  | nil => exact .refl s
  | cons first rest ih =>
    have hfirst := leads_takeChildren hserver (hanswers first (List.mem_cons_self ..))
    refine hfirst.trans (ih (hfirst.allows hserver) (hfirst.outline.arena ha) fun w hw => ?_)
    exact (hanswers w (List.mem_cons_of_mem _ hw)).leads ha hfirst

theorem exists_answer_of_mem {wanted : List (Handle × String × Option String)}
    {answered : Handle × Except Fault (List Entity)}
    (h : answered ∈ (wanted.map Prod.fst).zip (s.askAll fetch wanted).1) :
    ∃ w ∈ wanted, w.1 = answered.1 ∧
      ∃ state, (s.server.answer (.children w.2.1 w.2.2) state).1 = answered.2 := by
  induction wanted generalizing s with
  | nil => cases h
  | cons w wanted ih =>
    rcases List.mem_cons.mp h with rfl | h
    · exact ⟨w, List.mem_cons_self .., rfl, s.state, rfl⟩
    · obtain ⟨w', hw', hsame⟩ := ih (s := (s.fetch w).2) h
      exact ⟨w', List.mem_cons_of_mem _ hw', hsame⟩

theorem leads_apply (hserver : s.server.Allows Allowed) (ha : s.outline.Arena)
    {effects : List Effect}
    (heffects : ∀ w ∈ effects.filterMap Effect.fetch?, w.1 < s.outline.nextHandle ∧
      s.outline.Shows w.1 w.2.1 w.2.2) :
    s.Leads Allowed (s.apply effects).2 := by
  let settled := ((s.applyProperties effects).2.applyUploads effects).2
  have hset : s.Leads Allowed (s.applyProperties effects).2 := (asked_applyProperties effects).leads
  have hsettled : s.Leads Allowed settled :=
    hset.trans (leads_settleUploads (hset.allows hserver) _)
  have hasked : settled.Leads Allowed (settled.askAll fetch (effects.filterMap Effect.fetch?)).2 :=
    (asked_askAll asked_fetch _).1.leads
  have hboth := hsettled.trans hasked
  refine hboth.trans
    (leads_takeEach (hboth.allows hserver) (hboth.outline.arena ha) fun answered hmem => ?_)
  obtain ⟨w, hw, hhandle, state, hanswer⟩ := exists_answer_of_mem (s := settled) hmem
  obtain ⟨hlt, hshows⟩ := heffects w hw
  rw [hsettled.server] at hanswer
  have hgiven : s.AnswersFor answered := by
    rw [hhandle] at hlt hshows
    exact ⟨w.2.1, w.2.2, state, hlt, hshows, hanswer⟩
  exact hgiven.leads ha hboth

theorem leads_drain (hserver : s.server.Allows Allowed) (ha : s.outline.Arena)
    (hs : s.outline.Addressed) (rounds : Nat) : s.Leads Allowed (s.drain rounds).2 := by
  induction rounds generalizing s with
  | zero => exact .refl s
  | succ rounds ih =>
    have htake : s.Leads Allowed { s with outline := s.outline.takeEffects.2 } :=
      leads_outline (.act (a := .takeEffects) (hserver.takeEffects _))
    rw [drain]
    split <;> rename_i heq
    · obtain ⟨-, rfl⟩ := Prod.mk.inj heq
      exact htake
    · obtain ⟨rfl, rfl⟩ := Prod.mk.inj heq
      let taken : Session σ := { s with outline := s.outline.takeEffects.2 }
      have hround : s.Leads Allowed (taken.apply s.outline.outbox).2 := by
        refine htake.trans
          (leads_apply (s := taken) hserver (htake.outline.arena ha) fun w hw => ?_)
        obtain ⟨e, he, hfetch⟩ := List.mem_filterMap.mp hw
        cases e with
        | fetchChildren h id resourceId =>
          cases hfetch
          exact ⟨ha.isLive_lt (ha.outbox_live _ he h rfl), hs h id resourceId he⟩
        | upload | setProperty | reloadPreviews => cases hfetch
      exact hround.trans
        (ih (hround.allows hserver) (hround.outline.arena ha) (hround.outline.addressed ha hs))

theorem leads_runEffects (hserver : s.server.Allows Allowed) (ha : s.outline.Arena)
    (hs : s.outline.Addressed) : s.Leads Allowed s.runEffects.2 := by
  have hdrain := leads_drain hserver ha hs maxRounds
  rw [runEffects]
  dsimp only
  split
  · exact hdrain
  · rw [persisted_snd]
    exact hdrain.trans (leads_persist _)

/-! What the user does. -/

theorem leads_carried (hserver : s.server.Allows Allowed) (ha : s.outline.Arena)
    (hs : s.outline.Addressed) {outline : Outline} (h : s.outline.Becomes Allowed outline) :
    s.Leads Allowed ({ s with outline } : Session σ).runEffects.2 :=
  (leads_outline h).trans
    (leads_runEffects (s := { s with outline }) hserver (h.arena ha) (h.addressed ha hs))

theorem becomes_editThenEnter (hedit : ∀ o a, a.IsEdit → Allowed o a) (o : Outline) (h : Handle)
    (name : String) : o.Becomes Allowed (editThenEnter o h name).2 := by
  unfold editThenEnter
  split
  · exact .refl
  · rename_i hopen
    have hopened : o.Becomes Allowed _ :=
      .of_after_map (a := .editName h) rfl (hedit _ _ trivial) hopen
    split
    · exact hopened
    · rename_i htype
      have htyped := hopened.trans (.of_after (a := .typeName h name) rfl (hedit _ _ trivial) htype)
      split
      · exact htyped
      · rename_i hpress
        exact htyped.trans (.of_after_map (a := .pressKey h .enter) rfl (hedit _ _ trivial) hpress)

theorem leads_rename (hserver : s.server.Allows Allowed) (ha : s.outline.Arena)
    (hs : s.outline.Addressed) (h : Handle) (name : String) :
    s.Leads Allowed (s.rename h name).2 := by
  have hnamed := becomes_editThenEnter hserver.edit s.outline h name
  unfold rename
  split
  · rename_i hedit
    rw [hedit] at hnamed
    exact leads_outline hnamed
  · rename_i committed outline hedit
    rw [hedit] at hnamed
    exact leads_carried hserver ha hs hnamed

theorem leads_leaveName (hserver : s.server.Allows Allowed) (ha : s.outline.Arena)
    (hs : s.outline.Addressed) (h : Handle) : s.Leads Allowed (s.leaveName h).2 := by
  unfold leaveName
  split
  · exact .refl s
  · rename_i committed outline hcommit
    exact leads_carried hserver ha hs
      (.of_after_map (a := .commitName h) rfl (hserver.edit _ _ trivial) hcommit)

theorem leads_toggle (hserver : s.server.Allows Allowed) (ha : s.outline.Arena)
    (hs : s.outline.Addressed) (h : Handle) : s.Leads Allowed (s.toggle h).2 := by
  rcases toggle_snd s h with heq | ⟨state, outline, htoggle, heq⟩
  · rw [heq]
    exact .refl s
  · rw [heq]
    have htoggled := leads_carried hserver ha hs
      (.of_after_map (a := .toggle h) rfl (hserver.edit _ _ trivial) htoggle)
    exact htoggled.trans (leads_persist _)

theorem leads_delete (hserver : s.server.Allows Allowed) (h : Handle) :
    s.Leads Allowed (s.delete h).2 := by
  rcases delete_snd s h with hasked | ⟨s', entityId, hasked, heq⟩
  · exact hasked.leads
  · rw [heq]
    have hforgot : s'.Leads Allowed { s' with outline := (s'.outline.forget entityId).2 } :=
      leads_outline (.act (a := .forget entityId) (hserver.edit _ _ trivial))
    exact hasked.leads.trans (hforgot.trans (leads_persist _))

theorem leads_perform (hserver : s.server.Allows Allowed) (ha : s.outline.Arena)
    (hs : s.outline.Addressed) {a : UserAction} (hallowed : a.IsAllowed Allowed s.outline) :
    s.Leads Allowed (s.perform a) := by
  have hinspected {s' : Session σ} (h : ∃ inspector, Asked { s with inspector } s') :
      s.Leads Allowed s' := by
    obtain ⟨inspector, hasked⟩ := h
    exact ⟨hasked.outline ▸ .refl, hasked.server⟩
  cases a with
  | draw e parentId resourceId replaces isExpandable =>
    rw [perform, draw_snd]
    exact leads_carried hserver ha hs (.act hallowed)
  | drawTree root =>
    obtain ⟨hroot, htree⟩ := hallowed
    rw [perform, drawTree_snd_eq]
    exact leads_carried hserver ha hs ((Becomes.act hroot).trans (.act htree))
  | toggle h => exact leads_toggle hserver ha hs h
  | runEffects => exact leads_runEffects hserver ha hs
  | settleUploads staged => exact leads_settleUploads hserver staged
  | rename h name => exact leads_rename hserver ha hs h name
  | leaveName h => exact leads_leaveName hserver ha hs h
  | delete h => exact leads_delete hserver h
  | inspect e => exact hinspected (asked_inspect s e)
  | closeInspector | editInspector => exact ⟨.refl, rfl⟩
  | blurField place => exact hinspected (asked_blurField s place)
  | flipField place => exact hinspected (asked_flipField s place)
  | accessPanel id =>
    exact (asked_askAll (fun s key => asked_ask s (.get id key)) AccessPanel.propertyKeys).1.leads
  | clickAccess panel key => exact (asked_clickAccess s panel key).leads
  | setProperty id key value => exact (asked_ask s (.set id key value)).leads
  | persist => exact leads_persist s
  | view a => exact leads_outline (.act hallowed)

/-- Each action finds an outline that is as it should be. -/
def Along (P : Outline → UserAction → Prop) : Session σ → List UserAction → Prop
  | _, [] => True
  | s, a :: actions => P s.outline a ∧ (s.perform a).Along P actions

theorem along_of_forall {P : Outline → UserAction → Prop} (h : ∀ o a, P o a) (s : Session σ)
    (actions : List UserAction) : s.Along P actions := by
  induction actions generalizing s with
  | nil => trivial
  | cons a actions ih => exact ⟨h s.outline a, ih (s.perform a)⟩

theorem leads_run (hserver : s.server.Allows Allowed) (ha : s.outline.Arena)
    (hs : s.outline.Addressed) {actions : List UserAction}
    (hallowed : s.Along (fun o a => a.IsAllowed Allowed o) actions) :
    s.Leads Allowed (s.run actions) := by
  induction actions generalizing s with
  | nil => exact .refl s
  | cons a actions ih =>
    obtain ⟨hfirst, hrest⟩ := hallowed
    have hleads := leads_perform hserver ha hs hfirst
    exact hleads.trans (ih (hleads.allows hserver) (hleads.outline.arena ha)
      (hleads.outline.addressed ha hs) hrest)

/-- Whatever is done in a session that starts with nothing drawn, actions alone
could have made its outline. -/
theorem reachable_run (s : Session σ) (openKeys : OpenKeys) (actions : List UserAction) :
    (({ s with outline := .start openKeys } : Session σ).run actions).outline.Reachable := by
  have hserver : s.server.Allows fun _ _ => True :=
    ⟨fun _ _ _ => trivial, fun _ => trivial, fun _ _ _ _ _ _ _ _ => trivial⟩
  have hallowed : ∀ (o : Outline) (a : UserAction), a.IsAllowed (fun _ _ => True) o := by
    intro o a
    cases a with
    | drawTree => exact ⟨trivial, trivial⟩
    | _ => exact trivial
  have hleads :=
    leads_run (s := { s with outline := .start openKeys }) hserver (Outline.arena_start openKeys)
    (Outline.addressed_start openKeys) (along_of_forall hallowed _ actions)
  exact hleads.outline.reachable ⟨openKeys, [], rfl⟩

end Session

end ContentConsole
