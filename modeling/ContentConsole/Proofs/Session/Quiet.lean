import ContentConsole.Proofs.Session.UserAction

set_option autoImplicit false
set_option relaxedAutoImplicit false

/-!
Quiet sessions. Carrying out effects answers for every node that waits: rounds take effects out of
the outbox, and what comes back ends the waiting of their nodes or finds them gone. Main statement:
`quiet_of_outbox_eq_nil`, by which no node waits whenever the outbox is empty, whatever the server
answered and whatever was done to the outline by hand.
-/
namespace ContentConsole.Session

open Outline (Awaited)

variable {σ : Type} {s : Session σ} {fetching uploading : List Handle}

/-- The outline is an arena in which each node that waits is asked for. -/
structure Tended (s : Session σ) (fetching uploading : List Handle) : Prop where
  arena : s.outline.Arena
  awaited : s.outline.Awaited fetching uploading

def fetchedBy (effects : List Effect) : List Handle :=
  (effects.filterMap Effect.fetch?).map Prod.fst

def uploadedBy (effects : List Effect) : List Handle :=
  (effects.filterMap Effect.upload?).map Prod.fst

namespace Tended

theorem asked {s' : Session σ} (ht : s.Tended fetching uploading) (h : s.Asked s') :
    s'.Tended fetching uploading := by
  constructor
  · rw [h.outline]
    exact ht.arena
  · rw [h.outline]
    exact ht.awaited

theorem settleEach (settled : List ((Handle × Entity) × Except Fault Unit))
    (ht : s.Tended fetching (settled.map fun staged => staged.1.1)) :
    (s.settleEach settled).2.Tended fetching [] := by
  induction settled generalizing s with
  | nil => exact ht
  | cons first rest ih =>
    obtain ⟨⟨h, e⟩, outcome⟩ := first
    have ha := ht.arena.settleUpload h (outcome.mapError (Fault.ofUpload e.id))
    have hw :=
      ht.awaited.edited
        (ht.arena.reshaped_settleUpload h (outcome.mapError (Fault.ofUpload e.id))).edited
    exact ih ⟨ha, hw.uploaded fun n hn hhandle => ht.arena.ne_pending_of_settleUpload hn hhandle⟩

theorem settleUploads (staged : List (Handle × Entity))
    (ht : s.Tended fetching (staged.map Prod.fst)) :
    (s.settleUploads staged).2.Tended fetching [] := by
  obtain ⟨hasked, hlength⟩ := asked_askAll asked_upload staged (s := s)
  have hall : (staged.zip (s.askAll upload staged).1).map (fun settled => settled.1.1) =
      staged.map Prod.fst := by
    have hfst : (staged.zip (s.askAll upload staged).1).map Prod.fst = staged :=
      List.map_fst_zip (Nat.le_of_eq hlength.symm)
    conv_rhs => rw [← hfst, List.map_map]
    rfl
  refine settleEach (staged.zip (s.askAll upload staged).1) ?_
  rw [hall]
  exact ht.asked hasked

theorem applyUploads (effects : List Effect) (ht : s.Tended fetching (uploadedBy effects)) :
    (s.applyUploads effects).2.Tended fetching [] :=
  settleUploads (effects.filterMap Effect.upload?) ht

theorem takeChildren {h : Handle} (answer : Except Fault (List Entity))
    (ht : s.Tended (h :: fetching) uploading) :
    (s.takeChildren h answer).2.Tended fetching uploading := by
  have hgone : s.outline.isLive h = false → s.Tended fetching uploading := by
    intro hlive
    refine ⟨ht.arena, ht.awaited.fetched fun n hn hhandle => ?_⟩
    rw [← hhandle, Outline.isLive_of_mem hn] at hlive
    cases hlive
  unfold Session.takeChildren
  cases hlive : s.outline.isLive h with
  | false => exact hgone hlive
  | true =>
    cases answer with
    | ok children =>
      have ha := ht.arena.receive h children
      have hw := (ht.awaited.receive ht.arena h children).fetched fun n hn hhandle =>
        ht.arena.ne_fetching_of_receive hn hhandle
      simp only [Bool.not_true, Bool.false_eq_true, if_false]
      split <;> rename_i hreceive <;> rw [hreceive] at ha hw <;> exact ⟨ha, hw⟩
    | error e =>
      simp only [Bool.not_true, Bool.false_eq_true, if_false]
      split
      · rename_i outline habandon
        have hw :=
          (ht.awaited.edited (ht.arena.reshaped_abandonFetch habandon).edited).fetched
            fun n hn hhandle =>
          ht.arena.ne_fetching_of_abandonFetch habandon hn hhandle
        exact ⟨ht.arena.abandonFetch habandon, hw⟩
      · rename_i gone habandon
        obtain ⟨n, hn⟩ := Outline.exists_node?_of_isLive hlive
        rw [Outline.abandonFetch, Outline.get_eq_ok_iff.mpr hn] at habandon
        dsimp only at habandon
        split at habandon <;> cases habandon

theorem takeEach (answers : List (Handle × Except Fault (List Entity)))
    (ht : s.Tended (answers.map Prod.fst) uploading) :
    (s.takeEach answers).2.Tended [] uploading := by
  induction answers generalizing s with
  | nil => exact ht
  | cons first rest ih =>
    obtain ⟨h, answer⟩ := first
    exact ih (takeChildren answer ht)

theorem applyFetches (effects : List Effect) (ht : s.Tended (fetchedBy effects) uploading) :
    (s.applyFetches effects).2.Tended [] uploading := by
  obtain ⟨hasked, hlength⟩ := asked_askAll asked_fetch (effects.filterMap Effect.fetch?) (s := s)
  refine takeEach ((fetchedBy effects).zip (s.askAll fetch (effects.filterMap Effect.fetch?)).1) ?_
  rw [List.map_fst_zip (by rw [fetchedBy, List.length_map]; exact Nat.le_of_eq hlength.symm)]
  exact ht.asked hasked

theorem apply (effects : List Effect) (ht : s.Tended (fetchedBy effects) (uploadedBy effects)) :
    (s.apply effects).2.Tended [] [] :=
  applyFetches effects (applyUploads effects (ht.asked (asked_applyProperties effects)))

theorem drain (rounds : Nat) (ht : s.Tended [] []) : (s.drain rounds).2.Tended [] [] := by
  induction rounds generalizing s with
  | zero => exact ht
  | succ rounds ih =>
    have htaken : ({ s with outline := s.outline.takeEffects.2 } : Session σ).Tended
        (fetchedBy s.outline.outbox) (uploadedBy s.outline.outbox) := by
      refine ⟨ht.arena.perform .takeEffects, ht.awaited.takeEffects ?_ ?_⟩
      · intro h id resourceId hasked
        exact List.mem_map.mpr ⟨(h, id, resourceId), List.mem_filterMap.mpr ⟨_, hasked, rfl⟩, rfl⟩
      · intro h e hasked
        exact List.mem_map.mpr ⟨(h, e), List.mem_filterMap.mpr ⟨_, hasked, rfl⟩, rfl⟩
    rw [Session.drain]
    split
    · rename_i outline htake
      obtain ⟨hempty, rfl⟩ := Prod.mk.inj htake
      rw [hempty] at htaken
      exact htaken
    · rename_i effects outline _ htake
      obtain ⟨rfl, rfl⟩ := Prod.mk.inj htake
      exact ih (apply s.outline.outbox htaken)

theorem persist (ht : s.Tended fetching uploading) : s.persist.2.Tended fetching uploading := by
  constructor
  · rw [persist_outline]
    exact ht.arena
  · rw [persist_outline]
    exact ht.awaited

theorem runEffects (ht : s.Tended [] []) : s.runEffects.2.Tended [] [] := by
  have hdrained := ht.drain maxRounds
  rw [Session.runEffects]
  dsimp only
  split
  · exact hdrained
  · rw [persisted_snd]
    exact hdrained.persist

/-! Each action. -/

theorem mono {fetching' uploading' : List Handle} (ht : s.Tended fetching uploading)
    (hfetching : fetching ⊆ fetching') (huploading : uploading ⊆ uploading') :
    s.Tended fetching' uploading' where
  arena := ht.arena
  awaited :=
    { fetch := fun n hn hwaits => (ht.awaited.fetch n hn hwaits).imp_right (hfetching ·)
      upload := fun n hn hwaits => (ht.awaited.upload n hn hwaits).imp_right (huploading ·) }

theorem act (ht : s.Tended [] []) {a : Action} (htake : a ≠ .takeEffects) :
    ({ s with outline := s.outline.perform a } : Session σ).Tended [] [] :=
  ⟨ht.arena.perform a, ht.awaited.perform ht.arena htake⟩

theorem retitled {h : Handle} {outline : Outline} (ht : s.Tended [] [])
    (hr : Retitled h s.outline outline) : ({ s with outline } : Session σ).Tended [] [] := by
  induction hr with
  | refl => exact ht
  | tail _ hlast ih => exact ⟨ih.arena.renamed hlast, ih.awaited.edited (.renamed h _ hlast)⟩

theorem rename (ht : s.Tended [] []) (h : Handle) (name : String) :
    (s.rename h name).2.Tended [] [] := by
  obtain ⟨outline, hretitled, heq | heq⟩ := rename_snd s h name
  · rw [heq]
    exact ht.retitled hretitled
  · rw [heq]
    exact (ht.retitled hretitled).runEffects

theorem leaveName (ht : s.Tended [] []) (h : Handle) : (s.leaveName h).2.Tended [] [] := by
  rcases leaveName_snd s h with heq | ⟨outline, hretitled, heq⟩
  · rw [heq]
    exact ht
  · rw [heq]
    exact (ht.retitled hretitled).runEffects

theorem toggle (ht : s.Tended [] []) (h : Handle) : (s.toggle h).2.Tended [] [] := by
  rcases toggle_snd s h with heq | ⟨state, outline, htoggle, heq⟩
  · rw [heq]
    exact ht
  · have htoggled : ({ s with outline } : Session σ).Tended [] [] :=
      ⟨ht.arena.toggle htoggle, ht.awaited.edited (ht.arena.reshaped_toggle htoggle).edited⟩
    rw [heq]
    exact htoggled.runEffects.persist

theorem delete (ht : s.Tended [] []) (h : Handle) : (s.delete h).2.Tended [] [] := by
  rcases delete_snd s h with hasked | ⟨s', entityId, hasked, heq⟩
  · exact ht.asked hasked
  · rw [heq]
    exact ((ht.asked hasked).act (a := .forget entityId) nofun).persist

theorem inspected {s' : Session σ} (ht : s.Tended fetching uploading)
    (h : ∃ inspector, Asked { s with inspector } s') :
    s'.Tended fetching uploading := by
  obtain ⟨inspector, hasked⟩ := h
  exact asked (s := { s with inspector }) ⟨ht.arena, ht.awaited⟩ hasked

theorem perform (ht : s.Tended [] []) {a : UserAction} (htake : a ≠ .view .takeEffects) :
    (s.perform a).Tended [] [] := by
  cases a with
  | draw e parentId resourceId replaces isExpandable =>
    have hdrawn := ht.act (a := .draw e parentId resourceId replaces isExpandable) nofun
    rw [Session.perform, draw_snd]
    exact hdrawn.runEffects
  | drawTree root =>
    obtain ⟨isExpandable, resourceId, heq⟩ := drawTree_snd s root
    have hroot := ht.act (a := .draw root none none false isExpandable) nofun
    have htree := hroot.act (a := .drawTree root resourceId) nofun
    rw [Session.perform, heq]
    exact htree.runEffects
  | toggle h => exact ht.toggle h
  | runEffects => exact ht.runEffects
  | settleUploads staged =>
    exact settleUploads staged (ht.mono (List.nil_subset _) (List.nil_subset _))
  | rename h name => exact ht.rename h name
  | leaveName h => exact ht.leaveName h
  | delete h => exact ht.delete h
  | inspect e => exact ht.inspected (asked_inspect s e)
  | closeInspector | editInspector => exact ⟨ht.arena, ht.awaited⟩
  | blurField place => exact ht.inspected (asked_blurField s place)
  | flipField place => exact ht.inspected (asked_flipField s place)
  | accessPanel id =>
    exact ht.asked
      (asked_askAll (fun s key => asked_ask s (.get id key)) AccessPanel.propertyKeys).1
  | clickAccess panel key => exact ht.asked (asked_clickAccess s panel key)
  | setProperty id key value => exact ht.asked (asked_ask s (.set id key value))
  | persist => exact ht.persist
  | view a =>
    refine ht.act ?_
    rintro rfl
    exact htake rfl

theorem run (ht : s.Tended [] []) {actions : List UserAction}
    (htake : .view .takeEffects ∉ actions) :
    (s.run actions).Tended [] [] := by
  induction actions generalizing s with
  | nil => exact ht
  | cons a actions ih =>
    have hfirst : a ≠ .view .takeEffects := fun heq => htake (heq ▸ List.mem_cons_self ..)
    exact ih (ht.perform hfirst) fun hmem => htake (List.mem_cons_of_mem a hmem)

end Tended

theorem tended_start (s : Session σ) (openKeys : OpenKeys) :
    ({ s with outline := .start openKeys } : Session σ).Tended [] [] :=
  ⟨Outline.arena_start openKeys, Outline.awaited_start openKeys⟩

/--
Whatever was done before, if not by emptying the outbox by hand, and whatever the server answered:
when the outbox is empty, then or after effects were carried out, no node waits.
-/
theorem quiet_of_outbox_eq_nil (s : Session σ) (openKeys : OpenKeys) (actions : List UserAction)
    (htake : .view .takeEffects ∉ actions) :
    let s' := ({ s with outline := .start openKeys } : Session σ).run actions
    (s'.outline.outbox = [] → s'.outline.Quiet) ∧
      (s'.runEffects.2.outline.outbox = [] → s'.runEffects.2.outline.Quiet) := by
  intro s'
  have ht : s'.Tended [] [] := (tended_start s openKeys).run htake
  exact ⟨ht.awaited.quiet, ht.runEffects.awaited.quiet⟩

def reluctantServer : Server Unit where
  answer call state := (match call with
    | .children id _ =>
      if id = "a" then .ok [⟨"i", "", none, .image, []⟩, ⟨"c", "", none, .content, []⟩]
      else .error (.notFound id)
    | .delete id | .set id _ _ | .get id _ | .records id _ _ => .error (.notFound id)
    | .upload e => .error (.upload e.id "refused")
    | .confirm _ => true, state)

def reluctantSession : Session Unit :=
  { server := reluctantServer, state := (), acceptsUploads := false }

def refusedActions : List UserAction :=
  [.view (.draw ⟨"a", "", none, .emptyElement, []⟩ none none true true),
    .view (.draw ⟨"b", "", none, .emptyElement, []⟩ none none true true), .view (.toggle 0),
    .view (.toggle 1), .runEffects]

theorem quiet_refusedActions :
    let s' := ({ reluctantSession with outline := .start .empty } : Session Unit).run refusedActions
    s'.outline.nodes.map Node.handle = [0, 1, 3] ∧ s'.outline.outbox = [] ∧ s'.outline.Quiet := by
  intro s'
  have hempty : s'.outline.outbox = [] := List.isEmpty_iff.mp (by decide +kernel)
  have htake : .view .takeEffects ∉ refusedActions := by simp [refusedActions]
  exact ⟨by decide +kernel, hempty,
    (quiet_of_outbox_eq_nil reluctantSession .empty refusedActions htake).1 hempty⟩

end ContentConsole.Session
