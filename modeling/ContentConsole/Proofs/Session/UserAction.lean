import ContentConsole.Proofs.Outline.Awaited
import ContentConsole.Session.Properties
import ContentConsole.Session.Tree

set_option autoImplicit false
set_option relaxedAutoImplicit false

/-!
All that can be done in a session, in any order: what the user does in the outline, in the
inspector and in the access panel, and what is done to the outline by hand. Beside it stands what
the parts of a session leave alone.
-/
namespace ContentConsole

inductive UserAction
  | draw (e : Entity) (parentId resourceId : Option String) (replaces isExpandable : Bool)
  | drawTree (root : Entity)
  | toggle (h : Handle)
  | runEffects
  | settleUploads (staged : List (Handle × Entity))
  | rename (h : Handle) (name : String)
  | leaveName (h : Handle)
  | delete (h : Handle)
  | inspect (e : Entity)
  | closeInspector
  | blurField (place : FieldRef)
  | flipField (place : FieldRef)
  /-- The inspector is edited by hand. -/
  | editInspector (inspector : Inspector)
  | accessPanel (id : String)
  | clickAccess (panel : AccessPanel) (key : String)
  | setProperty (id key : String) (value : Json)
  | persist
  /-- The outline is acted on by hand; what that asks for stays in the outbox. -/
  | view (a : Action)

namespace Session

variable {σ : Type}

def perform (s : Session σ) : UserAction → Session σ
  | .draw e parentId resourceId replaces isExpandable =>
    (s.draw e parentId resourceId replaces isExpandable).2.2
  | .drawTree root => (s.drawTree root).2.2
  | .toggle h => (s.toggle h).2
  | .runEffects => s.runEffects.2
  | .settleUploads staged => (s.settleUploads staged).2
  | .rename h name => (s.rename h name).2
  | .leaveName h => (s.leaveName h).2
  | .delete h => (s.delete h).2
  | .inspect e => (s.inspect e).2
  | .closeInspector => s.closeInspector
  | .blurField place => (s.blurField place).2
  | .flipField place => (s.flipField place).2
  | .editInspector inspector => { s with inspector }
  | .accessPanel id => (s.accessPanel id).2
  | .clickAccess panel key => (s.clickAccess panel key).2
  | .setProperty id key value => (s.ask (.set id key value)).2
  | .persist => s.persist.2
  | .view a => { s with outline := s.outline.perform a }

def run (s : Session σ) (actions : List UserAction) : Session σ := actions.foldl perform s

/-! What asking leaves alone. -/

/-- The session `s'` is `s` after some calls to the server. -/
def Asked (s s' : Session σ) : Prop := s' = { s with state := s'.state, calls := s'.calls }

variable {s s' s'' : Session σ}

namespace Asked

theorem refl (s : Session σ) : s.Asked s := rfl

theorem trans (h : s.Asked s') (h' : s'.Asked s'') : s.Asked s'' := by
  rw [Asked, h', h]

theorem outline (h : s.Asked s') : s'.outline = s.outline := by rw [h]

theorem server (h : s.Asked s') : s'.server = s.server := by rw [h]

theorem files (h : s.Asked s') : s'.files = s.files := by rw [h]

theorem keyFile (h : s.Asked s') : s'.keyFile = s.keyFile := by rw [h]

end Asked

theorem asked_ask (s : Session σ) (call : Call) : s.Asked (s.ask call).2 := rfl

theorem asked_of_ask_eq {call : Call} {answer : call.Answer}
    (h : s.ask call = (answer, s')) : s.Asked s' := by
  have hasked := asked_ask s call
  rwa [h] at hasked

theorem asked_askAll {α β : Type} {ask : Session σ → α → β × Session σ}
    (hask : ∀ (s : Session σ) x, s.Asked (ask s x).2) (xs : List α) :
    s.Asked (s.askAll ask xs).2 ∧ (s.askAll ask xs).1.length = xs.length := by
  induction xs generalizing s with
  | nil => exact ⟨.refl s, rfl⟩
  | cons x xs ih =>
    obtain ⟨hrest, hlength⟩ := ih (s := (ask s x).2)
    exact ⟨(hask s x).trans hrest, congrArg (· + 1) hlength⟩

theorem asked_applyProperties (effects : List Effect) : s.Asked (s.applyProperties effects).2 := by
  induction effects generalizing s with
  | nil => exact .refl s
  | cons effect effects ih =>
    cases effect with
    | setProperty id key value =>
      have hrest := (asked_ask s (.set id key value)).trans ih
      rw [applyProperties]
      dsimp only
      split <;> exact hrest
    | reloadPreviews | fetchChildren | upload => exact ih

theorem asked_upload (s : Session σ) (staged : Handle × Entity) : s.Asked (s.upload staged).2 := by
  rw [upload]
  split
  · exact .refl s
  · exact asked_ask s _

theorem asked_fetch (s : Session σ) (wanted : Handle × String × Option String) :
    s.Asked (s.fetch wanted).2 := asked_ask s (.children wanted.2.1 wanted.2.2)

theorem persist_outline (s : Session σ) : s.persist.2.outline = s.outline := by
  unfold persist
  split
  · rfl
  · split <;> rfl

theorem persisted_snd (s : Session σ) : s.persisted.2 = s.persist.2 := by
  unfold persisted
  split <;> rename_i h <;> rw [h]

theorem asked_load (requests : List FacetRequest) (s : Session σ) :
    ∃ inspector, Asked { s with inspector } (s.load requests).2 := by
  induction requests generalizing s with
  | nil => exact ⟨s.inspector, .refl s⟩
  | cons request requests ih =>
    obtain ⟨inspector, hrest⟩ := ih _
    exact ⟨inspector, hrest⟩

theorem asked_inspect (s : Session σ) (e : Entity) :
    ∃ inspector, Asked { s with inspector } (s.inspect e).2 := by
  obtain ⟨inspector, hasked⟩ := asked_load (s.inspector.inspect e).1
    { s with inspector := (s.inspector.inspect e).2 }
  exact ⟨inspector, hasked⟩

theorem asked_apply {effects : List Effect} (hnode : ∀ e ∈ effects, e.node? = none) :
    s.Asked (s.apply effects).2 := by
  have huploads : effects.filterMap Effect.upload? = [] := by
    refine List.filterMap_eq_nil_iff.mpr fun e he => ?_
    cases e with
    | upload node entity => cases hnode _ he
    | fetchChildren | setProperty | reloadPreviews => rfl
  have hfetches : effects.filterMap Effect.fetch? = [] := by
    refine List.filterMap_eq_nil_iff.mpr fun e he => ?_
    cases e with
    | fetchChildren node entityId resourceId => cases hnode _ he
    | upload | setProperty | reloadPreviews => rfl
  have huploaded (s : Session σ) : (s.applyUploads effects).2 = s := by
    rw [applyUploads, huploads]
    rfl
  have hfetched (s : Session σ) : (s.applyFetches effects).2 = s := by
    rw [applyFetches, hfetches]
    rfl
  have heq : (s.apply effects).2 = (s.applyProperties effects).2 := by
    change (((s.applyProperties effects).2.applyUploads effects).2.applyFetches effects).2 = _
    rw [huploaded, hfetched]
  rw [heq]
  exact asked_applyProperties effects

theorem asked_applied {edited : Except Fault (List Effect × Inspector)}
    (hnode : ∀ edit, edited = .ok edit → ∀ e ∈ edit.1, e.node? = none) (s : Session σ) :
    ∃ inspector, Asked { s with inspector } (s.applied edited).2 := by
  cases edited with
  | error e => exact ⟨s.inspector, .refl s⟩
  | ok edit => exact ⟨edit.2, asked_apply (hnode edit rfl)⟩

theorem asked_blurField (s : Session σ) (place : FieldRef) :
    ∃ inspector, Asked { s with inspector } (s.blurField place).2 := by
  refine asked_applied (fun edit hblur => ?_) s
  rw [Inspector.blur] at hblur
  split at hblur
  · cases hblur
  · cases hblur
    dsimp only
    split
    · exact fun _ he => absurd he List.not_mem_nil
    · split <;> simp [Effect.node?]

theorem asked_flipField (s : Session σ) (place : FieldRef) :
    ∃ inspector, Asked { s with inspector } (s.flipField place).2 := by
  refine asked_applied (fun edit hflip => ?_) s
  rw [Inspector.flip] at hflip
  split at hflip
  · cases hflip
  · split at hflip <;> cases hflip <;> simp [Effect.node?]

theorem asked_clickAccess (s : Session σ) (panel : AccessPanel) (key : String) :
    s.Asked (s.clickAccess panel key).2 := by
  unfold clickAccess
  split
  · exact .refl s
  · rename_i hclick
    rw [AccessPanel.click] at hclick
    split at hclick
    · cases hclick
    · rename_i audience _
      cases hclick
      change s.Asked
        (s.apply [.setProperty panel.entityId audience.key (.bool !panel.isVisibleTo audience)]).2
      refine asked_apply fun e he => ?_
      rw [List.mem_singleton.mp he]
      rfl

/-! What the actions of several steps come to. -/

theorem drain_of_outbox_eq_nil (hempty : s.outline.outbox = []) (rounds : Nat) :
    s.drain rounds = ({}, s) := by
  cases rounds with
  | zero => rfl
  | succ rounds =>
    have htaken : s.outline.takeEffects = ([], s.outline) := by
      rw [Outline.takeEffects, ← hempty]
    rw [drain, htaken]

theorem drain_snd_of_outbox_eq_nil (hempty : s.outline.outbox = []) (rounds : Nat) :
    (s.drain rounds).2 = s := by
  rw [drain_of_outbox_eq_nil hempty]

theorem takeChildren_ok (s : Session σ) (h : Handle) (children : List Entity) :
    (s.takeChildren h (.ok children)).2 =
      { s with outline := (s.outline.receive h children).2 } := by
  rw [takeChildren]
  cases hlive : s.outline.isLive h with
  | false =>
    rw [Outline.receive, Outline.get, Outline.node?_eq_none hlive, Bool.not_false, if_pos rfl]
  | true =>
    rw [Bool.not_true, if_neg Bool.false_ne_true]
    split <;> rename_i hreceive <;> rw [hreceive]

/-- The outline `o'` comes of `o` by showing the name of a node in other ways. -/
def Retitled (h : Handle) : Outline → Outline → Prop :=
  Relation.ReflTransGen fun o o' => o.Renamed h o'

theorem Retitled.openKeys {o o' : Outline} {h : Handle} (hr : Retitled h o o') :
    o'.openKeys = o.openKeys := by
  induction hr with
  | refl => rfl
  | tail _ hlast ih =>
    rcases hlast with rfl | ⟨f, effects, rfl, -, -⟩
    · exact ih
    · exact ih

theorem draw_snd (s : Session σ) (e : Entity) (parentId resourceId : Option String)
    (replaces isExpandable : Bool) : (s.draw e parentId resourceId replaces isExpandable).2.2 =
      ({ s with outline := s.outline.perform (.draw e parentId resourceId replaces isExpandable) } :
        Session σ).runEffects.2 := by
  rw [draw, Outline.perform]

theorem drawTree_snd_eq (s : Session σ) (root : Entity) :
    let o :=
      s.outline.perform (.draw root none none false (root.hasMembers && root.children.isEmpty))
    (s.drawTree root).2.2 = ({ s with
      outline :=
        o.perform (.drawTree root ((o.node? s.outline.nextHandle).bind Node.resourceId)) } :
        Session σ).runEffects.2 := by
  intro o
  have hhandle :
      (s.outline.draw root none none false (root.hasMembers && root.children.isEmpty)).1.handle =
      s.outline.nextHandle := Outline.drawAt_handle _ root
  rw [drawTree, ← hhandle]
  rfl

theorem drawTree_snd (s : Session σ) (root : Entity) : ∃ isExpandable resourceId,
    (s.drawTree root).2.2 = ({ s with
      outline := (s.outline.perform (.draw root none none false isExpandable)).perform
        (.drawTree root resourceId) } : Session σ).runEffects.2 :=
  ⟨_, _, drawTree_snd_eq s root⟩

theorem retitled_editThenEnter (o : Outline) (h : Handle) (name : String) :
    Retitled h o (editThenEnter o h name).2 := by
  unfold editThenEnter
  split
  · exact .refl
  · rename_i hedit
    have hedited : Retitled h o _ := .single (Outline.renamed_editName hedit)
    split
    · exact hedited
    · rename_i htype
      have htyped := hedited.tail (Outline.renamed_typeName htype)
      split
      · exact htyped
      · rename_i hpress
        exact htyped.tail (Outline.renamed_commitName hpress)

theorem rename_snd (s : Session σ) (h : Handle) (name : String) :
    ∃ outline, Retitled h s.outline outline ∧ ((s.rename h name).2 = { s with outline } ∨
      (s.rename h name).2 = ({ s with outline } : Session σ).runEffects.2) := by
  have hretitled := retitled_editThenEnter s.outline h name
  unfold rename
  split
  · rename_i hedit
    rw [hedit] at hretitled
    exact ⟨_, hretitled, .inl rfl⟩
  · rename_i hedit
    rw [hedit] at hretitled
    exact ⟨_, hretitled, .inr rfl⟩

theorem leaveName_snd (s : Session σ) (h : Handle) :
    (s.leaveName h).2 = s ∨ ∃ outline, Retitled h s.outline outline ∧
      (s.leaveName h).2 = ({ s with outline } : Session σ).runEffects.2 := by
  unfold leaveName
  split
  · exact .inl rfl
  · rename_i hcommit
    exact .inr ⟨_, .single (Outline.renamed_commitName hcommit), rfl⟩

theorem toggle_snd (s : Session σ) (h : Handle) :
    (s.toggle h).2 = s ∨ ∃ state outline, s.outline.toggle h = .ok (state, outline) ∧
      (s.toggle h).2 = ({ s with outline } : Session σ).runEffects.2.persist.2 := by
  unfold toggle
  split
  · exact .inl rfl
  · rename_i state outline htoggle
    refine .inr ⟨state, outline, htoggle, ?_⟩
    rw [← persisted_snd]
    dsimp only
    split <;> rfl

theorem delete_snd (s : Session σ) (h : Handle) :
    s.Asked (s.delete h).2 ∨ ∃ s' entityId, s.Asked s' ∧
      (s.delete h).2 =
        ({ s' with outline := (s'.outline.forget entityId).2 } : Session σ).persist.2 := by
  unfold delete
  split
  · exact .inl (.refl s)
  · exact .inl (.refl s)
  · exact .inl (.refl s)
  · rename_i n prompt _ _
    split
    · rename_i hconfirm
      exact .inl (asked_of_ask_eq hconfirm)
    · rename_i hconfirm
      have hasked := asked_of_ask_eq hconfirm
      split
      · rename_i hdelete
        exact .inl (hasked.trans (asked_of_ask_eq hdelete))
      · rename_i hdelete
        exact .inl (hasked.trans (asked_of_ask_eq hdelete))
      · rename_i hdelete
        refine .inr ⟨_, n.entityId, hasked.trans (asked_of_ask_eq hdelete), ?_⟩
        split <;> rename_i hpersist <;> rw [hpersist]

end Session

end ContentConsole
