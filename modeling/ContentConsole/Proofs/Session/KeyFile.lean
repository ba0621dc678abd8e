import ContentConsole.Proofs.Files.Saving
import ContentConsole.Proofs.OpenKeys.RoundTrip
import ContentConsole.Proofs.Session.Quiet

set_option autoImplicit false
set_option relaxedAutoImplicit false

/-!
The file of open keys follows the outline. Keys change where nodes open and close, where fetches
fail and where entities are deleted; each of these saves before the action ends, and nothing else
changes a key. Main statement: `load_keyFile_run`, by which the file gives the keys of the outline
after any actions of the user.
-/
namespace ContentConsole.Session

variable {σ : Type} {s s' s'' : Session σ} {path : String}

/-- The session `s'` comes of `s` without a save. -/
structure Unsaved (s s' : Session σ) : Prop where
  files : s'.files = s.files
  keyFile : s'.keyFile = s.keyFile

namespace Unsaved

theorem refl (s : Session σ) : s.Unsaved s := ⟨rfl, rfl⟩

theorem trans (h : s.Unsaved s') (h' : s'.Unsaved s'') : s.Unsaved s'' :=
  ⟨h'.files.trans h.files, h'.keyFile.trans h.keyFile⟩

end Unsaved

theorem Asked.unsaved (h : s.Asked s') : s.Unsaved s' := ⟨h.files, h.keyFile⟩

theorem unsaved_settleEach (settled : List ((Handle × Entity) × Except Fault Unit)) :
    s.Unsaved (s.settleEach settled).2 := by
  induction settled generalizing s with
  | nil => exact .refl s
  | cons first rest ih =>
    obtain ⟨⟨h, e⟩, outcome⟩ := first
    let outline := (s.outline.settleUpload h (outcome.mapError (Fault.ofUpload e.id))).2
    obtain ⟨hfiles, hkeyFile⟩ := ih (s := { s with outline })
    exact ⟨hfiles, hkeyFile⟩

theorem settleEach_openKeys (settled : List ((Handle × Entity) × Except Fault Unit)) :
    (s.settleEach settled).2.outline.openKeys = s.outline.openKeys := by
  induction settled generalizing s with
  | nil => rfl
  | cons first rest ih =>
    obtain ⟨⟨h, e⟩, outcome⟩ := first
    refine ih.trans ?_
    cases outcome with
    | error _ => exact s.outline.prune_openKeys h
    | ok _ =>
      change (s.outline.settleUpload h (.ok ())).2.openKeys = s.outline.openKeys
      rw [Outline.settleUpload]
      split <;> rfl

theorem unsaved_settleUploads (staged : List (Handle × Entity)) :
    s.Unsaved (s.settleUploads staged).2 :=
  (asked_askAll asked_upload staged).1.unsaved.trans (unsaved_settleEach _)

theorem unsaved_takeChildren (h : Handle) (answer : Except Fault (List Entity)) :
    s.Unsaved (s.takeChildren h answer).2 := by
  unfold takeChildren
  split
  · exact .refl s
  · split
    · split <;> exact ⟨rfl, rfl⟩
    · split <;> exact ⟨rfl, rfl⟩

theorem unsaved_takeEach (answers : List (Handle × Except Fault (List Entity))) :
    s.Unsaved (s.takeEach answers).2 := by
  induction answers generalizing s with
  | nil => exact .refl s
  | cons first rest ih => exact (unsaved_takeChildren first.1 first.2).trans ih

theorem unsaved_apply (effects : List Effect) : s.Unsaved (s.apply effects).2 := by
  have hset : s.Unsaved (s.applyProperties effects).2 := (asked_applyProperties effects).unsaved
  have huploaded (s : Session σ) : s.Unsaved (s.applyUploads effects).2 := unsaved_settleUploads _
  have hfetched (s : Session σ) : s.Unsaved (s.applyFetches effects).2 :=
    (asked_askAll asked_fetch _).1.unsaved.trans (unsaved_takeEach _)
  exact hset.trans ((huploaded _).trans (hfetched _))

theorem unsaved_drain (rounds : Nat) : s.Unsaved (s.drain rounds).2 := by
  induction rounds generalizing s with
  | zero => exact .refl s
  | succ rounds ih =>
    rw [drain]
    split
    · exact ⟨rfl, rfl⟩
    · rename_i effects outline _ _
      obtain ⟨hfiles, hkeyFile⟩ := unsaved_apply effects (s := { s with outline })
      exact Unsaved.trans ⟨hfiles, hkeyFile⟩ ih

/-- The open keys are kept in a file, no write to which fails. -/
structure Keeps (s : Session σ) (path : String) : Prop where
  keyFile : s.keyFile = some path
  canSave : s.files.CanSave path

/-- The file in which the open keys are kept holds those of the outline. -/
structure Follows (s : Session σ) (path : String) : Prop extends Keeps s path where
  load : OpenKeys.load s.files path = .ok s.outline.openKeys

theorem Keeps.of_unsaved (hk : s.Keeps path) (h : s.Unsaved s') : s'.Keeps path := by
  refine ⟨h.keyFile.trans hk.keyFile, ?_⟩
  rw [h.files]
  exact hk.canSave

theorem Keeps.persist (hk : s.Keeps path) : s.persist.2.Follows path := by
  obtain ⟨files, hsaveText⟩ := hk.canSave s.outline.openKeys.toText
  have hsave : s.outline.openKeys.save s.files path = .ok files := by
    rw [OpenKeys.save, hsaveText]
    rfl
  have heq : s.persist.2 = { s with files } := by
    rw [Session.persist, hk.keyFile]
    dsimp only
    rw [hsave]
  rw [heq]
  exact ⟨⟨hk.keyFile, Files.canSave_of_saveText hsaveText⟩, OpenKeys.load_of_save hsave⟩

theorem Keeps.runEffects (hk : s.Keeps path) : s.runEffects.2.Keeps path := by
  have hdrained : (s.drain maxRounds).2.Keeps path := hk.of_unsaved (unsaved_drain maxRounds)
  rw [Session.runEffects]
  dsimp only
  split
  · exact hdrained
  · rw [persisted_snd]
    exact hdrained.persist.toKeeps

namespace Follows

theorem of_unsaved (hf : s.Follows path) (h : s.Unsaved s')
    (hkeys : s'.outline.openKeys = s.outline.openKeys) : s'.Follows path := by
  refine ⟨hf.toKeeps.of_unsaved h, ?_⟩
  rw [h.files, hkeys]
  exact hf.load

theorem asked (hf : s.Follows path) (h : s.Asked s') : s'.Follows path :=
  hf.of_unsaved h.unsaved (by rw [h.outline])

theorem runEffects (hf : s.Follows path) : s.runEffects.2.Follows path := by
  have hunsaved : s.Unsaved (s.drain maxRounds).2 := unsaved_drain maxRounds
  rw [Session.runEffects]
  dsimp only
  split
  · rename_i hkeys
    exact hf.of_unsaved hunsaved hkeys
  · rw [persisted_snd]
    exact (hf.toKeeps.of_unsaved hunsaved).persist

theorem replaced (hf : s.Follows path) {outline : Outline}
    (hkeys : outline.openKeys = s.outline.openKeys) :
    ({ s with outline } : Session σ).Follows path := hf.of_unsaved ⟨rfl, rfl⟩ hkeys

theorem draw (hf : s.Follows path) (ha : s.outline.Arena) (e : Entity)
    (parentId resourceId : Option String) (replaces isExpandable : Bool) :
    (s.draw e parentId resourceId replaces isExpandable).2.2.Follows path := by
  rw [draw_snd]
  exact (hf.replaced (ha.draw_openKeys e parentId resourceId replaces isExpandable)).runEffects

theorem drawTree (hf : s.Follows path) (ha : s.outline.Arena) (root : Entity) :
    (s.drawTree root).2.2.Follows path := by
  obtain ⟨isExpandable, resourceId, heq⟩ := drawTree_snd s root
  have hroot := ha.draw_openKeys root none none false isExpandable
  have htree :=
    (ha.perform (.draw root none none false isExpandable)).drawTree_openKeys root resourceId
  rw [heq]
  exact (hf.replaced (htree.trans hroot)).runEffects

theorem toggle (hf : s.Follows path) (h : Handle) : (s.toggle h).2.Follows path := by
  rcases toggle_snd s h with heq | ⟨_, outline, -, heq⟩
  · rw [heq]
    exact hf
  · have htoggled : ({ s with outline } : Session σ).Keeps path := ⟨hf.keyFile, hf.canSave⟩
    rw [heq]
    exact htoggled.runEffects.persist

theorem settleUploads (hf : s.Follows path) (staged : List (Handle × Entity)) :
    (s.settleUploads staged).2.Follows path := by
  have hasked : s.Asked (s.askAll upload staged).2 := (asked_askAll asked_upload staged).1
  refine hf.of_unsaved (unsaved_settleUploads staged) ?_
  rw [← hasked.outline]
  exact settleEach_openKeys _

theorem rename (hf : s.Follows path) (h : Handle) (name : String) :
    (s.rename h name).2.Follows path := by
  obtain ⟨outline, hretitled, heq | heq⟩ := rename_snd s h name
  · rw [heq]
    exact hf.replaced hretitled.openKeys
  · rw [heq]
    exact (hf.replaced hretitled.openKeys).runEffects

theorem leaveName (hf : s.Follows path) (h : Handle) : (s.leaveName h).2.Follows path := by
  rcases leaveName_snd s h with heq | ⟨outline, hretitled, heq⟩
  · rw [heq]
    exact hf
  · rw [heq]
    exact (hf.replaced hretitled.openKeys).runEffects

theorem delete (hf : s.Follows path) (h : Handle) : (s.delete h).2.Follows path := by
  rcases delete_snd s h with hasked | ⟨s', entityId, hasked, heq⟩
  · exact hf.asked hasked
  · have hforgot :
        ({ s' with outline := (s'.outline.forget entityId).2 } : Session σ).Keeps path := by
      obtain ⟨hkeyFile, hcanSave⟩ := (hf.asked hasked).toKeeps
      exact ⟨hkeyFile, hcanSave⟩
    rw [heq]
    exact hforgot.persist

theorem inspected (hf : s.Follows path)
    (h : ∃ inspector, Asked { s with inspector } s') : s'.Follows path := by
  obtain ⟨inspector, hasked⟩ := h
  exact asked (s := { s with inspector }) ⟨⟨hf.keyFile, hf.canSave⟩, hf.load⟩ hasked

theorem perform (hf : s.Follows path) (ha : s.outline.Arena) {a : UserAction}
    (hview : ∀ b, a ≠ .view b) : (s.perform a).Follows path := by
  cases a with
  | draw e parentId resourceId replaces isExpandable =>
    exact hf.draw ha e parentId resourceId replaces isExpandable
  | drawTree root => exact hf.drawTree ha root
  | toggle h => exact hf.toggle h
  | runEffects => exact hf.runEffects
  | settleUploads staged => exact hf.settleUploads staged
  | rename h name => exact hf.rename h name
  | leaveName h => exact hf.leaveName h
  | delete h => exact hf.delete h
  | inspect e => exact hf.inspected (asked_inspect s e)
  | closeInspector | editInspector => exact hf.inspected ⟨_, .refl _⟩
  | blurField place => exact hf.inspected (asked_blurField s place)
  | flipField place => exact hf.inspected (asked_flipField s place)
  | accessPanel id =>
    exact hf.asked
      (asked_askAll (fun s key => asked_ask s (.get id key)) AccessPanel.propertyKeys).1
  | clickAccess panel key => exact hf.asked (asked_clickAccess s panel key)
  | setProperty id key value => exact hf.asked (asked_ask s (.set id key value))
  | persist => exact hf.toKeeps.persist
  | view b => exact absurd rfl (hview b)

theorem run (hf : s.Follows path) (ht : s.Tended [] []) {actions : List UserAction}
    (hview : ∀ b, .view b ∉ actions) : (s.run actions).Follows path := by
  induction actions generalizing s with
  | nil => exact hf
  | cons a actions ih =>
    have hfirst : ∀ b, a ≠ .view b := fun b heq => hview b (heq ▸ List.mem_cons_self ..)
    have hrest : ∀ b, .view b ∉ actions := fun b hmem => hview b (List.mem_cons_of_mem a hmem)
    exact ih (hf.perform ht.arena hfirst) (ht.perform (hfirst .takeEffects)) hrest

end Follows

/--
A session that starts from the keys in a file keeps them there: after any actions of the user,
whatever the server answers and also where an action fails, loading the file gives the keys of the
outline, as long as no write fails and the outline is not acted on by hand.
-/
theorem load_keyFile_run {s s₀ : Session σ} {path : String} (hopen : s.withKeyFile path = .ok s₀)
    (hsave : s.files.CanSave path) (actions : List UserAction) (hview : ∀ b, .view b ∉ actions) :
    OpenKeys.load (s₀.run actions).files path = .ok (s₀.run actions).outline.openKeys := by
  rw [withKeyFile] at hopen
  cases hload : OpenKeys.load s.files path with
  | error e =>
    rw [hload] at hopen
    cases hopen
  | ok openKeys =>
    rw [hload] at hopen
    cases hopen
    have hfollows :
        ({ s with outline := .start openKeys, keyFile := some path } : Session σ).Follows path :=
      ⟨⟨rfl, hsave⟩, hload⟩
    have ht := tended_start { s with keyFile := some path } openKeys
    exact (hfollows.run ht hview).load

def trackedActions : List UserAction :=
  [.draw ⟨"a", "", none, .emptyElement, []⟩ none none true true,
    .draw ⟨"b", "", none, .emptyElement, []⟩ none none true true, .toggle 0, .toggle 1, .delete 1]

theorem load_keyFile_trackedActions :
    let s₀ : Session Unit :=
      { reluctantSession with outline := .start .empty, keyFile := some "x/keys.json" }
    reluctantSession.withKeyFile "x/keys.json" = .ok s₀ ∧
      (s₀.run trackedActions).outline.openKeys.keys = [⟨"a", none, none⟩] ∧
      OpenKeys.load (s₀.run trackedActions).files "x/keys.json" =
        .ok (s₀.run trackedActions).outline.openKeys := by
  intro s₀
  have hopen : reluctantSession.withKeyFile "x/keys.json" = .ok s₀ := by rfl
  have hsave : reluctantSession.files.CanSave "x/keys.json" := fun content => ⟨_, by rfl⟩
  have hview : ∀ b, .view b ∉ trackedActions := by simp [trackedActions]
  exact ⟨hopen, by decide +kernel, load_keyFile_run hopen hsave trackedActions hview⟩

end ContentConsole.Session
