import ContentConsole.Proofs.OpenKeys.RoundTrip
import ContentConsole.Proofs.Outline.Regrowth
import ContentConsole.Proofs.Session.Quiet

set_option autoImplicit false
set_option relaxedAutoImplicit false

/-!
Closing and opening a node again, in front of a server that never fails and answers
requests for children always in the same way. Main statement: `toggle_twice`, by which the
node shows afterwards what its bare node grows into alone, and thus what it showed before
if that had come about by opening it.
-/
namespace ContentConsole

/-- The server never fails, and answers a request for children always in the same way. -/
structure Server.AnswersBy {σ : Type} (server : Server σ)
    (kids : String → Option String → List Entity) : Prop where
  children : ∀ id resourceId state,
    (server.answer (.children id resourceId) state).1 = .ok (kids id resourceId)
  upload : ∀ e state, (server.answer (.upload e) state).1 = .ok ()

namespace Session

open Outline (receiveAll served)

variable {σ : Type} {s s' : Session σ} {kids : String → Option String → List Entity}

theorem Asked.withOutline (h : s.Asked s') (outline : Outline) :
    Asked { s with outline } { s' with outline } := by
  rw [Asked, h]

/-! Rounds in which every effect succeeds. -/

theorem askAll_answers {α β : Type} {ask : Session σ → α → β × Session σ} {f : α → β}
    (hask : ∀ (s : Session σ) x, s.Asked (ask s x).2)
    (hanswer : ∀ s', s.Asked s' → ∀ x, (ask s' x).1 = f x) (xs : List α) :
    (s.askAll ask xs).1 = xs.map f := by
  induction xs generalizing s with
  | nil => rfl
  | cons x xs ih =>
    have hrest := ih (s := (ask s x).2) fun s' hs' => hanswer s' ((hask s x).trans hs')
    have hfirst := hanswer s (.refl s) x
    change (ask s x).1 :: ((ask s x).2.askAll ask xs).1 = _
    rw [hrest, hfirst, List.map_cons]

theorem settleEach_ok (staged : List (Handle × Entity)) (s : Session σ) :
    (s.settleEach (staged.map fun w => (w, .ok ()))).2 =
      { s with outline := s.outline.settleAll staged } := by
  induction staged generalizing s with
  | nil => rfl
  | cons w staged ih => exact ih _

/-- Uploads are accepted, unasked or by the server. -/
def UploadsSucceed (s : Session σ) : Prop :=
  s.acceptsUploads = true ∨ ∀ e state, (s.server.answer (.upload e) state).1 = .ok ()

theorem Asked.uploadsSucceed (h : s.Asked s')
    (huploads : s.UploadsSucceed) : s'.UploadsSucceed := by
  rw [h]
  exact huploads

theorem applyUploads_ok (huploads : s.UploadsSucceed) (effects : List Effect) :
    Asked { s with outline := s.outline.settleAll (effects.filterMap Effect.upload?) }
      (s.applyUploads effects).2 := by
  have hanswer : ∀ s', s.Asked s' → ∀ w, (s'.upload w).1 = .ok () := by
    intro s' hs' w
    rw [upload]
    split
    · rfl
    · rename_i hasks
      rcases hs'.uploadsSucceed huploads with haccepts | hserver
      · exact absurd haccepts hasks
      · exact hserver w.2 s'.state
  obtain ⟨hasked, -⟩ := asked_askAll asked_upload (effects.filterMap Effect.upload?) (s := s)
  have hsettled := settleEach_ok (effects.filterMap Effect.upload?)
    (s.askAll upload (effects.filterMap Effect.upload?)).2
  rw [List.map_prod_left_eq_zip, ← askAll_answers asked_upload hanswer, hasked.outline] at hsettled
  change Asked _ (Session.settleEach _ _).2
  rw [hsettled]
  exact hasked.withOutline _

theorem takeEach_ok (kids : String → Option String → List Entity)
    (wanted : List (Handle × String × Option String)) (s : Session σ) :
    (s.takeEach (wanted.map fun w => (w.1, .ok (kids w.2.1 w.2.2)))).2 =
      { s with outline := receiveAll kids s.outline wanted } := by
  induction wanted generalizing s with
  | nil => rfl
  | cons w wanted ih =>
    change (Session.takeEach (s.takeChildren w.1 (.ok (kids w.2.1 w.2.2))).2 _).2 = _
    rw [takeChildren_ok]
    exact ih _

theorem applyFetches_ok (hserver : s.server.AnswersBy kids) (effects : List Effect) :
    Asked { s with outline := receiveAll kids s.outline (effects.filterMap Effect.fetch?) }
      (s.applyFetches effects).2 := by
  have hanswer : ∀ s', s.Asked s' → ∀ w, (s'.fetch w).1 = .ok (kids w.2.1 w.2.2) := fun s' hs' w =>
    (hs'.server ▸ hserver).children w.2.1 w.2.2 s'.state
  obtain ⟨hasked, -⟩ := asked_askAll asked_fetch (effects.filterMap Effect.fetch?) (s := s)
  have htaken := takeEach_ok kids (effects.filterMap Effect.fetch?)
    (s.askAll fetch (effects.filterMap Effect.fetch?)).2
  rw [← List.zip_map', ← askAll_answers asked_fetch hanswer, hasked.outline] at htaken
  change Asked _ (Session.takeEach _ _).2
  rw [htaken]
  exact hasked.withOutline _

theorem apply_ok (hserver : s.server.AnswersBy kids) (effects : List Effect) :
    Asked
      { s with
        outline := receiveAll kids (s.outline.settleAll (effects.filterMap Effect.upload?))
          (effects.filterMap Effect.fetch?) }
      (s.apply effects).2 := by
  have hset := asked_applyProperties effects (s := s)
  have hupload := applyUploads_ok (.inr (hset.server ▸ hserver).upload) effects
  have hfetch := applyFetches_ok (hupload.server ▸ hset.server ▸ hserver) effects
  rw [hset.outline] at hupload
  rw [hupload.outline] at hfetch
  exact (hset.withOutline _).trans ((hupload.withOutline _).trans hfetch)

theorem drain_ok (hserver : s.server.AnswersBy kids) (rounds : Nat) :
    Asked { s with outline := (served kids)^[rounds] s.outline } (s.drain rounds).2 := by
  induction rounds generalizing s with
  | zero => exact .refl s
  | succ rounds ih =>
    rw [drain]
    split
    · rename_i outline htake
      obtain ⟨hempty, htaken⟩ := Prod.mk.inj htake
      have hsame : ({ s.outline with outbox := [] } : Outline) = s.outline := by rw [← hempty]
      rw [← htaken, hsame, Function.iterate_fixed (Outline.served_of_outbox_eq_nil hempty)]
      exact .refl s
    · rename_i effects outline _ htake
      obtain ⟨rfl, rfl⟩ := Prod.mk.inj htake
      have hround :=
        apply_ok (s := { s with outline := s.outline.takeEffects.2 }) hserver s.outline.outbox
      have hrest :=
        ih (s := (apply { s with outline := s.outline.takeEffects.2 } s.outline.outbox).2) (by
        rw [hround.server]
        exact hserver)
      rw [hround.outline] at hrest
      exact (hround.withOutline _).trans hrest

theorem persist_server (s : Session σ) : s.persist.2.server = s.server := by
  unfold persist
  split
  · rfl
  · split <;> rfl

theorem runEffects_ok (hserver : s.server.AnswersBy kids) :
    s.runEffects.2.outline = (served kids)^[maxRounds] s.outline ∧
    s.runEffects.2.server = s.server := by
  have hdrain : ∀ rounds, (s.drain rounds).2.outline = (served kids)^[rounds] s.outline ∧
      (s.drain rounds).2.server = s.server := fun rounds =>
    ⟨(drain_ok hserver rounds).outline, (drain_ok hserver rounds).server⟩
  rw [runEffects]
  dsimp only
  split
  · exact hdrain maxRounds
  · rw [persisted_snd, persist_outline, persist_server]
    exact hdrain maxRounds

theorem toggle_ok (hserver : s.server.AnswersBy kids) {h : Handle} {state : Expansion}
    {outline : Outline} (htoggle : s.outline.toggle h = .ok (state, outline)) :
    (s.toggle h).2.outline = (served kids)^[maxRounds] outline ∧
    (s.toggle h).2.server = s.server := by
  have hsnd : (s.toggle h).2 = ({ s with outline } : Session σ).runEffects.2.persist.2 := by
    rw [Session.toggle, htoggle, ← persisted_snd]
    dsimp only
    split <;> rfl
  rw [hsnd, persist_outline, persist_server]
  exact runEffects_ok (s := { s with outline }) hserver

/-- What a session can come to from an empty outline, if its outbox is never emptied by hand. -/
def Reached (s : Session σ) : Prop :=
  ∃ (s₀ : Session σ) (openKeys : OpenKeys) (actions : List UserAction),
    .view .takeEffects ∉ actions ∧
    s = ({ s₀ with outline := .start openKeys } : Session σ).run actions

theorem Reached.arena (hs : s.Reached) : s.outline.Arena := by
  obtain ⟨s₀, openKeys, actions, htake, rfl⟩ := hs
  exact ((tended_start s₀ openKeys).run htake).arena

/-! Closing and opening. -/

theorem exists_rests_toggle (ha : s.outline.Arena) (hserver : s.server.AnswersBy kids) {n : Node}
    (hs : s.outline.Stands kids n) :
    ∃ n', (s.toggle n.handle).2.outline.Rests kids n' ∧ n'.handle = n.handle ∧ n'.bare = n.bare ∧
      (s.toggle n.handle).2.outline.openKeys = s.outline.openKeys.erase n.key ∧
        (s.toggle n.handle).2.outline.Arena ∧ (s.toggle n.handle).2.server = s.server := by
  have htoggle := ha.toggle_eq hs.mem
  rw [hs.expanded] at htoggle
  obtain ⟨n', hrests, hhandle, hbare⟩ := hs.exists_rests ha
  obtain ⟨houtline, hsame⟩ := toggle_ok hserver htoggle
  rw [Function.iterate_fixed (Outline.served_of_outbox_eq_nil hrests.outbox)] at houtline
  rw [houtline]
  exact ⟨n', hrests, hhandle, hbare, rfl, ha.toggle htoggle, hsame⟩

theorem hasBranch_toggle (ha : s.outline.Arena) (hserver : s.server.AnswersBy kids) {n : Node}
    (hr : s.outline.Rests kids n) :
    (s.toggle n.handle).2.outline.HasBranch (Outline.regrown kids n s.outline.openKeys maxRounds) n
      s.outline.nextHandle (Grows kids n.key) := by
  have htoggle := ha.toggle_eq hr.mem
  rw [hr.closed] at htoggle
  rw [(toggle_ok hserver htoggle).1]
  exact hr.hasBranch_regrown ha maxRounds

/--
A node that is closed and opened again shows what its bare node grows into alone, with the same
open keys and the same answers, whatever stood below it before. If it was opened from rest,
that is what it showed before.
-/
theorem toggle_twice (hreached : s.Reached) (hserver : s.server.AnswersBy kids) {n : Node}
    (hs : s.outline.Stands kids n) :
    let s' := ((s.toggle n.handle).2.toggle n.handle).2
    s'.outline.isLive n.handle = true ∧
      s'.outline.shown n.handle = (Outline.regrown kids n s.outline.openKeys maxRounds).shown 0 ∧
        ∀ (s₀ : Session σ) (n₀ : Node), s₀.Reached → s₀.server.AnswersBy kids →
          s₀.outline.Rests kids n₀ →
          n₀.handle = n.handle → s = (s₀.toggle n.handle).2 →
            s'.outline.shown n.handle = s.outline.shown n.handle := by
  intro s'
  obtain ⟨n', hrests, hhandle, hbare, hkeys, ha', hsame⟩ :=
    exists_rests_toggle hreached.arena hserver hs
  have hgrown := hasBranch_toggle ha' (by rwa [hsame]) hrests
  have hkey : n'.key = n.key := Node.key_eq_of_bare hbare
  have hkeys' : (s.toggle n.handle).2.outline.openKeys.insert n'.key =
      s.outline.openKeys.insert n.key := by
    rw [hkeys, hkey, OpenKeys.insert_erase]
  rw [hhandle, Outline.regrown_congr hbare hkeys'] at hgrown
  have hshown := hgrown.shown
  have hlive := hgrown.isLive_top
  rw [hhandle] at hshown hlive
  refine ⟨hlive, hshown.symm, ?_⟩
  rintro s₀ n₀ hreached₀ hserver₀ hrests₀ hhandle₀ rfl
  have hgrown₀ := hasBranch_toggle hreached₀.arena hserver₀ hrests₀
  rw [hhandle₀] at hgrown₀
  obtain ⟨m, hm, hmh, hmbare⟩ := hgrown₀.exists_top
  obtain rfl := hreached.arena.eq_of_handle hm hs.mem (hmh.trans hhandle₀)
  have hagain : Outline.regrown kids m (s₀.toggle m.handle).2.outline.openKeys maxRounds =
      Outline.regrown kids n₀ s₀.outline.openKeys maxRounds := by
    refine Outline.regrown_congr hmbare ?_ maxRounds
    rw [← hgrown₀.openKeys, Outline.regrown_openKeys, Node.key_eq_of_bare hmbare]
    exact OpenKeys.insert_of_mem (OpenKeys.mem_insert.mpr (.inl rfl))
  rw [← hshown, hagain, hgrown₀.shown, hhandle₀]

def shelf (id : String) (_ : Option String) : List Entity :=
  if id = "a" then [⟨"c", "", none, .content, []⟩] else []

def giving (kids : String → Option String → List Entity) : Server Unit where
  answer call state := (match call with
    | .children id resourceId => .ok (kids id resourceId)
    | .set .. | .upload _ => .ok ()
    | .delete _ => .ok true
    | .get .. => .ok .null
    | .records .. => .ok []
    | .confirm _ => true, state)

theorem answersBy_giving (kids : String → Option String → List Entity) :
    (giving kids).AnswersBy kids :=
  ⟨fun _ _ _ => rfl, fun _ _ => rfl⟩

def givenBy (kids : String → Option String → List Entity)
    (actions : List UserAction) : Session Unit :=
  ({ server := giving kids, state := (), outline := .start .empty } : Session Unit).run actions

theorem reached_givenBy (kids : String → Option String → List Entity) {actions : List UserAction}
    (htake : .view .takeEffects ∉ actions) : (givenBy kids actions).Reached :=
  ⟨{ server := giving kids, state := () }, .empty, actions, htake, rfl⟩

def drawElement : UserAction := .draw ⟨"a", "", none, .emptyElement, []⟩ none none true true

theorem grows_shelf {key : OpenKey} (hgrows : Grows shelf ⟨"a", none, none⟩ key) :
    key = ⟨"c", some "a", none⟩ := by
  induction hgrows with
  | first hkey => exact List.mem_singleton.mp hkey
  | later _ hkey ih =>
    rw [ih] at hkey
    exact absurd hkey List.not_mem_nil

theorem toggle_twice_shelf :
    let s := givenBy shelf [drawElement, .toggle 0]
    s.outline.shown 0 = [(0, "a", "Element", .expanded), (1, "c", "Content", .leaf)] ∧
      ((s.toggle 0).2.toggle 0).2.outline.shown 0 = s.outline.shown 0 := by
  intro s
  let s₀ := givenBy shelf [drawElement]
  have hs : s.Reached := reached_givenBy shelf (by simp [drawElement])
  have hs₀ : s₀.Reached := reached_givenBy shelf (by simp [drawElement])
  have hnode : (s.outline.node? 0).map (fun n => (n.key, n.expansion)) =
      some (⟨"a", none, none⟩, .expanded) := by decide +kernel
  have hnode₀ : (s₀.outline.node? 0).map (fun n => (n.key, n.expansion, n.children)) =
      some (⟨"a", none, none⟩, .collapsed, []) := by decide +kernel
  obtain ⟨n, hn, hparts⟩ := Option.map_eq_some_iff.mp hnode
  obtain ⟨n₀, hn₀, hparts₀⟩ := Option.map_eq_some_iff.mp hnode₀
  simp only [Prod.mk.injEq] at hparts hparts₀
  obtain ⟨hmem, hhandle⟩ := Outline.mem_of_node? hn
  obtain ⟨hmem₀, hhandle₀⟩ := Outline.mem_of_node? hn₀
  have hcontent : ∀ m ∈ s.outline.nodes, m.key = ⟨"c", some "a", none⟩ → m.handle = 1 := by
    decide +kernel
  have hchild : s.outline.IsChild 0 1 := by
    change ∃ m ∈ s.outline.nodes, m.handle = 1 ∧ m.parent = some 0
    decide +kernel
  have hstands : s.outline.Stands shelf n := by
    refine ⟨hmem, hparts.2, List.isEmpty_iff.mp (by decide +kernel), fun m hm hgrows => ?_⟩
    rw [hparts.1] at hgrows
    rw [hhandle, hcontent m hm (grows_shelf hgrows)]
    exact ⟨Nat.one_ne_zero, .single hchild⟩
  have hrests : s₀.outline.Rests shelf n₀ := by
    refine ⟨hmem₀, hparts₀.2.1, hparts₀.2.2, List.isEmpty_iff.mp (by decide +kernel),
      fun m hm hgrows => ?_⟩
    have hnone : ∀ m ∈ s₀.outline.nodes, m.key ≠ ⟨"c", some "a", none⟩ := by decide +kernel
    rw [hparts₀.1] at hgrows
    exact hnone m hm (grows_shelf hgrows)
  obtain ⟨-, -, hrestored⟩ := toggle_twice hs (answersBy_giving shelf) hstands
  rw [hhandle] at hrestored
  exact ⟨by decide +kernel, hrestored s₀ n₀ hs₀ (answersBy_giving shelf) hrests hhandle₀ rfl⟩

def childless (_ : String) (_ : Option String) : List Entity := []

def drawFolder : UserAction :=
  .draw ⟨"f", "", none, .folder [] [] [⟨"x", "", none, .file, []⟩], []⟩ none none true true

/-- A folder that was drawn with a file, and then opened, is closed and opened again without it. -/
theorem toggle_twice_loses :
    let s := givenBy childless [drawFolder, .toggle 0]
    s.Reached ∧ s.server.AnswersBy childless ∧ s.outline.outbox = [] ∧
      s.outline.shown 0 = [(0, "f", "Folder", .expanded), (1, "x", "File", .collapsed)] ∧
        ((s.toggle 0).2.toggle 0).2.outline.shown 0 = [(0, "f", "Folder", .expanded)] := by
  intro s
  exact ⟨reached_givenBy _ (by simp [drawFolder]), answersBy_giving _,
    List.isEmpty_iff.mp (by decide +kernel), by decide +kernel, by decide +kernel⟩

end Session

end ContentConsole
