import ContentConsole.Proofs.Outline.Edit
import ContentConsole.Proofs.Outline.Queue

set_option autoImplicit false
set_option relaxedAutoImplicit false

/-!
What outlives every action. Main statements: `Arena.continues_perform`, by which no handle is given
twice and a node that stays keeps its place and what it shows, and `Addressed.perform`, by which all
children that are asked for are those of what their node shows.
-/
namespace ContentConsole

/-- The node `n'` is the node `n` at another time: it has the same
place and shows the same entity. -/
structure Node.SameIdentity (n n' : Node) : Prop where
  handle : n.handle = n'.handle
  parent : n.parent = n'.parent
  key : n.key = n'.key
  type : n.type = n'.type
  typeName : n.typeName = n'.typeName

namespace Node.SameIdentity

variable {n n' n'' : Node}

theorem refl (n : Node) : n.SameIdentity n := ⟨rfl, rfl, rfl, rfl, rfl⟩

theorem trans (h : n.SameIdentity n') (h' : n'.SameIdentity n'') : n.SameIdentity n'' where
  handle := h.handle.trans h'.handle
  parent := h.parent.trans h'.parent
  key := h.key.trans h'.key
  type := h.type.trans h'.type
  typeName := h.typeName.trans h'.typeName

theorem resourceId (h : n.SameIdentity n') : n.resourceId = n'.resourceId :=
  congrArg OpenKey.resourceId h.key

end Node.SameIdentity

namespace Outline

variable {o o' o'' : Outline}

/-- The outline `o'` goes on from `o`: what has a handle of `o` was there, as the same node. -/
structure Continues (o o' : Outline) : Prop where
  nextHandle_le : o.nextHandle ≤ o'.nextHandle
  exists_old : ∀ n' ∈ o'.nodes, n'.handle < o.nextHandle → ∃ n ∈ o.nodes, n.SameIdentity n'

def Shows (o : Outline) (h : Handle) (id : String) (resourceId : Option String) : Prop :=
  ∀ n ∈ o.nodes, n.handle = h → n.entityId = id ∧ n.resourceId = resourceId

def Addressed (o : Outline) : Prop :=
  ∀ h id resourceId, .fetchChildren h id resourceId ∈ o.outbox → o.Shows h id resourceId

namespace Continues

theorem of_nodes_eq (hnodes : o'.nodes = o.nodes)
    (hnext : o'.nextHandle = o.nextHandle) : o.Continues o' where
  nextHandle_le := Nat.le_of_eq hnext.symm
  exists_old := by
    intro n hn _
    rw [hnodes] at hn
    exact ⟨n, hn, .refl n⟩

theorem refl (o : Outline) : o.Continues o := of_nodes_eq rfl rfl

theorem trans (c : o.Continues o') (c' : o'.Continues o'') : o.Continues o'' where
  nextHandle_le := Nat.le_trans c.nextHandle_le c'.nextHandle_le
  exists_old := by
    intro n'' hn'' hlt
    obtain ⟨n', hn', hsame'⟩ := c'.exists_old n'' hn'' (Nat.lt_of_lt_of_le hlt c.nextHandle_le)
    obtain ⟨n, hn, hsame⟩ := c.exists_old n' hn' (hsame'.handle ▸ hlt)
    exact ⟨n, hn, hsame.trans hsame'⟩

theorem shows {h : Handle} {id : String} {resourceId : Option String} (c : o.Continues o')
    (hh : h < o.nextHandle) (hshows : o.Shows h id resourceId) : o'.Shows h id resourceId := by
  rintro n' hn' rfl
  obtain ⟨n, hn, hsame⟩ := c.exists_old n' hn' hh
  obtain ⟨hid, hresource⟩ := hshows n hn hsame.handle
  exact ⟨(congrArg OpenKey.entityId hsame.key).symm.trans hid,
    hsame.resourceId.symm.trans hresource⟩

theorem isLive_of_isLive {h : Handle} (c : o.Continues o') (hh : h < o.nextHandle)
    (hlive : o'.isLive h = true) : o.isLive h = true := by
  obtain ⟨n', hn', rfl⟩ := isLive_iff.mp hlive
  obtain ⟨n, hn, hsame⟩ := c.exists_old n' hn' hh
  exact isLive_iff.mpr ⟨n, hn, hsame.handle⟩

theorem sameIdentity (c : o.Continues o') (ha : o.Arena) {n n' : Node} (hn : n ∈ o.nodes)
    (hn' : n' ∈ o'.nodes) (hhandle : n.handle = n'.handle) : n.SameIdentity n' := by
  obtain ⟨m, hm, hsame⟩ := c.exists_old n' hn' (hhandle ▸ ha.handle_lt n hn)
  rwa [ha.eq_of_handle hn hm (hhandle.trans hsame.handle.symm)]

end Continues

theorem continues_restrict (keep : Handle → Bool) : o.Continues (o.restrict keep) where
  nextHandle_le := Nat.le_refl _
  exists_old := by
    intro n' hn' _
    obtain ⟨n, hn, -, rfl⟩ := mem_restrict_nodes.mp hn'
    exact ⟨n, hn, ⟨rfl, rfl, rfl, rfl, rfl⟩⟩

theorem continues_update {f : Node → Node} (h : Handle) (hf : ∀ n : Node, n.SameIdentity (f n)) :
    o.Continues (o.update h f) where
  nextHandle_le := Nat.le_refl _
  exists_old := by
    intro n' hn' _
    obtain ⟨n, hn, rfl⟩ := mem_update_nodes.mp hn'
    refine ⟨n, hn, ?_⟩
    split
    · exact hf n
    · exact .refl n

theorem Restyles.sameIdentity {f : Node → Node} (hf : Restyles f) (n : Node) :
    n.SameIdentity (f n) := by
  rw [hf n]
  exact ⟨rfl, rfl, rfl, rfl, rfl⟩

namespace Arena

theorem cleared_eq_restrict (ha : o.Arena) (at' : Place) (e : Entity) :
    ∃ keep, o.cleared at' e = o.restrict keep := by
  rw [Outline.cleared]
  split
  · exact ⟨_, (ha.evict_eq_restrict [(freshNode at' e).key]).2⟩
  · exact ⟨fun _ => true, (ha.restrict_eq_self fun _ _ => rfl).symm⟩

theorem same_drawNode (ha : o.Arena) {at' : Place} {e : Entity} {uploads : Bool} {m : Node}
    (hm : m ∈ (o.drawNode at' e uploads).nodes) :
    (∃ n ∈ o.nodes, m = { n with children := m.children }) ∨
      m = { o.seated at' e with
        expansion := o.firstExpansion at' e
        upload := if uploads then .pending else .notRequired } := by
  obtain ⟨keep, hcleared⟩ := ha.cleared_eq_restrict at' e
  rcases ha.mem_drawNode hm with ⟨k, hk, rfl⟩ | hnew
  · rw [hcleared] at hk
    obtain ⟨n, hn, -, rfl⟩ := mem_restrict_nodes.mp hk
    refine .inl ⟨n, hn, ?_⟩
    rw [Node.adopt]
    split <;> rfl
  · exact .inr hnew

theorem exists_old_drawNode (ha : o.Arena) {at' : Place} {e : Entity} {uploads : Bool} {m : Node}
    (hm : m ∈ (o.drawNode at' e uploads).nodes) :
    (∃ n ∈ o.nodes, n.SameIdentity m) ∨
      m = { o.seated at' e with
        expansion := o.firstExpansion at' e
        upload := if uploads then .pending else .notRequired } := by
  refine (ha.same_drawNode hm).imp_left ?_
  rintro ⟨n, hn, hsame⟩
  rw [hsame]
  exact ⟨n, hn, ⟨rfl, rfl, rfl, rfl, rfl⟩⟩

theorem continues_drawNode (ha : o.Arena) (at' : Place) (e : Entity) (uploads : Bool) :
    o.Continues (o.drawNode at' e uploads) where
  nextHandle_le := by
    rw [ha.drawNode_nextHandle]
    exact Nat.le_succ _
  exists_old := by
    intro m hm hlt
    rcases ha.exists_old_drawNode hm with hold | rfl
    · exact hold
    · exact absurd hlt (Nat.lt_irrefl _)

theorem continues_drawPlan (ha : o.Arena) (at' : Place) (plan : Plan) :
    o.Continues (o.drawPlan at' plan) := by
  refine ha.drawPlan_induction (P := o.Continues) ?_ (.refl o) at' plan
  intro o' at' e uploads ha' c
  exact c.trans (ha'.continues_drawNode at' e uploads)

theorem continues_receiveEach (ha : o.Arena) (parent : Node) (children : List Entity) :
    o.Continues (o.receiveEach parent children).2 := by
  refine ha.receiveEach_induction (P := o.Continues) ?_ (.refl o) parent children
  intro o' at' e uploads ha' c
  exact c.trans (ha'.continues_drawNode at' e uploads)

end Arena

theorem Edited.continues (hedit : o.Edited o') (ha : o.Arena) :
    o.Continues o' ∧ o'.nextHandle = o.nextHandle := by
  cases hedit with
  | marked openKeys selected => exact ⟨.of_nodes_eq rfl rfl, rfl⟩
  | pruned keep openKeys hkeep =>
    exact ⟨(continues_restrict keep).trans (.of_nodes_eq rfl rfl), rfl⟩
  | opened n hn =>
    rw [ha.openNode_eq hn]
    have hopened : o.Continues (o.update n.handle (Node.inState .fetching)) :=
      continues_update n.handle fun _ => ⟨rfl, rfl, rfl, rfl, rfl⟩
    exact ⟨hopened.trans (.of_nodes_eq rfl rfl), rfl⟩
  | closed n keep openKeys hkeep =>
    have hclosed : (o.restrict keep).Continues
        ((o.restrict keep).update n.handle (Node.inState .collapsed)) :=
      continues_update n.handle fun _ => ⟨rfl, rfl, rfl, rfl, rfl⟩
    exact ⟨(continues_restrict keep).trans (hclosed.trans (.of_nodes_eq rfl rfl)), rfl⟩
  | committed h => exact ⟨continues_update h fun _ => ⟨rfl, rfl, rfl, rfl, rfl⟩, rfl⟩
  | renamed h _ hr =>
    rcases hr with rfl | ⟨f, effects, rfl, hf, -⟩
    · exact ⟨.refl _, rfl⟩
    · exact ⟨(continues_update h hf.sameIdentity).trans (.of_nodes_eq rfl rfl), rfl⟩

theorem Arena.continues_receive (ha : o.Arena) (h : Handle) (children : List Entity) :
    o.Continues (o.receive h children).2 := by
  rcases o.receive_snd h children with heq | ⟨n, -, -, heq⟩
  · rw [heq]
    exact .refl o
  · rw [heq]
    exact (ha.continues_receiveEach n children).trans
      (continues_update h fun _ => ⟨rfl, rfl, rfl, rfl, rfl⟩)

/-- No action gives a handle again, or changes the place of a node or what it shows. -/
theorem Arena.continues_perform (ha : o.Arena) (a : Action) : o.Continues (o.perform a) := by
  have hedit : a.IsEdit → o.Continues (o.perform a) :=
    fun h => ((ha.edited_perform h).continues ha).1
  cases a with
  | draw e parentId resourceId replaces isExpandable =>
    rw [Outline.perform, Outline.draw, drawAt_eq_drawPlan]
    exact ha.continues_drawPlan _ _
  | drawTree e resourceId =>
    rw [Outline.perform, Outline.drawTree, Outline.graft, graftAll_eq_drawPlan]
    exact ha.continues_drawPlan _ _
  | receive h children => exact ha.continues_receive h children
  | takeEffects => exact .of_nodes_eq rfl rfl
  | toggle | abandonFetch | settleUpload | remove | forget | click | editName
      | typeName | commitName
    | pressKey | retrack => exact hedit trivial

theorem Arena.continues_run (ha : o.Arena) (actions : List Action) :
    o.Continues (o.run actions) := by
  induction actions generalizing o with
  | nil => exact .refl o
  | cons a actions ih => exact (ha.continues_perform a).trans (ih (ha.perform a))

/-! Requests for children. -/

theorem addressed_start (openKeys : OpenKeys) : (start openKeys).Addressed :=
  fun _ _ _ hasked => absurd hasked List.not_mem_nil

namespace Addressed

theorem of_outbox (hs : o.Addressed) (ha : o.Arena) (c : o.Continues o')
    (houtbox : ∀ h id resourceId, .fetchChildren h id resourceId ∈ o'.outbox →
      .fetchChildren h id resourceId ∈ o.outbox ∨ o'.Shows h id resourceId) : o'.Addressed := by
  intro h id resourceId hasked
  rcases houtbox h id resourceId hasked with hold | hnew
  · exact c.shows (ha.isLive_lt (ha.outbox_live _ hold h rfl)) (hs h id resourceId hold)
  · exact hnew

theorem edited (hs : o.Addressed) (ha : o.Arena) (hedit : o.Edited o') : o'.Addressed := by
  refine hs.of_outbox ha (hedit.continues ha).1 fun h id resourceId hasked => ?_
  cases hedit with
  | marked | committed => exact .inl hasked
  | pruned | closed => exact .inl (List.mem_filter.mp hasked).1
  | opened n hn =>
    rw [ha.openNode_eq hn] at hasked ⊢
    rcases List.mem_append.mp hasked with hold | hnew
    · exact .inl hold
    · right
      cases List.mem_singleton.mp hnew
      intro m hm hhandle
      obtain ⟨k, hk, rfl⟩ := mem_update_nodes.mp hm
      split at hhandle
      · rename_i hkn
        rw [if_pos hkn, ha.eq_of_handle hk hn hkn]
        exact ⟨rfl, rfl⟩
      · rename_i hkn
        exact absurd hhandle hkn
  | renamed x _ hr =>
    rcases hr with rfl | ⟨f, effects, rfl, -, hnode⟩
    · exact .inl hasked
    · rcases List.mem_append.mp hasked with hold | hnew
      · exact .inl hold
      · cases hnode _ hnew

theorem drawNode (hs : o.Addressed) (ha : o.Arena) (at' : Place) (e : Entity) (uploads : Bool) :
    (o.drawNode at' e uploads).Addressed := by
  refine hs.of_outbox ha (ha.continues_drawNode at' e uploads) fun h id resourceId hasked => ?_
  obtain ⟨keep, hcleared⟩ := ha.cleared_eq_restrict at' e
  rw [ha.drawNode_outbox, hcleared] at hasked
  rcases List.mem_append.mp hasked with hold | hnew
  · exact .inl (List.mem_filter.mp hold).1
  · right
    rw [Plan.effectsFor] at hnew
    obtain ⟨-, rfl, rfl, rfl⟩ : at'.opens o.openKeys e = true ∧ h = o.nextHandle ∧ id = e.id ∧
        resourceId = effectiveResource at' e := by
      cases uploads <;> simpa using hnew
    intro m hm hhandle
    rcases ha.exists_old_drawNode hm with ⟨n, hn, hold⟩ | rfl
    · exact absurd (ha.handle_lt n hn) (by rw [hold.handle, hhandle]; exact Nat.lt_irrefl _)
    · exact ⟨rfl, rfl⟩

theorem drawPlan (hs : o.Addressed) (ha : o.Arena) (at' : Place) (plan : Plan) :
    (o.drawPlan at' plan).Addressed :=
  ha.drawPlan_induction (P := Addressed)
    (fun _ at' e uploads ha hs => hs.drawNode ha at' e uploads) hs at' plan

theorem receive (hs : o.Addressed) (ha : o.Arena) (h : Handle) (children : List Entity) :
    (o.receive h children).2.Addressed := by
  rcases o.receive_snd h children with heq | ⟨n, -, -, heq⟩
  · rwa [heq]
  · have hdrawn : (o.receiveEach n children).2.Addressed :=
      ha.receiveEach_induction (P := Addressed)
        (fun _ at' e uploads ha hs => hs.drawNode ha at' e uploads) hs
        n children
    rw [heq]
    exact hdrawn.of_outbox (drawing_receiveEach ha n children).arena
      (continues_update h fun _ => ⟨rfl, rfl, rfl, rfl, rfl⟩) fun _ _ _ => .inl

theorem perform (hs : o.Addressed) (ha : o.Arena) (a : Action) : (o.perform a).Addressed := by
  have hedit : a.IsEdit → (o.perform a).Addressed := fun h => hs.edited ha (ha.edited_perform h)
  cases a with
  | draw e parentId resourceId replaces isExpandable =>
    rw [Outline.perform, Outline.draw, drawAt_eq_drawPlan]
    exact hs.drawPlan ha _ _
  | drawTree e resourceId =>
    rw [Outline.perform, Outline.drawTree, Outline.graft, graftAll_eq_drawPlan]
    exact hs.drawPlan ha _ _
  | receive h children => exact hs.receive ha h children
  | takeEffects => exact fun _ _ _ hasked => absurd hasked List.not_mem_nil
  | toggle | abandonFetch | settleUpload | remove | forget | click | editName
      | typeName | commitName
    | pressKey | retrack => exact hedit trivial

end Addressed

end Outline

end ContentConsole
