import ContentConsole.Proofs.Outline.Continues
import ContentConsole.Proofs.Outline.Layout

set_option autoImplicit false
set_option relaxedAutoImplicit false

/-!
Subtrees and the resources they are shown under. A node has the resource that is handed down to it,
and else the one it brings along; where none is handed down, what stands below it may bring another.
Main statements: `OneResource.perform`, by which a subtree stays under one resource as long as what
is drawn belongs there, and `oneResource_drawPlan_iff`, by which a plan that replaces nothing must.
-/
namespace ContentConsole

namespace Plan

/--
Drawn with the resource `given` handed down, below a node in the resource `above`, each node of the
plan is in the resource of the node above it, if that is in one.
-/
def Belongs (given above : Option String) : Plan → Prop
  | .done => True
  | .node e _ below rest =>
    let own := given.orElse fun _ => e.ownResource
    (above ≠ none → own = above) ∧ below.Belongs given own ∧ rest.Belongs given above

instance decidableBelongs (given : Option String) :
    ∀ (above : Option String) (plan : Plan), Decidable (plan.Belongs given above)
  | _, .done => inferInstanceAs (Decidable True)
  | above, .node e _ below rest =>
    have := decidableBelongs given (given.orElse fun _ => e.ownResource) below
    have := decidableBelongs given above rest
    inferInstanceAs
      (Decidable ((above ≠ none → (given.orElse fun _ => e.ownResource) = above) ∧ _ ∧ _))

theorem belongs_some {r : String} {above : Option String} (habove : above ≠ none → some r = above)
    (plan : Plan) : plan.Belongs (some r) above := by
  induction plan generalizing above with
  | done => trivial
  | node e uploads below rest ihBelow ihRest => exact ⟨habove, ihBelow fun _ => rfl, ihRest habove⟩

end Plan

def Entity.Belongs (given : Option String) (e : Entity) : Prop :=
  (Plan.ofEntity e).Belongs given given ∧
    (Plan.ofTrees e.children).Belongs given (given.orElse fun _ => e.ownResource)

instance (given : Option String) (e : Entity) : Decidable (e.Belongs given) :=
  inferInstanceAs (Decidable (_ ∧ _))

theorem Entity.belongs_some (r : String) (e : Entity) : e.Belongs (some r) :=
  ⟨Plan.belongs_some (fun _ => rfl) _, Plan.belongs_some (fun _ => rfl) _⟩

namespace Outline

/-- What stands below a node in a resource is in the same resource. -/
def OneResource (o : Outline) : Prop :=
  ∀ m ∈ o.nodes, ∀ n ∈ o.nodes, n.parent = some m.handle → m.resourceId ≠ none →
    n.resourceId = m.resourceId

def resourceAt (o : Outline) (p : Option Handle) : Option String :=
  (p.bind o.node?).bind Node.resourceId

end Outline

/-- What the action draws belongs where it is drawn. -/
def Action.Belongs (o : Outline) : Action → Prop
  | .draw e parentId resourceId _ _ =>
    (Plan.ofEntity e).Belongs resourceId
      (o.resourceAt (parentId.bind fun id => o.parentFor id resourceId))
  | .drawTree e resourceId =>
    (Plan.ofTrees e.children).Belongs resourceId (o.resourceAt (o.parentFor e.id resourceId))
  | .receive h children => ∀ n, o.node? h = some n → ∀ e ∈ children, e.Belongs n.resourceId
  | _ => True

namespace Outline

variable {o o' : Outline}

/-- The handle is given already, and the node with it, if it stands, is in the resource. -/
structure IsIn (o : Outline) (h : Handle) (resourceId : Option String) : Prop where
  lt_nextHandle : h < o.nextHandle
  resourceId_eq : ∀ n ∈ o.nodes, n.handle = h → n.resourceId = resourceId

theorem IsIn.continues {h : Handle} {resourceId : Option String} (hin : o.IsIn h resourceId)
    (c : o.Continues o') : o'.IsIn h resourceId where
  lt_nextHandle := Nat.lt_of_lt_of_le hin.lt_nextHandle c.nextHandle_le
  resourceId_eq := by
    rintro n' hn' rfl
    obtain ⟨n, hn, hsame⟩ := c.exists_old n' hn' hin.lt_nextHandle
    exact hsame.resourceId.symm.trans (hin.resourceId_eq n hn hsame.handle)

theorem Arena.isIn (ha : o.Arena) {n : Node} (hn : n ∈ o.nodes) : o.IsIn n.handle n.resourceId where
  lt_nextHandle := ha.handle_lt n hn
  resourceId_eq := by
    intro m hm hhandle
    rw [ha.eq_of_handle hm hn hhandle]

theorem Arena.isIn_resourceAt (ha : o.Arena) {p : Option Handle}
    (hlive : ∀ h, p = some h → o.isLive h = true) :
    ∀ h, p = some h → o.IsIn h (o.resourceAt p) := by
  rintro h rfl
  obtain ⟨n, hn⟩ := exists_node?_of_isLive (hlive h rfl)
  have hat : o.resourceAt (some h) = n.resourceId := by
    rw [resourceAt, Option.bind_some, hn, Option.bind_some]
  obtain ⟨hmem, rfl⟩ := mem_of_node? hn
  rw [hat]
  exact ha.isIn hmem

theorem Arena.isLive_parentFor (ha : o.Arena) {id : String} {resourceId : Option String}
    {p : Handle} (hp : o.parentFor id resourceId = some p) : o.isLive p = true := by
  obtain ⟨n, hn, hhandle, -⟩ := ha.parentFor_eq_some_iff.mp hp
  exact isLive_iff.mpr ⟨n, hn, hhandle⟩

namespace OneResource

theorem continues (ho : o.OneResource) (c : o.Continues o')
    (hold : ∀ n ∈ o'.nodes, n.handle < o.nextHandle) : o'.OneResource := by
  intro m hm n hn hchild hresource
  obtain ⟨m₀, hm₀, hsame⟩ := c.exists_old m hm (hold m hm)
  obtain ⟨n₀, hn₀, hsame'⟩ := c.exists_old n hn (hold n hn)
  rw [← hsame.resourceId, ← hsame'.resourceId]
  exact ho m₀ hm₀ n₀ hn₀ (by rw [hsame'.parent, hchild, hsame.handle]) (by rwa [hsame.resourceId])

theorem edited (ho : o.OneResource) (ha : o.Arena) (hedit : o.Edited o')
    (ha' : o'.Arena) : o'.OneResource := by
  obtain ⟨c, hnext⟩ := hedit.continues ha
  exact ho.continues c fun n hn => hnext ▸ ha'.handle_lt n hn

theorem drawNode (ho : o.OneResource) (ha : o.Arena) {at' : Place} {e : Entity}
    {above : Option String} (hplace : ∀ p, at'.parent = some p → o.IsIn p above)
    (hown : above ≠ none → effectiveResource at' e = above) (uploads : Bool) :
    (o.drawNode at' e uploads).OneResource := by
  have ha' := ha.drawNode at' e uploads
  intro m hm n hn hchild hresource
  rcases ha.exists_old_drawNode hn with ⟨n₀, hn₀, hsame₀⟩ | rfl
  · -- The parent is older than its child.
    have hlt : m.handle < o.nextHandle := by
      have hbelow := ha'.lt_of_isChild ⟨n, hn, rfl, hchild⟩
      exact Nat.lt_trans hbelow (hsame₀.handle ▸ ha.handle_lt n₀ hn₀)
    obtain ⟨m₀, hm₀, hsame⟩ := (ha.continues_drawNode at' e uploads).exists_old m hm hlt
    rw [← hsame.resourceId, ← hsame₀.resourceId]
    exact ho m₀ hm₀ n₀ hn₀ (by rw [hsame₀.parent, hchild, hsame.handle]) (by rwa [hsame.resourceId])
  · have hparent : (o.cleared at' e).foundParent (freshNode at' e) = some m.handle := hchild
    have hfound : at'.parent = some m.handle := (Option.filter_eq_some_iff.mp hparent).1
    have habove :=
      ((hplace _ hfound).continues (ha.continues_drawNode at' e uploads)).resourceId_eq m hm rfl
    rw [habove] at hresource ⊢
    exact hown hresource

end OneResource

theorem Arena.isIn_drawNode (ha : o.Arena) (at' : Place) (e : Entity) (uploads : Bool) :
    (o.drawNode at' e uploads).IsIn o.nextHandle (effectiveResource at' e) where
  lt_nextHandle := by
    rw [ha.drawNode_nextHandle]
    exact Nat.lt_succ_self _
  resourceId_eq := by
    intro m hm hhandle
    rcases ha.exists_old_drawNode hm with ⟨n, hn, hold⟩ | rfl
    · exact absurd (ha.handle_lt n hn) (by rw [hold.handle, hhandle]; exact Nat.lt_irrefl _)
    · rfl

theorem Arena.isIn_drawPlan (ha : o.Arena) (at' : Place) (e : Entity) :
    (o.drawPlan at' (.ofEntity e)).IsIn o.nextHandle (effectiveResource at' e) := by
  obtain ⟨uploads, below, hplan⟩ := ofEntity_eq e
  rw [hplan]
  exact (ha.isIn_drawNode at' e uploads).continues
    ((ha.drawNode at' e uploads).continues_drawPlan _ below)

namespace OneResource

theorem drawPlan (ho : o.OneResource) (ha : o.Arena) (at' : Place) {plan : Plan}
    {above : Option String} (hplace : ∀ p, at'.parent = some p → o.IsIn p above)
    (hplan : plan.Belongs at'.resourceId above) : (o.drawPlan at' plan).OneResource := by
  induction plan generalizing o at' above with
  | done => exact ho
  | node e uploads below rest ihBelow ihRest =>
    obtain ⟨hown, hbelow, hrest⟩ := hplan
    have ha₁ := ha.drawNode at' e uploads
    have hnew := ha.isIn_drawNode at' e uploads
    have hdrawn := ihBelow (ho.drawNode ha hplace hown uploads) ha₁ (at'.below o.nextHandle e.id)
      (fun p hp => Option.some.inj hp ▸ hnew) hbelow
    refine ihRest hdrawn (ha₁.drawPlan _ below) at' (fun p hp => ?_) hrest
    exact ((hplace p hp).continues (ha.continues_drawNode at' e uploads)).continues
      (ha₁.continues_drawPlan _ below)

theorem receiveEach (ho : o.OneResource) (ha : o.Arena) {n : Node}
    (hn : o.IsIn n.handle n.resourceId) {children : List Entity}
    (hchildren : ∀ e ∈ children, e.Belongs n.resourceId) :
    (o.receiveEach n children).2.OneResource := by
  induction children generalizing o with
  | nil => exact ho
  | cons e children ih =>
    obtain ⟨hself, htree⟩ := hchildren e (List.mem_cons_self ..)
    have ha₁ := ha.drawPlan (receivedPlace n e) (.ofEntity e)
    have hdrawn := ho.drawPlan ha (receivedPlace n e) (fun p hp => Option.some.inj hp ▸ hn) hself
    have hnew := ha.isIn_drawPlan (receivedPlace n e) e
    have hgrafted := hdrawn.drawPlan ha₁ (graftPlace n e o.nextHandle)
      (fun p hp => Option.some.inj hp ▸ hnew) htree
    have ha₂ := ha₁.drawPlan (graftPlace n e o.nextHandle) (.ofTrees e.children)
    have c := (ha.continues_drawPlan (receivedPlace n e) (.ofEntity e)).trans
      (ha₁.continues_drawPlan (graftPlace n e o.nextHandle) (.ofTrees e.children))
    rw [← receiveOne_eq] at hgrafted ha₂ c
    exact ih hgrafted ha₂ (hn.continues c) fun d hd => hchildren d (List.mem_cons_of_mem _ hd)

theorem receive (ho : o.OneResource) (ha : o.Arena) {h : Handle} {children : List Entity}
    (hchildren : ∀ n, o.node? h = some n → ∀ e ∈ children, e.Belongs n.resourceId) :
    (o.receive h children).2.OneResource := by
  have ha' := ha.receive h children
  rcases o.receive_snd h children with heq | ⟨n, hnode, -, heq⟩
  · rwa [heq]
  · have hdrawn := ho.receiveEach ha (ha.isIn (mem_of_node? hnode).1) (hchildren n hnode)
    rw [heq] at ha' ⊢
    exact hdrawn.continues (continues_update h fun _ => ⟨rfl, rfl, rfl, rfl, rfl⟩) fun m hm =>
      ha'.handle_lt m hm

theorem perform (ho : o.OneResource) (ha : o.Arena) {a : Action} (hbelongs : a.Belongs o) :
    (o.perform a).OneResource := by
  have hedit : a.IsEdit → (o.perform a).OneResource :=
    fun h => ho.edited ha (ha.edited_perform h) (ha.perform a)
  cases a with
  | draw e parentId resourceId replaces isExpandable =>
    rw [Outline.perform, Outline.draw, drawAt_eq_drawPlan]
    refine ho.drawPlan ha _ (ha.isIn_resourceAt fun p hp => ?_) hbelongs
    obtain ⟨id, -, hid⟩ := Option.bind_eq_some_iff.mp hp
    exact ha.isLive_parentFor hid
  | drawTree e resourceId =>
    rw [Outline.perform, Outline.drawTree, Outline.graft, graftAll_eq_drawPlan]
    exact ho.drawPlan ha _ (ha.isIn_resourceAt fun p hp => ha.isLive_parentFor hp) hbelongs
  | receive h children => exact ho.receive ha hbelongs
  | takeEffects => exact ho
  | toggle | abandonFetch | settleUpload | remove | forget | click | editName
      | typeName | commitName
    | pressKey | retrack => exact hedit trivial

end OneResource

/-! Drawing without replacing anything. -/

theorem belongs_of_nodes {plan : Plan} (at' : Place) (keys : OpenKeys) (next : Handle)
    {above : Option String}
    (htops : ∀ n ∈ plan.nodes at' keys next, n.parent = at'.parent → above ≠ none →
      n.resourceId = above)
    (hnodes : ∀ m ∈ plan.nodes at' keys next, ∀ n ∈ plan.nodes at' keys next, n.parent =
      some m.handle → m.resourceId ≠ none → n.resourceId = m.resourceId) :
    plan.Belongs at'.resourceId above := by
  induction plan generalizing at' next above with
  | done => trivial
  | node e uploads below rest ihBelow ihRest =>
    let self := Plan.nodeFor at' keys next e uploads below
    have hself : self ∈ (Plan.node e uploads below rest).nodes at' keys next := by
      simp [self, Plan.nodes]
    have hbelow : ∀ n ∈ below.nodes (at'.below next e.id) keys (next + 1),
        n ∈ (Plan.node e uploads below rest).nodes at' keys next := fun n hn =>
          by simp [Plan.nodes, hn]
    have hrest : ∀ n ∈ rest.nodes at' keys (next + 1 + below.size),
        n ∈ (Plan.node e uploads below rest).nodes at' keys next := fun n hn =>
          by simp [Plan.nodes, hn]
    refine ⟨htops self hself rfl, ?_, ?_⟩
    · exact ihBelow (at'.below next e.id) (next + 1)
        (fun n hn hparent => hnodes self hself n (hbelow n hn) hparent)
        fun m hm n hn => hnodes m (hbelow m hm) n (hbelow n hn)
    · exact ihRest at' (next + 1 + below.size) (fun n hn => htops n (hrest n hn))
        fun m hm n hn => hnodes m (hrest m hm) n (hrest n hn)

theorem oneResource_drawPlan_iff (ho : o.OneResource) (ha : o.Arena) {at' : Place}
    (hreplaces : at'.replaces = false) (hlive : ∀ p, at'.parent = some p → o.isLive p = true)
    (plan : Plan) :
    (o.drawPlan at' plan).OneResource ↔ plan.Belongs at'.resourceId (o.resourceAt at'.parent) := by
  refine ⟨fun hdrawn => ?_, fun hplan => ho.drawPlan ha at' (ha.isIn_resourceAt hlive) hplan⟩
  rw [ha.drawPlan_eq_layout hreplaces hlive] at hdrawn
  have hnew : ∀ n ∈ plan.nodes at' o.openKeys o.nextHandle, n ∈ (o.layout at' plan).nodes :=
    fun n hn => List.mem_append_right _ hn
  refine belongs_of_nodes at' o.openKeys o.nextHandle (fun n hn hparent habove => ?_)
    fun m hm n hn => hdrawn m (hnew m hm) n (hnew n hn)
  cases hp : at'.parent with
  | none => exact absurd (by rw [hp]; rfl) habove
  | some p =>
    obtain ⟨m, hm⟩ := exists_node?_of_isLive (hlive p hp)
    obtain ⟨hmem, rfl⟩ := mem_of_node? hm
    have hat : o.resourceAt (some m.handle) = m.resourceId := by
      rw [resourceAt, Option.bind_some, hm, Option.bind_some]
    rw [hp] at habove
    rw [hat] at habove ⊢
    have hadopted : (m.adoptAll at'.parent (plan.tops o.nextHandle)).resourceId = m.resourceId := by
      rw [Node.adoptAll]
      split <;> rfl
    have hold : m.adoptAll at'.parent (plan.tops o.nextHandle) ∈ (o.layout at' plan).nodes :=
      List.mem_append_left _ (List.mem_map_of_mem hmem)
    rw [← hadopted] at habove ⊢
    exact hdrawn _ hold n (hnew n hn) (by rw [hparent, hp, Node.adoptAll_handle]) habove

end Outline

end ContentConsole
