import ContentConsole.Proofs.Outline.Branch
import ContentConsole.Proofs.Outline.Edit

set_option autoImplicit false
set_option relaxedAutoImplicit false

/-!
Drawing inside a branch. As long as only grown keys are drawn, drawing in the outline and
drawing in the branch alone come to the same. Main statements: `HasBranch.drawPlan`, for
one entity and all that is drawn with it, and `HasBranch.receive`, for the children that
a node of the branch waits for.
-/
namespace ContentConsole

def Place.moved (h next : Handle) (at' : Place) : Place :=
  { at' with parent := at'.parent.map (Outline.moved h next) }

namespace Node

variable {h next : Handle} (n : Node)

/-! What the branch leaves alone may be updated before or after the move. -/

theorem moved_inState (state : Expansion) :
    (n.inState state).moved h next = (n.moved h next).inState state := by
  unfold moved inState
  split <;> rfl

theorem moved_arrived (isEmpty : Bool) :
    (Outline.arrived isEmpty n).moved h next = Outline.arrived isEmpty (n.moved h next) := by
  unfold moved Outline.arrived
  split <;> rfl

theorem moved_commit : n.commit.moved h next = (n.moved h next).commit := by
  unfold moved commit
  split <;> rfl

end Node

namespace Outline

theorem keepsPlace_commit : KeepsPlace Node.commit := fun _ => ⟨rfl, rfl, rfl⟩

theorem settleUpload_ok (o : Outline) (h : Handle) :
    (o.settleUpload h (.ok ())).2 = o.update h Node.commit := by
  rw [settleUpload]
  cases hnode : o.node? h with
  | none =>
    have hgone : o.isLive h = false := by
      rw [isLive, hnode]
      rfl
    rw [update_eq_self hgone Node.commit, get, hnode]
  | some n =>
    rw [get_eq_ok_iff.mpr hnode]
    rfl

/-- The outline has a branch that is `b` as an outline of its own. -/
structure HasBranch (o b : Outline) (top : Node) (next : Handle) (grown : OpenKey → Prop) :
    Prop extends o.Branch top next grown where
  branch_eq : o.branch top.handle next = b

namespace HasBranch

variable {o b : Outline} {top : Node} {next : Handle} {grown : OpenKey → Prop}

theorem update (hb : o.HasBranch b top next grown) {x : Handle} (hx : Inside top.handle next x)
    {f : Node → Node} (hf : KeepsPlace f) (hbare : ∀ n, (f n).bare = n.bare)
    (hmoved : ∀ n, n.handle = x → (f n).moved top.handle next = f (n.moved top.handle next)) :
    (o.update x f).HasBranch (b.update (moved top.handle next x) f) top next grown := by
  obtain ⟨hb, rfl⟩ := hb
  exact ⟨hb.update hx hf hbare hmoved, hb.update_branch hx hf hmoved⟩

theorem withKeys (hb : o.HasBranch b top next grown) (openKeys : OpenKeys) :
    ({ o with openKeys }).HasBranch { b with openKeys } top next grown := by
  obtain ⟨hb, rfl⟩ := hb
  exact ⟨hb.withKeys openKeys, rfl⟩

theorem push (hb : o.HasBranch b top next grown) {n : Node} (hn : n ∈ o.nodes)
    (hinside : Inside top.handle next n.handle) {e : Effect} (hnode : e.node? = some n.handle)
    (hasked : ∀ x id resourceId, e = .fetchChildren x id resourceId →
      n.entityId = id ∧ n.resourceId = resourceId) :
    (o.push [e]).HasBranch (b.push [e.moved top.handle next]) top next grown := by
  obtain ⟨hb, rfl⟩ := hb
  exact ⟨hb.push hn hinside hnode hasked, Branch.push_branch o top.handle next [e]⟩

theorem arena_alone (hb : o.HasBranch b top next grown) : b.Arena := hb.branch_eq ▸ hb.alone

theorem nextHandle (hb : o.HasBranch b top next grown) :
    b.nextHandle = moved top.handle next o.nextHandle := by
  obtain ⟨hb, rfl⟩ := hb
  exact hb.moved_nextHandle.symm

theorem openKeys (hb : o.HasBranch b top next grown) : b.openKeys = o.openKeys := by
  obtain ⟨-, rfl⟩ := hb
  rfl

theorem node? (hb : o.HasBranch b top next grown) {x : Handle} (hx : Inside top.handle next x) :
    b.node? (moved top.handle next x) = (o.node? x).map (Node.moved top.handle next) := by
  obtain ⟨hb, rfl⟩ := hb
  exact node?_branch hb.top_lt hx

theorem openNode (hb : o.HasBranch b top next grown) {n : Node} (hn : n ∈ o.nodes)
    (hinside : Inside top.handle next n.handle) :
    (o.openNode n.handle).HasBranch
      (b.openNode (moved top.handle next n.handle)) top next grown := by
  have hmem : n.moved top.handle next ∈ b.nodes := by
    have hnode := hb.node? hinside
    rw [hb.arena.node?_handle hn] at hnode
    exact (mem_of_node? hnode).1
  have hopened := hb.arena_alone.openNode_eq hmem
  rw [n.moved_handle, n.moved_key, n.moved_entityId, n.moved_resourceId, hb.openKeys] at hopened
  rw [hopened, hb.arena.openNode_eq hn]
  have hupdated := (hb.update hinside (keepsPlace_inState .fetching) (fun _ => rfl) fun m _ =>
    m.moved_inState .fetching).withKeys (o.openKeys.insert n.key)
  refine hupdated.push (n := n.inState .fetching) (mem_update_nodes.mpr ⟨n, hn, if_pos rfl⟩)
    hinside rfl ?_
  rintro x id resourceId ⟨⟩
  exact ⟨rfl, rfl⟩

/-! One entity. -/

theorem cleared (hb : o.HasBranch b top next grown) {at' : Place} {e : Entity}
    (hkey : grown (freshNode at' e).key) :
    (o.cleared at' e).HasBranch (b.cleared (at'.moved top.handle next) e) top next grown := by
  rw [Outline.cleared, Outline.cleared]
  change HasBranch _ (if at'.replaces then b.displace (freshNode at' e).key else b) top next grown
  split
  · obtain ⟨hb, rfl⟩ := hb
    obtain ⟨hdisplaced, heq⟩ := hb.displace hkey
    exact ⟨hdisplaced, heq⟩
  · exact hb

theorem placed (hb : o.HasBranch b top next grown) {at' : Place} {e : Entity} {p : Handle}
    (hparent : at'.parent = some p) (hp : Inside top.handle next p)
    (hkey : grown (freshNode at' e).key) :
    (o.placed at' e).HasBranch (b.placed (at'.moved top.handle next) e) top next grown := by
  have hfresh : freshNode (at'.moved top.handle next) e =
      { freshNode at' e with parent := some (moved top.handle next p) } := by
    rw [freshNode, Place.moved, hparent]
    rfl
  obtain ⟨hcleared, heq⟩ := hb.cleared hkey
  rw [Outline.placed, Outline.placed, hfresh, ← heq]
  exact ⟨hcleared.insert rfl hparent hp hkey, hcleared.insert_branch rfl hparent hp⟩

theorem append (hb : o.HasBranch b top next grown) {at' : Place} {e : Entity} {p : Handle}
    (hparent : at'.parent = some p) (hp : Inside top.handle next p)
    (hkey : grown (freshNode at' e).key) :
    (o.append at' e).2.HasBranch (b.append (at'.moved top.handle next) e).2 top next grown := by
  have hplaced := hb.placed hparent hp hkey
  have hopens : b.opens (at'.moved top.handle next) e = o.opens at' e := by
    rw [opens, opens, hb.openKeys]
    rfl
  rw [append_eq, append_eq, hopens, hb.nextHandle]
  dsimp only
  split
  · obtain ⟨hseated, -⟩ := mem_of_node? (hb.arena.node?_placed at' e)
    exact hplaced.openNode hseated (.inr hb.next_le)
  · exact hplaced

theorem stageUpload (hb : o.HasBranch b top next grown) {x : Handle} (hx : next ≤ x) (e : Entity) :
    (o.stageUpload x e).HasBranch (b.stageUpload (moved top.handle next x) e) top next grown := by
  have hlive : b.isLive (moved top.handle next x) = o.isLive x := by
    rw [isLive, hb.node? (.inr hx), Option.isSome_map, isLive]
  rw [Outline.stageUpload, Outline.stageUpload, hlive]
  split
  · rename_i hstaged
    obtain ⟨n, hn, rfl⟩ := isLive_iff.mp hstaged
    have hplace : KeepsPlace fun n => { n with upload := .pending } := fun _ => ⟨rfl, rfl, rfl⟩
    have hpending := hb.update (.inr hx) hplace (fun _ => rfl) fun m hm => by
      have hne : m.handle ≠ top.handle := hm ▸ Nat.ne_of_gt (Nat.lt_of_lt_of_le hb.top_lt hx)
      rw [Node.moved, Node.moved, if_neg hne, if_neg hne]
    refine hpending.push (mem_update_nodes.mpr ⟨n, hn, if_pos rfl⟩) (.inr hx) rfl ?_
    rintro _ _ _ ⟨⟩
  · exact hb

theorem drawNode (hb : o.HasBranch b top next grown) {at' : Place} {e : Entity} {p : Handle}
    (hparent : at'.parent = some p) (hp : Inside top.handle next p)
    (hkey : grown (drawnKey at'.parentId at'.resourceId e)) (uploads : Bool) :
    (o.drawNode at' e uploads).HasBranch
      (b.drawNode (at'.moved top.handle next) e uploads) top next grown := by
  have happended := hb.append hparent hp hkey
  rw [Outline.drawNode, Outline.drawNode]
  split
  · rw [hb.nextHandle]
    exact happended.stageUpload hb.next_le e
  · exact happended

theorem drawPlan (hb : o.HasBranch b top next grown) (at' : Place) {plan : Plan} {p : Handle}
    (hparent : at'.parent = some p) (hp : Inside top.handle next p)
    (hkeys : ∀ key ∈ plan.keys at'.parentId at'.resourceId, grown key) :
    (o.drawPlan at' plan).HasBranch
      (b.drawPlan (at'.moved top.handle next) plan) top next grown := by
  induction plan generalizing o b at' p with
  | done => exact hb
  | node e uploads below rest ihBelow ihRest =>
    rw [Plan.keys, List.forall_mem_cons, List.forall_mem_append] at hkeys
    obtain ⟨hkey, hbelow, hrest⟩ := hkeys
    have hnode := hb.drawNode hparent hp hkey uploads
    have hdrawn := ihBelow hnode (at'.below o.nextHandle e.id) rfl (.inr hb.next_le) hbelow
    have hplace : (at'.below o.nextHandle e.id).moved top.handle next =
        (at'.moved top.handle next).below b.nextHandle e.id := by
      rw [hb.nextHandle]
      rfl
    rw [hplace] at hdrawn
    exact ihRest hdrawn at' hparent hp hrest

end HasBranch

/-! Fetched children. -/

/-- The keys of all that is drawn for the children of an entity, with
the trees that they come with. -/
def drawnKeys (entityId : String) (resourceId : Option String)
    (children : List Entity) : List OpenKey :=
  children.flatMap fun e =>
    (Plan.ofEntity e).keys (some entityId) resourceId ++ (Plan.ofTrees e.children).keys
      (some e.id) resourceId

namespace HasBranch

variable {o b : Outline} {top : Node} {next : Handle} {grown : OpenKey → Prop}

theorem receiveOne (hb : o.HasBranch b top next grown) {parent : Node} {e : Entity}
    (hparent : Inside top.handle next parent.handle)
    (hkeys : ∀ key ∈ drawnKeys parent.entityId parent.resourceId [e], grown key) :
    (o.receiveOne parent e).2.HasBranch
      (b.receiveOne (parent.moved top.handle next) e).2 top next grown := by
  rw [drawnKeys, List.flatMap_singleton, List.forall_mem_append] at hkeys
  have hentity := hb.drawPlan (receivedPlace parent e) rfl hparent hkeys.1
  have htree := hentity.drawPlan (graftPlace parent e o.nextHandle) rfl (.inr hb.next_le) hkeys.2
  have hplace : (receivedPlace parent e).moved top.handle next =
      receivedPlace (parent.moved top.handle next) e := by
    rw [receivedPlace, receivedPlace, parent.moved_handle, parent.moved_entityId,
      parent.moved_resourceId]
    rfl
  have hgraft : (graftPlace parent e o.nextHandle).moved top.handle next =
      graftPlace (parent.moved top.handle next) e b.nextHandle := by
    rw [graftPlace, graftPlace, parent.moved_resourceId, hb.nextHandle]
    rfl
  rw [hplace, hgraft] at htree
  rwa [receiveOne_eq, receiveOne_eq]

theorem receiveEach (hb : o.HasBranch b top next grown) {parent : Node} {children : List Entity}
    (hparent : Inside top.handle next parent.handle)
    (hkeys : ∀ key ∈ drawnKeys parent.entityId parent.resourceId children, grown key) :
    (o.receiveEach parent children).2.HasBranch
      (b.receiveEach (parent.moved top.handle next) children).2
      top next grown := by
  induction children generalizing o b with
  | nil => exact hb
  | cons e children ih =>
    rw [drawnKeys, List.flatMap_cons, List.forall_mem_append] at hkeys
    have hfirst : ∀ key ∈ drawnKeys parent.entityId parent.resourceId [e], grown key := by
      rw [drawnKeys, List.flatMap_singleton]
      exact hkeys.1
    exact ih (hb.receiveOne hparent hfirst) hkeys.2

theorem receive (hb : o.HasBranch b top next grown) {x : Handle} (hx : Inside top.handle next x)
    (children : List Entity)
    (hkeys : ∀ n ∈ o.nodes, n.handle = x →
      ∀ key ∈ drawnKeys n.entityId n.resourceId children, grown key) :
    (o.receive x children).2.HasBranch
      (b.receive (moved top.handle next x) children).2 top next grown := by
  have hmoved := hb.node? hx
  cases hnode : o.node? x with
  | none =>
    rw [hnode] at hmoved
    rw [Outline.receive, Outline.receive, get, get, hnode, hmoved]
    exact hb
  | some n =>
    rw [hnode] at hmoved
    obtain ⟨hn, rfl⟩ := mem_of_node? hnode
    by_cases hwaits : n.expansion = .fetching
    · rw [receive_eq hnode hwaits, receive_eq hmoved (n.moved_expansion.trans hwaits)]
      exact (hb.receiveEach hx (hkeys n hn rfl)).update hx (keepsPlace_arrived _)
        (fun _ => rfl) fun m _ =>
        m.moved_arrived children.isEmpty
    · have hwaits' : (n.moved top.handle next).expansion ≠ .fetching := by rwa [n.moved_expansion]
      rw [Outline.receive, Outline.receive, get_eq_ok_iff.mpr hnode, get_eq_ok_iff.mpr hmoved]
      simp only [ne_eq, hwaits, hwaits', not_false_eq_true, if_true]
      exact hb

theorem settleUpload (hb : o.HasBranch b top next grown) {x : Handle}
    (hx : Inside top.handle next x) :
    (o.settleUpload x (.ok ())).2.HasBranch (b.settleUpload (moved top.handle next x) (.ok ())).2
      top next grown := by
  rw [settleUpload_ok, settleUpload_ok]
  exact hb.update hx keepsPlace_commit (fun _ => rfl) fun m _ => m.moved_commit

end HasBranch

end Outline

end ContentConsole
