import ContentConsole.Proofs.Outline.TreeForm

set_option autoImplicit false
set_option relaxedAutoImplicit false

/-!
The members that are drawn below an entity, by the strategy of its type and in a tree. Main
statement: `below_drawTree_iff`, by which both ways draw the same below an entity without children
in the tree exactly if the files of a folder are all that there is to draw.
-/
namespace ContentConsole

def Node.face (n : Node) : String × EntityType := (n.entityId, n.type)

namespace Entity

def face (e : Entity) : String × EntityType := (e.id, e.type)

/-- The members that the strategy of the type draws. -/
def drawnMembers (e : Entity) : List Entity :=
  match e.kind with
  | .folder folders images files => folders ++ images ++ files.filter fun f => f.type = .file
  | .group users => users
  | .element _ elements => elements.filter fun m => m.type = .element ∨ m.type = .content
  | _ => []

/-- The members that the strategy of the type draws with their own members below them. -/
def nestedMembers (e : Entity) : List Entity :=
  match e.kind with
  | .folder folders _ _ => folders
  | .element _ elements => elements.filter fun m => m.type = .element
  | _ => []

/-- The members that are drawn where the entity stands in a tree. -/
def walkedMembers (e : Entity) : List Entity :=
  match e.kind with
  | .folder _ _ files => files
  | _ => []

end Entity

namespace Plan

def faces (depth : Nat) : Plan → List (Nat × String × EntityType)
  | .done => []
  | .node e _ below rest => (depth, e.face) :: below.faces (depth + 1) ++ rest.faces depth

def firsts : Plan → List Entity
  | .done => []
  | .node e _ _ rest => e :: rest.firsts

def IsFlat : Plan → Prop
  | .done => True
  | .node _ _ below rest => below = .done ∧ rest.IsFlat

def inner : Plan → Plan
  | .done => .done
  | .node _ _ below _ => below

theorem firsts_append (plan plan' : Plan) :
    (plan.append plan').firsts = plan.firsts ++ plan'.firsts := by
  induction plan with
  | done => rfl
  | node e uploads below rest _ ihRest => simp only [append, firsts, ihRest, List.cons_append]

theorem firsts_flat (es : List Entity) : (flat es).firsts = es := by
  induction es with
  | nil => rfl
  | cons e es ih => rw [flat, firsts, ih]

theorem firsts_eq_nil_iff {plan : Plan} : plan.firsts = [] ↔ plan = .done := by
  cases plan <;> simp [firsts]

theorem isFlat_append {plan plan' : Plan} :
    (plan.append plan').IsFlat ↔ plan.IsFlat ∧ plan'.IsFlat := by
  induction plan with
  | done => simp [append, IsFlat]
  | node e uploads below rest _ ihRest => simp only [append, IsFlat, ihRest, and_assoc]

theorem isFlat_flat (es : List Entity) : (flat es).IsFlat := by
  induction es with
  | nil => trivial
  | cons e es ih => exact ⟨rfl, ih⟩

theorem faces_eq_map_iff {plan : Plan} {depth : Nat} {es : List Entity} :
    plan.faces depth = es.map (fun e => (depth, e.face)) ↔
      plan.firsts.map Entity.face = es.map Entity.face ∧ plan.IsFlat := by
  induction plan generalizing es with
  | done => cases es <;> simp [faces, firsts, IsFlat]
  | node e uploads below rest _ ihRest =>
    cases es with
    | nil => simp [faces, firsts]
    | cons e' es =>
      cases below with
      | done => simp [faces, firsts, IsFlat, ihRest, and_assoc]
      | node m uploads' below' rest' =>
        -- The first entity below stands one level too deep.
        cases es <;> simp [faces, firsts, IsFlat]

/-! The plan of an entity. -/

theorem ofEntity_eq_node (e : Entity) :
    ∃ uploads, ofEntity e = .node e uploads (ofEntity e).inner .done := by
  obtain ⟨id, name, resourceId, kind, children⟩ := e
  cases kind <;> rw [ofEntity] <;> exact ⟨_, rfl⟩

theorem firsts_ofEntity (e : Entity) : (ofEntity e).firsts = [e] := by
  obtain ⟨uploads, hplan⟩ := ofEntity_eq_node e
  rw [hplan]
  rfl

theorem isFlat_ofEntity {e : Entity} : (ofEntity e).IsFlat ↔ (ofEntity e).inner = .done := by
  obtain ⟨uploads, hplan⟩ := ofEntity_eq_node e
  rw [hplan]
  exact and_iff_left trivial

theorem firsts_ofFolders (es : List Entity) : (ofFolders es).firsts = es := by
  induction es with
  | nil => rw [ofFolders, firsts]
  | cons e es ih => rw [ofFolders, firsts_append, firsts_ofEntity, ih, List.singleton_append]

theorem isFlat_ofFolders {es : List Entity} :
    (ofFolders es).IsFlat ↔ ∀ e ∈ es, (ofEntity e).inner = .done := by
  induction es with
  | nil => simp [ofFolders, IsFlat]
  | cons e es ih => rw [ofFolders, isFlat_append, isFlat_ofEntity, ih, List.forall_mem_cons]

theorem firsts_ofElements (es : List Entity) :
    (ofElements es).firsts = es.filter fun m => m.type = .element ∨ m.type = .content := by
  induction es with
  | nil => rw [ofElements, firsts, List.filter_nil]
  | cons e es ih =>
    rw [ofElements]
    cases htype : e.type <;> simp [firsts_append, firsts_ofEntity, firsts, ih, htype]

theorem isFlat_ofElements {es : List Entity} :
    (ofElements es).IsFlat ↔ ∀ e ∈ es.filter (fun m => m.type = .element),
      (ofEntity e).inner = .done := by
  induction es with
  | nil => simp [ofElements, IsFlat]
  | cons e es ih =>
    rw [ofElements]
    cases htype : e.type <;> simp [isFlat_append, isFlat_ofEntity, IsFlat, ih, htype]

theorem firsts_inner (e : Entity) : (ofEntity e).inner.firsts = e.drawnMembers := by
  obtain ⟨id, name, resourceId, kind, children⟩ := e
  cases kind with
  | folder folders images files =>
    simp only [ofEntity, inner, firsts_append, firsts_ofFolders, firsts_flat, Entity.drawnMembers,
      List.append_assoc]
  | group users => simp only [ofEntity, inner, firsts_flat, Entity.drawnMembers]
  | element typeName elements => simp only [ofEntity, inner, firsts_ofElements, Entity.drawnMembers]
  | resource | component | content | user | image | file =>
    simp only [ofEntity, inner, firsts, Entity.drawnMembers]

theorem inner_eq_done_iff {e : Entity} : (ofEntity e).inner = .done ↔ e.drawnMembers = [] := by
  rw [← firsts_eq_nil_iff, firsts_inner]

theorem isFlat_inner {e : Entity} :
    (ofEntity e).inner.IsFlat ↔ ∀ m ∈ e.nestedMembers, m.drawnMembers = [] := by
  simp only [← inner_eq_done_iff]
  obtain ⟨id, name, resourceId, kind, children⟩ := e
  cases kind with
  | folder folders images files =>
    simp only [ofEntity, inner, isFlat_append, isFlat_ofFolders, isFlat_flat, and_self, and_true,
      Entity.nestedMembers]
  | group users => simp [ofEntity, inner, isFlat_flat, Entity.nestedMembers]
  | element typeName elements =>
    simp only [ofEntity, inner, isFlat_ofElements, Entity.nestedMembers]
  | resource | component | content | user | image | file =>
    simp [ofEntity, inner, IsFlat, Entity.nestedMembers]

theorem ofTrees_singleton {e : Entity} (he : e.children = []) :
    ofTrees [e] = .node e false (flat e.walkedMembers) .done := by
  obtain ⟨id, name, resourceId, kind, children⟩ := e
  obtain rfl : children = [] := he
  cases kind with
  | folder folders images files => simp only [ofTrees, append_done, ofTree, Entity.walkedMembers]
  | _ => simp [ofTrees, append, ofTree, flat, Entity.walkedMembers]

end Plan

namespace Outline

variable {o : Outline} {at' : Place}

/-- What stands below a node, by depth in preorder, with the ids and the types. -/
def facesBelow (o : Outline) (h : Handle) : List (Nat × String × EntityType) :=
  (o.listing o.nodes.length 0 h).tail.map fun entry => (entry.1, entry.2.face)

theorem map_face_listing (keys : OpenKeys) (next : Handle) (plan : Plan) (depth : Nat) :
    (plan.listing at' keys next depth).map (fun entry => (entry.1, entry.2.face)) =
      plan.faces depth := by
  induction plan generalizing at' next depth with
  | done => rfl
  | node e uploads below rest ihBelow ihRest =>
    have hself : (Plan.nodeFor at' keys next e uploads below).face = e.face := rfl
    simp only [Plan.listing, Plan.faces, List.cons_append, List.map_cons, List.map_append, ihBelow,
      ihRest, hself]

theorem Arena.below_drawPlan (ha : o.Arena) (hreplaces : at'.replaces = false)
    (hparent : ∀ p, at'.parent = some p → o.isLive p = true) (e : Entity) (uploads : Bool)
    (inner : Plan) :
    ((o.drawPlan at' (.node e uploads inner .done)).node? o.nextHandle).map Node.face =
      some e.face ∧
      (o.drawPlan at' (.node e uploads inner .done)).facesBelow o.nextHandle = inner.faces 1 := by
  have ha' := ha.drawPlan at' (.node e uploads inner .done)
  rw [ha.drawPlan_eq_layout hreplaces hparent] at ha' ⊢
  have hnodes : ∀ n ∈ (Plan.node e uploads inner .done).nodes at' o.openKeys o.nextHandle,
      (o.layout at' (.node e uploads inner .done)).node? n.handle = some n :=
    fun n hn => ha'.node?_handle (List.mem_append_right _ hn)
  have hsize : (Plan.node e uploads inner .done).size ≤
      (o.layout at' (.node e uploads inner .done)).nodes.length := by
    rw [layout, List.length_append, Plan.length_nodes]
    exact Nat.le_add_left _ _
  have hlisting := flatMap_listing_tops at' o.openKeys hnodes hsize 0
  rw [Plan.tops, Plan.tops, List.flatMap_singleton, Plan.listing, Plan.listing,
    List.append_nil] at hlisting
  constructor
  · have hself := hnodes _ (List.mem_cons_self ..)
    rw [Plan.nodeFor_handle] at hself
    rw [hself]
    rfl
  · rw [facesBelow, hlisting, List.tail_cons, map_face_listing]

/--
A tree and the strategy of its type show the same below an entity without children in the tree
exactly if the members that the strategy draws are those that the tree draws, the files of a folder,
and none of them has anything to draw below it.
-/
theorem below_drawTree_iff (ho : o.Reachable) {p e : Entity} (hp : p.children = [e])
    (he : e.children = []) (treeResource resourceId : Option String) :
    let walked := o.drawTree p treeResource
    let drawn := (o.draw e (some p.id) resourceId false false).2
    ((walked.node? o.nextHandle).map Node.face = some e.face ∧
        walked.facesBelow o.nextHandle = e.walkedMembers.map fun m => (1, m.face)) ∧
      (drawn.node? o.nextHandle).map Node.face = some e.face ∧
      (drawn.facesBelow o.nextHandle = walked.facesBelow o.nextHandle ↔
        e.drawnMembers.map Entity.face = e.walkedMembers.map Entity.face ∧
          ∀ m ∈ e.nestedMembers, m.drawnMembers = []) := by
  intro walked drawn
  have ha := ho.arena
  have hlive : ∀ resourceId h, o.parentFor p.id resourceId = some h → o.isLive h = true :=
    fun _ _ hfor => (ha.parentFor_eq_some_iff.mp hfor).isLive
  have hwalked : (walked.node? o.nextHandle).map Node.face = some e.face ∧
      walked.facesBelow o.nextHandle = (Plan.flat e.walkedMembers).faces 1 := by
    have hplan : walked =
        o.drawPlan ⟨o.parentFor p.id treeResource, some p.id, treeResource, false, false⟩
        (.node e false (.flat e.walkedMembers) .done) := by
      rw [← Plan.ofTrees_singleton he, ← hp, ← graftAll_eq_drawPlan]
      rfl
    rw [hplan]
    exact ha.below_drawPlan rfl (hlive treeResource) e false _
  have hdrawn : (drawn.node? o.nextHandle).map Node.face = some e.face ∧
      drawn.facesBelow o.nextHandle = (Plan.ofEntity e).inner.faces 1 := by
    obtain ⟨uploads, hplan⟩ := Plan.ofEntity_eq_node e
    have hdraw : drawn =
        o.drawPlan ⟨o.parentFor p.id resourceId, some p.id, resourceId, false, false⟩
        (.node e uploads (Plan.ofEntity e).inner .done) := by
      rw [← hplan, ← drawAt_eq_drawPlan]
      rfl
    rw [hdraw]
    exact ha.below_drawPlan rfl (hlive resourceId) e uploads _
  have hfiles : (Plan.flat e.walkedMembers).faces 1 = e.walkedMembers.map fun m => (1, m.face) := by
    rw [Plan.faces_eq_map_iff, Plan.firsts_flat]
    exact ⟨rfl, Plan.isFlat_flat _⟩
  rw [hfiles] at hwalked
  refine ⟨hwalked, hdrawn.1, ?_⟩
  rw [hdrawn.2, hwalked.2, Plan.faces_eq_map_iff, Plan.firsts_inner, Plan.isFlat_inner]

theorem below_drawTree_file :
    let f : Entity := ⟨"f", "", none, .file, []⟩
    let e : Entity := ⟨"e", "", none, .folder [] [] [f], []⟩
    let p : Entity := ⟨"p", "", none, .content, [e]⟩
    let o := (start .empty).run [.draw p none none false false]
    o.Reachable ∧ p.children = [e] ∧ e.children = [] ∧
      (o.draw e (some p.id) none false false).2.facesBelow 1 =
        (o.drawTree p none).facesBelow 1 := by
  intro f e p o
  have ho : o.Reachable := ⟨_, _, rfl⟩
  have hsame := (below_drawTree_iff ho (p := p) (e := e) rfl rfl none none).2.2
  exact ⟨ho, rfl, rfl, hsame.mpr ⟨by decide, by decide⟩⟩

/-- The users of a group are not drawn where the group stands in a tree. -/
theorem below_drawTree_group :
    let u : Entity := ⟨"u", "", none, .user, []⟩
    let e : Entity := ⟨"e", "", none, .group [u], []⟩
    let p : Entity := ⟨"p", "", none, .content, [e]⟩
    let o := (start .empty).run [.draw p none none false false]
    o.Reachable ∧ p.children = [e] ∧ e.children = [] ∧ (o.drawTree p none).facesBelow 1 = [] ∧
      (o.draw e (some p.id) none false false).2.facesBelow 1 = [(1, "u", .user)] :=
  ⟨⟨_, _, rfl⟩, rfl, rfl, rfl, rfl⟩

end Outline

end ContentConsole
