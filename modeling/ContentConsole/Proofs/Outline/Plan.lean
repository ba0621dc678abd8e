import ContentConsole.Proofs.Outline.Append

set_option autoImplicit false
set_option relaxedAutoImplicit false

/-!
What is drawn of an entity, laid out beforehand: a plan says which entities are drawn, in which
order and below which others, without looking at the outline. Main statements: `drawAt_eq_drawPlan`
and `graftAll_eq_drawPlan`, by which both ways of drawing carry out a plan node by node.
-/
namespace ContentConsole

/-- The nodes to draw at one place: the first with what is drawn below it, and those after it. -/
inductive Plan
  | done
  | node (e : Entity) (uploads : Bool) (below rest : Plan)

namespace Plan

def append : Plan → Plan → Plan
  | .done, plan => plan
  | .node e uploads below rest, plan => .node e uploads below (rest.append plan)

theorem append_done (plan : Plan) : plan.append .done = plan := by
  induction plan with
  | done => rfl
  | node e uploads below rest _ ihRest => rw [append, ihRest]

def flat : List Entity → Plan
  | [] => .done
  | e :: es => .node e false .done (flat es)

mutual

/-- An entity by the strategy of its type. -/
def ofEntity : Entity → Plan
  | ⟨id, name, resourceId, kind, children⟩ =>
    let e : Entity := ⟨id, name, resourceId, kind, children⟩
    match kind with
    | .resource | .component | .content | .user => .node e false .done .done
    | .image | .file => .node e true .done .done
    | .folder folders images files =>
      let plain := (flat images).append (flat (files.filter fun e => e.type = .file))
      .node e false ((ofFolders folders).append plain) .done
    | .group users => .node e false (flat users) .done
    | .element _ elements => .node e false (ofElements elements) .done

def ofFolders : List Entity → Plan
  | [] => .done
  | e :: es => (ofEntity e).append (ofFolders es)

def ofElements : List Entity → Plan
  | [] => .done
  | e :: es =>
    match e.type with
    | .element => (ofEntity e).append (ofElements es)
    | .content => .node e false .done (ofElements es)
    | _ => ofElements es

end

mutual

def ofTree : Entity → Plan
  | ⟨id, name, resourceId, kind, children⟩ =>
    let files :=
      match kind with
      | .folder _ _ files => flat files
      | _ => .done
    .node ⟨id, name, resourceId, kind, children⟩ false (files.append (ofTrees children)) .done

def ofTrees : List Entity → Plan
  | [] => .done
  | e :: es => (ofTree e).append (ofTrees es)

end

end Plan

namespace Outline

def drawNode (o : Outline) (at' : Place) (e : Entity) (uploads : Bool) : Outline :=
  if uploads then (o.append at' e).2.stageUpload o.nextHandle e else (o.append at' e).2

/-- Carries out a plan at a place. -/
def drawPlan (o : Outline) (at' : Place) : Plan → Outline
  | .done => o
  | .node e uploads below rest =>
    ((o.drawNode at' e uploads).drawPlan (at'.below o.nextHandle e.id) below).drawPlan at' rest

variable {o : Outline}

theorem append_fst (at' : Place) (e : Entity) : (o.append at' e).1 = o.nextHandle := by
  rw [append_eq]

theorem drawNode_false (at' : Place) (e : Entity) : o.drawNode at' e false = (o.append at' e).2 :=
  rfl

theorem drawNode_true (at' : Place) (e : Entity) :
    o.drawNode at' e true = (o.append at' e).2.stageUpload o.nextHandle e := rfl

theorem isLive_drawNode (at' : Place) (e : Entity) (uploads : Bool) {x : Handle} :
    (o.drawNode at' e uploads).isLive x = true ↔
      (o.cleared at' e).isLive x = true ∨ x = o.nextHandle := by
  rw [drawNode]
  split
  · rw [isLive_stageUpload, isLive_append]
  · exact isLive_append at' e

theorem isChild_drawNode (at' : Place) (e : Entity) (uploads : Bool) {p c : Handle} :
    (o.drawNode at' e uploads).IsChild p c ↔ (o.cleared at' e).IsChild p c ∨
      c = o.nextHandle ∧ at'.parent = some p ∧ (o.cleared at' e).isLive p = true := by
  rw [drawNode]
  split
  · rw [isChild_stageUpload, isChild_append]
  · exact isChild_append at' e

theorem Arena.mem_drawNode (ha : o.Arena) {at' : Place} {e : Entity} {uploads : Bool} {m : Node}
    (hm : m ∈ (o.drawNode at' e uploads).nodes) :
    (∃ n ∈ (o.cleared at' e).nodes,
        n.adopt ((o.cleared at' e).foundParent (freshNode at' e)) o.nextHandle = m) ∨
      m = { o.seated at' e with
        expansion := o.firstExpansion at' e
        upload := if uploads then .pending else .notRequired } := by
  cases uploads with
  | false => exact ha.mem_append hm
  | true =>
    have hlive : (o.append at' e).2.isLive o.nextHandle = true :=
      (isLive_append at' e).mpr (.inr rfl)
    rw [drawNode_true, Outline.stageUpload, if_pos hlive] at hm
    obtain ⟨k, hk, rfl⟩ := mem_update_nodes.mp hm
    rcases ha.mem_append hk with ⟨n, hn, rfl⟩ | rfl
    · have hne : n.handle ≠ o.nextHandle := Nat.ne_of_lt (ha.lt_of_mem_cleared hn)
      rw [Node.adopt_handle, if_neg hne]
      exact .inl ⟨n, hn, rfl⟩
    · have hself : (o.seated at' e).handle = o.nextHandle := rfl
      rw [if_pos hself]
      exact .inr rfl

theorem Arena.mem_drawNode_nodes (ha : o.Arena) {at' : Place} {e : Entity} {uploads : Bool}
    {m : Node} (hm : m ∈ (o.drawNode at' e uploads).nodes) :
    (∃ n ∈ (o.cleared at' e).nodes, m.Alike n) ∨
      m.handle = o.nextHandle ∧ m.key = (freshNode at' e).key ∧
      m.expansion = o.firstExpansion at' e := by
  rcases ha.mem_drawNode hm with ⟨n, hn, rfl⟩ | rfl
  · exact .inl ⟨n, hn, Node.adopt_alike⟩
  · exact .inr ⟨rfl, rfl, rfl⟩

theorem drawPlan_append (at' : Place) (plan plan' : Plan) :
    o.drawPlan at' (plan.append plan') = (o.drawPlan at' plan).drawPlan at' plan' := by
  induction plan generalizing o with
  | done => rfl
  | node e uploads below rest _ ihRest => exact ihRest

theorem appendAll_eq_drawPlan (at' : Place) (es : List Entity) :
    o.appendAll at' es = o.drawPlan at' (.flat es) := by
  induction es generalizing o with
  | nil => rfl
  | cons e es ih => exact ih

mutual

/-- Drawing an entity by its type carries out its plan. -/
theorem drawAt_eq_drawPlan (o : Outline) (at' : Place) :
    ∀ e : Entity, (o.drawAt at' e).2 = o.drawPlan at' (.ofEntity e)
  | ⟨id, name, resourceId, kind, children⟩ => by
    cases kind with
    | folder folders images files =>
      simp only [drawAt, Plan.ofEntity, append_fst, drawFolders_eq_drawPlan _ _ folders,
        appendAll_eq_drawPlan, drawPlan, drawNode_false, drawPlan_append]
    | group users =>
      simp only [drawAt, Plan.ofEntity, append_fst, appendAll_eq_drawPlan, drawPlan, drawNode_false]
    | element typeName elements =>
      simp only [drawAt, Plan.ofEntity, append_fst, drawElements_eq_drawPlan _ _ elements, drawPlan,
        drawNode_false]
    | image | file => simp only [drawAt, Plan.ofEntity, append_fst, drawPlan, drawNode_true]
    | resource | component | content | user =>
      simp only [drawAt, Plan.ofEntity, drawPlan, drawNode_false]

theorem drawFolders_eq_drawPlan (o : Outline) (at' : Place) :
    ∀ es : List Entity, o.drawFolders at' es = o.drawPlan at' (.ofFolders es)
  | [] => by rw [drawFolders, Plan.ofFolders, drawPlan]
  | e :: es => by
    rw [drawFolders, Plan.ofFolders, drawPlan_append, drawAt_eq_drawPlan o at' e,
      drawFolders_eq_drawPlan _ at' es]

theorem drawElements_eq_drawPlan (o : Outline) (at' : Place) :
    ∀ es : List Entity, o.drawElements at' es = o.drawPlan at' (.ofElements es)
  | [] => by rw [drawElements, Plan.ofElements, drawPlan]
  | e :: es => by
    rw [drawElements, Plan.ofElements]
    cases e.type with
    | element =>
      simp only [drawPlan_append, drawAt_eq_drawPlan o at' e, drawElements_eq_drawPlan _ at' es]
    | content => simp only [drawElements_eq_drawPlan _ at' es, drawPlan, drawNode_false]
    | resource | component | folder | image | file | user | group =>
      simp only [drawElements_eq_drawPlan _ at' es]

end

theorem drawAt_handle (at' : Place) : ∀ e : Entity, (o.drawAt at' e).1.handle = o.nextHandle
  | ⟨id, name, resourceId, kind, children⟩ => by
    rw [drawAt]
    cases kind <;> simp only [append_fst, Drawn.handle]

mutual

private theorem graftOne_eq_drawPlan (o : Outline) (at' : Place) :
    ∀ e : Entity, o.graftOne at' e = o.drawPlan at' (.ofTree e)
  | ⟨id, name, resourceId, kind, children⟩ => by
    cases kind <;>
      simp only [graftOne, Plan.ofTree, append_fst, graftAll_eq_drawPlan _ _ children,
        appendAll_eq_drawPlan, drawPlan, drawNode_false, drawPlan_append]

/-- Drawing a tree whole carries out its plan. -/
theorem graftAll_eq_drawPlan (o : Outline) (at' : Place) :
    ∀ es : List Entity, o.graftAll at' es = o.drawPlan at' (.ofTrees es)
  | [] => by rw [graftAll, Plan.ofTrees, drawPlan]
  | e :: es => by
    rw [graftAll, Plan.ofTrees, drawPlan_append, graftOne_eq_drawPlan o at' e,
      graftAll_eq_drawPlan _ at' es]

end

theorem drawPlan_induction {P : Outline → Prop}
    (h : ∀ o at' e uploads, P o → P (o.drawNode at' e uploads)) (ho : P o) (at' : Place)
    (plan : Plan) : P (o.drawPlan at' plan) := by
  induction plan generalizing o at' with
  | done => exact ho
  | node e uploads below rest ihBelow ihRest =>
    rw [drawPlan]
    exact ihRest (ihBelow (h o at' e uploads ho) _) at'

theorem Arena.drawNode (ha : o.Arena) (at' : Place) (e : Entity) (uploads : Bool) :
    (o.drawNode at' e uploads).Arena := by
  rw [Outline.drawNode]
  split
  · exact (ha.append at' e).stageUpload _ _
  · exact ha.append at' e

theorem Arena.drawPlan (ha : o.Arena) (at' : Place) (plan : Plan) : (o.drawPlan at' plan).Arena :=
  drawPlan_induction (fun _ at' e uploads h => h.drawNode at' e uploads) ha at' plan

theorem Arena.drawPlan_induction {P : Outline → Prop} (ha : o.Arena)
    (h : ∀ o at' e uploads, o.Arena → P o → P (o.drawNode at' e uploads)) (ho : P o) (at' : Place)
    (plan : Plan) : P (o.drawPlan at' plan) := by
  have hboth : (o.drawPlan at' plan).Arena ∧ P (o.drawPlan at' plan) := by
    refine Outline.drawPlan_induction (P := fun o => o.Arena ∧ P o) ?_ ⟨ha, ho⟩ at' plan
    rintro o at' e uploads ⟨ha, ho⟩
    exact ⟨ha.drawNode at' e uploads, h o at' e uploads ha ho⟩
  exact hboth.2

theorem Arena.drawNode_openKeys (ha : o.Arena) (at' : Place) (e : Entity) (uploads : Bool) :
    (o.drawNode at' e uploads).openKeys = o.openKeys := by
  rw [Outline.drawNode, Outline.stageUpload]
  split
  · split <;> exact ha.append_openKeys at' e
  · exact ha.append_openKeys at' e

theorem Arena.drawPlan_openKeys (ha : o.Arena) (at' : Place) (plan : Plan) :
    (o.drawPlan at' plan).openKeys = o.openKeys := by
  refine ha.drawPlan_induction (P := fun o' => o'.openKeys = o.openKeys) ?_ rfl at' plan
  intro o' at' e uploads ha' hkeys
  exact (ha'.drawNode_openKeys at' e uploads).trans hkeys

theorem Arena.draw_openKeys (ha : o.Arena) (e : Entity) (parentId resourceId : Option String)
    (replaces isExpandable : Bool) :
    (o.draw e parentId resourceId replaces isExpandable).2.openKeys = o.openKeys := by
  rw [Outline.draw, drawAt_eq_drawPlan]
  exact ha.drawPlan_openKeys _ _

theorem Arena.drawTree_openKeys (ha : o.Arena) (e : Entity) (resourceId : Option String) :
    (o.drawTree e resourceId).openKeys = o.openKeys := by
  rw [Outline.drawTree, graft, graftAll_eq_drawPlan]
  exact ha.drawPlan_openKeys _ _

end Outline

end ContentConsole
