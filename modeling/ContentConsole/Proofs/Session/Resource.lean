import ContentConsole.Proofs.Outline.Resource
import ContentConsole.Proofs.Session.Reach
import ContentConsole.Proofs.Session.Regrowth

set_option autoImplicit false
set_option relaxedAutoImplicit false

/-!
The resources of a session. Main statement: `oneResource_run`, by which every node stays in the
resource of the node above it as long as what is drawn, and what the server gives, belongs where it
is drawn. That is so wherever a resource is handed down; an entity that is drawn without one must
bring its members along in its own.
-/
namespace ContentConsole

/-- What the action draws, if the server gives no more, belongs where it is drawn. -/
def UserAction.Belongs (o : Outline) : UserAction → Prop
  | .draw e parentId resourceId replaces isExpandable =>
    (Action.draw e parentId resourceId replaces isExpandable).Belongs o
  | .drawTree root =>
    (Plan.ofEntity root).Belongs none none ∧
      (Plan.ofTrees root.children).Belongs root.ownResource root.ownResource
  | .view a => a.Belongs o
  | _ => True

theorem UserAction.belongs_draw_none {o : Outline} {e : Entity} {resourceId : Option String}
    {replaces isExpandable : Bool} :
    (UserAction.draw e none resourceId replaces isExpandable).Belongs o ↔
      (Plan.ofEntity e).Belongs resourceId none := Iff.rfl

/-- Children that the server gives belong to the resource in which they are asked for. -/
def Server.GivesBelonging {σ : Type} (server : Server σ) : Prop :=
  ∀ id resourceId state children, (server.answer (.children id resourceId) state).1 = .ok children →
    ∀ e ∈ children, e.Belongs resourceId

namespace Outline

variable {o : Outline}

theorem Arena.resourceAt_parentFor (ha : o.Arena) {n : Node} (hn : n ∈ o.nodes) :
    o.resourceAt (o.parentFor n.entityId n.resourceId) = n.resourceId := by
  obtain ⟨p, hfor, m, hm, rfl, -, ⟨hresource, -⟩ | ⟨hnone, -⟩⟩ :=
    ha.exists_parentFor hn n.resourceId
  · rw [hfor, resourceAt, Option.bind_some, ha.node?_handle hm, Option.bind_some, hresource]
  · exact absurd rfl (hnone n hn rfl)

theorem Arena.exists_root (ha : o.Arena) (root : Entity) (isExpandable : Bool) :
    ∃ n ∈ (o.draw root none none false isExpandable).2.nodes,
      n.handle = o.nextHandle ∧ n.entityId = root.id ∧ n.resourceId = root.ownResource := by
  let at' : Place := ⟨none, none, none, false, isExpandable⟩
  have hlive : ∀ p, at'.parent = some p → o.isLive p = true := fun p hp => by cases hp
  have hdrawn : (o.draw root none none false isExpandable).2 = o.layout at' (.ofEntity root) := by
    rw [← ha.drawPlan_eq_layout rfl hlive, ← drawAt_eq_drawPlan]
    rfl
  obtain ⟨uploads, below, hplan⟩ := ofEntity_eq root
  rw [hdrawn, hplan]
  exact ⟨Plan.nodeFor at' o.openKeys o.nextHandle root uploads below,
    by simp [layout, Plan.nodes], rfl, rfl, rfl⟩

end Outline

namespace Session

variable {σ : Type} {s : Session σ}

theorem allows_of_givesBelonging {server : Server σ} (hserver : server.GivesBelonging) :
    server.Allows fun o a => a.Belongs o where
  edit := by
    intro o a hedit
    cases a with
    | draw | drawTree | receive => cases hedit
    | _ => exact trivial
  takeEffects := fun _ => trivial
  receive := by
    intro o h id resourceId state children hgiven hshows n hn e he
    obtain ⟨hmem, hhandle⟩ := Outline.mem_of_node? hn
    rw [(hshows n hmem hhandle).2]
    exact hserver id resourceId state children hgiven e he

theorem isAllowed_of_belongs {o : Outline} (ha : o.Arena) {a : UserAction}
    (hbelongs : a.Belongs o) : a.IsAllowed (fun o a => a.Belongs o) o := by
  cases a with
  | drawTree root =>
    obtain ⟨hself, htree⟩ := hbelongs
    let first : Action := .draw root none none false (root.hasMembers && root.children.isEmpty)
    have ha₁ : (o.perform first).Arena := ha.perform first
    obtain ⟨n, hn, hhandle, hid, hresource⟩ :=
      ha.exists_root root (root.hasMembers && root.children.isEmpty)
    have hnode : (o.perform first).node? o.nextHandle = some n := by
      rw [← hhandle]
      exact ha₁.node?_handle hn
    have hbelow := ha₁.resourceAt_parentFor hn
    refine ⟨hself, ?_⟩
    dsimp only
    rw [hnode, Option.bind_some, Action.Belongs, ← hid, hbelow, hresource]
    exact htree
  | draw | view => exact hbelongs
  | _ => trivial

/-- An outline of a session as actions make it, with everything under one resource. -/
structure Sound (s : Session σ) : Prop where
  arena : s.outline.Arena
  addressed : s.outline.Addressed
  oneResource : s.outline.OneResource

theorem sound_start (s : Session σ) (openKeys : OpenKeys) :
    ({ s with outline := .start openKeys } : Session σ).Sound where
  arena := Outline.arena_start openKeys
  addressed := Outline.addressed_start openKeys
  oneResource := fun _ hm => absurd hm List.not_mem_nil

theorem Sound.perform (hs : s.Sound) (hserver : s.server.GivesBelonging) {a : UserAction}
    (hbelongs : a.Belongs s.outline) : (s.perform a).Sound ∧ (s.perform a).server = s.server := by
  have hleads := leads_perform (allows_of_givesBelonging hserver) hs.arena hs.addressed
    (isAllowed_of_belongs hs.arena hbelongs)
  have hresource : (s.perform a).outline.OneResource := by
    refine hleads.outline.induction (P := Outline.OneResource) hs.arena hs.oneResource ?_
    exact fun o b ha ho hb => ho.perform ha hb
  exact ⟨⟨hleads.outline.arena hs.arena, hleads.outline.addressed hs.arena hs.addressed, hresource⟩,
    hleads.server⟩

theorem Sound.run (hs : s.Sound) (hserver : s.server.GivesBelonging) {actions : List UserAction}
    (hbelongs : s.Along (fun o a => a.Belongs o) actions) : (s.run actions).Sound := by
  induction actions generalizing s with
  | nil => exact hs
  | cons a actions ih =>
    obtain ⟨hfirst, hrest⟩ := hbelongs
    obtain ⟨hnext, hsame⟩ := hs.perform hserver hfirst
    exact ih hnext (by rw [hsame]; exact hserver) hrest

/--
As long as what is drawn belongs where it is drawn, every node is in the resource of the
node above it, if that is in one. Drawn as a root in the place of nothing, what does not
belong together breaks this at once.
-/
theorem oneResource_run (s : Session σ) (openKeys : OpenKeys) {actions : List UserAction}
    (hserver : s.server.GivesBelonging)
    (hbelongs :
      ({ s with outline := .start openKeys } : Session σ).Along (fun o a => a.Belongs o) actions) :
    let o := (({ s with outline := .start openKeys } : Session σ).run actions).outline
    o.OneResource ∧ ∀ e resourceId isExpandable,
      (o.draw e none resourceId false isExpandable).2.OneResource ↔
        (Plan.ofEntity e).Belongs resourceId none := by
  intro o
  have hsound := (sound_start s openKeys).run hserver hbelongs
  refine ⟨hsound.oneResource, fun e resourceId isExpandable => ?_⟩
  rw [Outline.draw, Outline.drawAt_eq_drawPlan]
  refine Outline.oneResource_drawPlan_iff hsound.oneResource hsound.arena rfl
    (fun p hp => ?_) (.ofEntity e)
  cases hp

def folderOf (resourceId : Option String) : Entity :=
  ⟨"f", "", some "r", .folder [] [] [⟨"x", "", resourceId, .file, []⟩], []⟩

theorem oneResource_run_folder :
    let actions : List UserAction :=
      [.draw ⟨"a", "", some "r", .emptyElement, []⟩ none none true true, .toggle 0,
        .draw (folderOf (some "r")) none none true true]
    (givenBy shelf actions).outline.nodes.map (fun n => (n.entityId, n.parent, n.resourceId)) =
        [("a", none, some "r"), ("c", some 0, some "r"), ("f", none, some "r"),
          ("x", some 2, some "r")] ∧
      (givenBy shelf actions).outline.OneResource := by
  intro actions
  have hserver : (giving shelf).GivesBelonging := by
    intro id resourceId state children hgiven e he
    have hshelf : shelf id resourceId = children := Except.ok.inj hgiven
    rw [← hshelf, shelf] at he
    split at he
    · obtain rfl := List.mem_singleton.mp he
      cases resourceId with
      | none => decide
      | some r => exact Entity.belongs_some r _
    · cases he
  have hbelongs :
      ({ server := giving shelf, state := (), outline := .start .empty } : Session Unit).Along
      (fun o a => a.Belongs o) actions :=
    ⟨UserAction.belongs_draw_none.mpr (by decide), trivial,
      UserAction.belongs_draw_none.mpr (by decide), trivial⟩
  have hrun := oneResource_run { server := giving shelf, state := () } .empty hserver hbelongs
  exact ⟨by decide +kernel, hrun.1⟩

/-- The file of a folder that brings a resource is drawn in none, if it brings none itself. -/
theorem oneResource_fails :
    let o := (givenBy childless [.draw (folderOf none) none none true true]).outline
    o.nodes.map (fun n => (n.entityId, n.parent, n.resourceId)) =
        [("f", none, some "r"), ("x", some 0, none)] ∧ ¬o.OneResource := by
  intro o
  refine ⟨by decide +kernel, ?_⟩
  unfold Outline.OneResource
  decide +kernel

end Session

end ContentConsole
