import ContentConsole.Proofs.Outline.Layout
import ContentConsole.Proofs.Outline.Regrowth

set_option autoImplicit false
set_option relaxedAutoImplicit false

/-!
Graphs that are laid out as trees, and how they are shown. Main statements: `shown_drawPlan`, by
which a plan drawn below a node is shown behind all that was shown at the node before, and
`exists_host`, by which the tree of a root that was just drawn is drawn below the first node that
shows the root in its resource.
-/
namespace ContentConsole

def Node.line (n : Node) : String × String × Expansion := (n.entityId, n.typeName, n.expansion)

namespace Entity

def HasChild (e child : Entity) : Prop := child ∈ e.children

/-- Nothing in the tree of the entity has members. -/
def IsTreeForm (e : Entity) : Prop := ∀ d, Relation.ReflTransGen HasChild e d → d.hasMembers = false

theorem IsTreeForm.hasMembers {e : Entity} (he : e.IsTreeForm) : e.hasMembers = false := he e .refl

theorem IsTreeForm.child {e child : Entity} (he : e.IsTreeForm)
    (hchild : child ∈ e.children) : child.IsTreeForm :=
  fun d hd => he d (hd.head hchild)

theorem isTreeForm_iff {e : Entity} :
    e.IsTreeForm ↔ e.hasMembers = false ∧ ∀ child ∈ e.children, child.IsTreeForm := by
  refine ⟨fun he => ⟨he.hasMembers, fun child hchild => he.child hchild⟩, ?_⟩
  rintro ⟨hself, hchildren⟩ d hd
  rcases hd.cases_head with rfl | ⟨child, hchild, hbelow⟩
  · exact hself
  · exact hchildren child hchild d hbelow

mutual

/-- The tree of an entity in preorder, every one a leaf: how deep it stands, its id and its type. -/
def treeLines (depth : Nat) : Entity → List (Nat × String × String × Expansion)
  | ⟨id, _, _, kind, children⟩ =>
    (depth, id, kind.typeName, .leaf) :: treesLines (depth + 1) children

def treesLines (depth : Nat) : List Entity → List (Nat × String × String × Expansion)
  | [] => []
  | e :: es => treeLines depth e ++ treesLines depth es

end

theorem treeLines_eq (depth : Nat) (e : Entity) :
    e.treeLines depth = (depth, e.id, e.typeName, .leaf) :: treesLines (depth + 1) e.children := by
  obtain ⟨id, name, resourceId, kind, children⟩ := e
  rw [treeLines]
  rfl

theorem treesLines_eq_nil_iff {depth : Nat} {es : List Entity} :
    treesLines depth es = [] ↔ es = [] := by
  cases es with
  | nil => simp [treesLines]
  | cons e es => simp [treesLines, treeLines_eq]

end Entity

namespace Plan

def lines (depth : Nat) : Plan → List (Nat × String × String × Expansion)
  | .done => []
  | .node e _ below rest =>
    (depth, e.id, e.typeName, .leaf) :: below.lines (depth + 1) ++ rest.lines depth

def listing (at' : Place) (keys : OpenKeys) (next : Handle) (depth : Nat) : Plan → List (Nat × Node)
  | .done => []
  | .node e uploads below rest =>
    (depth, nodeFor at' keys next e uploads below) ::
        below.listing (at'.below next e.id) keys (next + 1) (depth + 1) ++
      rest.listing at' keys (next + 1 + below.size) depth

theorem lines_append (depth : Nat) (plan plan' : Plan) :
    (plan.append plan').lines depth = plan.lines depth ++ plan'.lines depth := by
  induction plan with
  | done => rfl
  | node e uploads below rest _ ihRest =>
    simp only [append, lines, ihRest, List.append_assoc, List.cons_append]

mutual

private theorem lines_ofTree (depth : Nat) :
    ∀ e : Entity, e.IsTreeForm → (ofTree e).lines depth = e.treeLines depth
  | ⟨id, name, resourceId, kind, children⟩, he => by
    have hchildren := lines_ofTrees (depth + 1) children fun child hchild => he.child hchild
    have hmembers : kind.members = [] := by
      have hnone := he.hasMembers
      simpa [Entity.hasMembers] using hnone
    cases kind with
    | folder folders images files =>
      obtain rfl : files = [] := (List.append_eq_nil_iff.mp hmembers).2
      simp [ofTree, flat, append, lines, hchildren, Entity.treeLines, Entity.typeName]
    | _ => simp [ofTree, append, lines, hchildren, Entity.treeLines, Entity.typeName]

theorem lines_ofTrees (depth : Nat) : ∀ es : List Entity, (∀ e ∈ es, e.IsTreeForm) →
    (ofTrees es).lines depth = Entity.treesLines depth es
  | [], _ => by rw [ofTrees, lines, Entity.treesLines]
  | e :: es, hes => by
    have hfirst := lines_ofTree depth e (hes e (List.mem_cons_self ..))
    have hrest := lines_ofTrees depth es fun d hd => hes d (List.mem_cons_of_mem _ hd)
    rw [ofTrees, Entity.treesLines, lines_append, hfirst, hrest]

end

theorem ofEntity_of_no_members {e : Entity} (he : e.hasMembers = false) :
    ofEntity e = .node e (e.type = .image ∨ e.type = .file) .done .done := by
  obtain ⟨id, name, resourceId, kind, children⟩ := e
  have hmembers : kind.members = [] := by simpa [Entity.hasMembers] using he
  cases kind with
  | folder folders images files =>
    obtain ⟨hfirst, rfl⟩ := List.append_eq_nil_iff.mp hmembers
    obtain ⟨rfl, rfl⟩ := List.append_eq_nil_iff.mp hfirst
    simp [ofEntity, ofFolders, flat, append, Entity.type, Kind.type]
  | group users =>
    obtain rfl : users = [] := hmembers
    simp [ofEntity, flat, Entity.type, Kind.type]
  | element typeName elements =>
    obtain rfl : elements = [] := hmembers
    simp [ofEntity, ofElements, Entity.type, Kind.type]
  | _ => simp [ofEntity, Entity.type, Kind.type]

end Plan

namespace Outline

variable {o o' : Outline}

def lines (o : Outline) (levels depth : Nat) (h : Handle) :
    List (Nat × String × String × Expansion) :=
  (o.listing levels depth h).map fun entry => (entry.1, entry.2.line)

theorem shown_eq_lines (h : Handle) : o.shown h = o.lines o.nodes.length 0 h := rfl

theorem lines_of_node? {h : Handle} {n : Node} (hn : o.node? h = some n) (levels depth : Nat) :
    o.lines (levels + 1) depth h = (depth, n.line) ::
      n.children.flatMap (o.lines levels (depth + 1)) := by
  rw [lines, listing, hn, List.map_cons, List.map_flatMap]
  rfl

theorem lines_congr {P : Handle → Prop}
    (hsame : ∀ x, P x → ∃ n n', o.node? x = some n ∧ o'.node? x = some n' ∧ n'.line = n.line ∧
      n'.children = n.children ∧ ∀ c ∈ n.children, P c)
    (levels depth : Nat) {h : Handle} (hh : P h) :
    o'.lines levels depth h = o.lines levels depth h := by
  induction levels generalizing depth h with
  | zero => rfl
  | succ levels ih =>
    obtain ⟨n, n', hn, hn', hline, hchildren, hclosed⟩ := hsame h hh
    rw [lines_of_node? hn, lines_of_node? hn', hline, hchildren]
    congr 1
    exact List.flatMap_congr fun c hc => ih (depth + 1) (hclosed c hc)

namespace Arena

theorem lines_eq (ha : o.Arena) (levels : Nat) (hlevels : o.nodes.length ≤ levels) (h : Handle) :
    o.lines levels 0 h = o.shown h := by
  rw [lines, ha.listing_eq hlevels (Nat.le_refl _)]
  rfl

theorem shown_of_subset (ha : o.Arena) (ha' : o'.Arena) (hkept : ∀ n ∈ o.nodes, n ∈ o'.nodes)
    {x : Handle} (hx : o.isLive x = true) : o'.shown x = o.shown x := by
  let levels := o.nodes.length + o'.nodes.length
  rw [← ha.lines_eq levels (Nat.le_add_right _ _), ← ha'.lines_eq levels (Nat.le_add_left _ _)]
  refine lines_congr (P := fun y => o.isLive y = true) (fun y hy => ?_) _ _ hx
  obtain ⟨n, hn⟩ := exists_node?_of_isLive hy
  obtain ⟨hmem, rfl⟩ := mem_of_node? hn
  have hn' := ha'.node?_handle (hkept n hmem)
  exact ⟨n, n, hn, hn', rfl, rfl, fun c hc => ((ha.mem_children n hmem c).mp hc).isLive⟩

theorem shown_update (ha : o.Arena) {f : Node → Node} (hf : KeepsPlace f)
    (hline : ∀ n, (f n).line = n.line) (h : Handle) {x : Handle} (hx : o.isLive x = true) :
    (o.update h f).shown x = o.shown x := by
  have hlength : (o.update h f).nodes.length = o.nodes.length := List.length_map _
  rw [shown_eq_lines, shown_eq_lines, hlength]
  refine lines_congr (P := fun y => o.isLive y = true) (fun y hy => ?_) _ _ hx
  obtain ⟨n, hn⟩ := exists_node?_of_isLive hy
  obtain ⟨hmem, rfl⟩ := mem_of_node? hn
  have hkeeps : (if n.handle = h then f n else n).handle = n.handle ∧
      (if n.handle = h then f n else n).line = n.line ∧
        (if n.handle = h then f n else n).children = n.children := by
    split
    · exact ⟨(hf n).1, hline n, (hf n).2.2⟩
    · exact ⟨rfl, rfl, rfl⟩
  have hn' := (ha.update hf h).node?_handle (mem_update_nodes.mpr ⟨n, hmem, rfl⟩)
  rw [hkeeps.1] at hn'
  exact ⟨n, _, hn, hn', hkeeps.2.1, hkeeps.2.2,
    fun c hc => ((ha.mem_children n hmem c).mp hc).isLive⟩

end Arena

/-! A plan drawn below a node. -/

variable {at' : Place} {keys : OpenKeys} {next : Handle}

theorem line_nodeFor (hexpandable : at'.isExpandable = false) (e : Entity) (uploads : Bool)
    (below : Plan) :
    (Plan.nodeFor at' keys next e uploads below).line = (e.id, e.typeName, .leaf) := by
  simp [Plan.nodeFor, Node.line, Place.opens, freshNode, hexpandable]

theorem flatMap_listing_tops (at' : Place) (keys : OpenKeys) {plan : Plan} {levels : Nat}
    (hnodes : ∀ n ∈ plan.nodes at' keys next, o.node? n.handle = some n)
    (hsize : plan.size ≤ levels) (depth : Nat) :
    (plan.tops next).flatMap (o.listing levels depth) = plan.listing at' keys next depth := by
  induction plan generalizing at' next levels depth with
  | done => rfl
  | node e uploads below rest ihBelow ihRest =>
    rw [Plan.size] at hsize
    obtain ⟨levels, rfl⟩ : ∃ l, levels = l + 1 := ⟨levels - 1, by omega⟩
    have hself := hnodes (Plan.nodeFor at' keys next e uploads below) (by simp [Plan.nodes])
    have hbelow : (below.tops (next + 1)).flatMap (o.listing levels (depth + 1)) =
        below.listing (at'.below next e.id) keys (next + 1) (depth + 1) :=
      ihBelow (at'.below next e.id) (fun n hn => hnodes n (by simp [Plan.nodes, hn])) (by omega) _
    have hrest : (rest.tops (next + 1 + below.size)).flatMap (o.listing (levels + 1) depth) =
        rest.listing at' keys (next + 1 + below.size) depth :=
      ihRest at' (fun n hn => hnodes n (by simp [Plan.nodes, hn])) (by omega) depth
    have hfirst : o.listing (levels + 1) depth next =
        (depth, Plan.nodeFor at' keys next e uploads below) ::
        (below.tops (next + 1)).flatMap (o.listing levels (depth + 1)) := by
      rw [Plan.nodeFor_handle] at hself
      rw [listing, hself]
      rfl
    rw [Plan.tops, List.flatMap_cons, hfirst, hbelow, hrest, Plan.listing]

theorem map_line_listing (hexpandable : at'.isExpandable = false) (plan : Plan) (depth : Nat) :
    (plan.listing at' keys next depth).map (fun entry => (entry.1, entry.2.line)) =
      plan.lines depth := by
  induction plan generalizing at' next depth with
  | done => rfl
  | node e uploads below rest ihBelow ihRest =>
    have hoffers : (at'.below next e.id).isExpandable = false := hexpandable
    simp only [Plan.listing, Plan.lines, List.cons_append, List.map_cons, List.map_append,
      ihBelow hoffers, ihRest hexpandable, line_nodeFor hexpandable]

theorem flatMap_lines_tops (at' : Place) (keys : OpenKeys)
    (hexpandable : at'.isExpandable = false) {plan : Plan} {levels : Nat}
    (hnodes : ∀ n ∈ plan.nodes at' keys next, o.node? n.handle = some n)
    (hsize : plan.size ≤ levels) (depth : Nat) :
    (plan.tops next).flatMap (o.lines levels depth) = plan.lines depth := by
  have hlisting := flatMap_listing_tops at' keys hnodes hsize depth
  have hlines : (plan.tops next).flatMap (o.lines levels depth) =
      ((plan.tops next).flatMap (o.listing levels depth)).map fun entry =>
        (entry.1, entry.2.line) := by
    rw [List.map_flatMap]
    rfl
  rw [hlines, hlisting, map_line_listing hexpandable]

theorem Plan.length_nodes (plan : Plan) : (plan.nodes at' keys next).length = plan.size := by
  rw [← List.length_map (f := Node.handle), Plan.nodes_handle, List.length_range']

namespace Arena

variable {p : Handle}

theorem drawPlan_below (ha : o.Arena) (hreplaces : at'.replaces = false)
    (hparent : at'.parent = some p) (hp : o.isLive p = true) (plan : Plan) :
    o.drawPlan at' plan = o.layout at' plan := by
  refine ha.drawPlan_eq_layout hreplaces (fun q hq => ?_) plan
  rw [hparent] at hq
  rwa [← Option.some.inj hq]

/-- A node and the nodes of a plan drawn below it: what was shown at the node, then the plan. -/
theorem shown_drawPlan (ha : o.Arena) (hreplaces : at'.replaces = false)
    (hexpandable : at'.isExpandable = false) (hparent : at'.parent = some p)
    (hp : o.isLive p = true) (plan : Plan) :
    (o.drawPlan at' plan).shown p = o.shown p ++ plan.lines 1 := by
  have ha' := ha.drawPlan at' plan
  rw [ha.drawPlan_below hreplaces hparent hp] at ha' ⊢
  obtain ⟨n, hn⟩ := exists_node?_of_isLive hp
  obtain ⟨hmem, rfl⟩ := mem_of_node? hn
  have hold : ∀ m ∈ o.nodes,
      (o.layout at' plan).node? m.handle =
        some (m.adoptAll (some n.handle) (plan.tops o.nextHandle)) := by
    intro m hm
    have hnew : m.adoptAll at'.parent (plan.tops o.nextHandle) ∈ (o.layout at' plan).nodes :=
      List.mem_append_left _ (List.mem_map_of_mem hm)
    have hnode := ha'.node?_handle hnew
    rwa [Node.adoptAll_handle, hparent] at hnode
  have hlength : (o.layout at' plan).nodes.length = o.nodes.length + plan.size := by
    rw [layout, List.length_append, List.length_map, Plan.length_nodes]
  have hpos : 0 < o.nodes.length := List.length_pos_of_mem hmem
  obtain ⟨levels, hlevels⟩ : ∃ l, o.nodes.length + plan.size = l + 1 :=
    ⟨o.nodes.length + plan.size - 1, by omega⟩
  -- What stands below the node was drawn after it, and none of that is the parent of anything new.
  have hsame : ∀ c ∈ n.children, (o.layout at' plan).lines levels 1 c = o.lines levels 1 c := by
    intro c hc
    have hchild := (ha.mem_children n hmem c).mp hc
    refine lines_congr (P := fun x => o.isLive x = true ∧ n.handle < x) ?_ _ _
      ⟨hchild.isLive, ha.lt_of_isChild hchild⟩
    rintro x ⟨hx, hlt⟩
    obtain ⟨m, hm⟩ := exists_node?_of_isLive hx
    obtain ⟨hmm, rfl⟩ := mem_of_node? hm
    have hnode := hold m hmm
    rw [Node.adoptAll_of_ne fun heq => Nat.ne_of_lt hlt (Option.some.inj heq)] at hnode
    refine ⟨m, m, hm, hnode, rfl, rfl, fun d hd => ?_⟩
    have hbelow := (ha.mem_children m hmm d).mp hd
    exact ⟨hbelow.isLive, Nat.lt_trans hlt (ha.lt_of_isChild hbelow)⟩
  have hnew :
      (plan.tops o.nextHandle).flatMap ((o.layout at' plan).lines levels 1) = plan.lines 1 := by
    refine flatMap_lines_tops at' o.openKeys hexpandable (fun m hm => ?_) (by omega) 1
    exact ha'.node?_handle (List.mem_append_right _ hm)
  have hadopted : (n.adoptAll (some n.handle) (plan.tops o.nextHandle)) =
      { n with children := n.children ++ plan.tops o.nextHandle } := if_pos rfl
  rw [shown_eq_lines, hlength, hlevels, ← ha.lines_eq (levels + 1) (by omega),
    lines_of_node? (hold n hmem), lines_of_node? hn, hadopted, List.flatMap_append, hnew,
    List.flatMap_congr hsame]
  rfl

theorem mem_drawPlan_of_ne (ha : o.Arena) (hreplaces : at'.replaces = false)
    (hparent : at'.parent = some p) (hp : o.isLive p = true) (plan : Plan) {n : Node}
    (hn : n ∈ o.nodes) (hne : n.handle ≠ p) : n ∈ (o.drawPlan at' plan).nodes := by
  rw [ha.drawPlan_below hreplaces hparent hp]
  refine List.mem_append_left _ (List.mem_map.mpr ⟨n, hn, Node.adoptAll_of_ne ?_⟩)
  rw [hparent]
  exact fun heq => hne (Option.some.inj heq).symm

end Arena

theorem listing_of_nodes_eq (hnodes : o'.nodes = o.nodes) (levels : Nat) :
    o'.listing levels = o.listing levels := by
  induction levels with
  | zero => rfl
  | succ levels ih =>
    funext depth h
    have hnode : o'.node? h = o.node? h := by rw [node?, node?, hnodes]
    rw [listing, listing, hnode, ih]

theorem shown_of_nodes_eq (hnodes : o'.nodes = o.nodes) (h : Handle) : o'.shown h = o.shown h := by
  rw [shown, shown, hnodes, listing_of_nodes_eq hnodes]

/-! Uploads that are all accepted. -/

theorem settleAll_outbox (staged : List (Handle × Entity)) :
    (o.settleAll staged).outbox = o.outbox := by
  induction staged generalizing o with
  | nil => rfl
  | cons w staged ih =>
    have hfirst : (o.settleUpload w.1 (.ok ())).2.outbox = o.outbox := by
      rw [settleUpload_ok, update]
    exact ih.trans hfirst

theorem Arena.shown_settleAll (ha : o.Arena) (staged : List (Handle × Entity)) {x : Handle}
    (hx : o.isLive x = true) : (o.settleAll staged).shown x = o.shown x := by
  induction staged generalizing o with
  | nil => rfl
  | cons w staged ih =>
    have hfirst : (o.settleUpload w.1 (.ok ())).2.shown x = o.shown x := by
      rw [settleUpload_ok]
      exact ha.shown_update keepsPlace_commit (fun _ => rfl) w.1 hx
    have hx₁ : (o.settleUpload w.1 (.ok ())).2.isLive x = true := by
      rwa [settleUpload_ok, isLive_update keepsPlace_commit]
    exact (ih (ha.settleUpload w.1 (.ok ())) hx₁).trans hfirst

theorem mem_settleAll {n : Node} (hn : n ∈ o.nodes) {staged : List (Handle × Entity)}
    (hother : ∀ w ∈ staged, n.handle ≠ w.1) : n ∈ (o.settleAll staged).nodes := by
  induction staged generalizing o with
  | nil => exact hn
  | cons w staged ih =>
    have hfirst : n ∈ (o.settleUpload w.1 (.ok ())).2.nodes := by
      rw [settleUpload_ok]
      exact mem_update_nodes.mpr ⟨n, hn, if_neg (hother w (List.mem_cons_self ..))⟩
    exact ih hfirst fun w' hw' => hother w' (List.mem_cons_of_mem _ hw')

/-! A root and its tree. -/

def withRoot (o : Outline) (root : Entity) : Outline := (o.draw root none none false false).2

/-- Where the tree of a root is drawn, if `p` is the node to draw below. -/
def treePlace (p : Handle) (root : Entity) : Place :=
  ⟨some p, some root.id, root.ownResource, false, false⟩

def withTree (o : Outline) (root : Entity) (p : Handle) : Outline :=
  (o.withRoot root).drawPlan (treePlace p root) (.ofTrees root.children)

variable {root : Entity}

theorem withTree_of_children_eq_nil (hchildren : root.children = []) (p : Handle) :
    o.withTree root p = o.withRoot root := by
  rw [withTree, hchildren]
  rfl

theorem Arena.withRoot (ha : o.Arena) (root : Entity) : (o.withRoot root).Arena :=
  ha.draw root none none false false

theorem Arena.withTree (ha : o.Arena) (root : Entity) (p : Handle) : (o.withTree root p).Arena :=
  (ha.withRoot root).drawPlan _ _

theorem Arena.exists_withRoot (ha : o.Arena) (hroot : root.hasMembers = false) : ∃ n asked,
    (o.withRoot root).nodes = o.nodes ++ [n] ∧ (o.withRoot root).outbox = o.outbox ++ asked ∧
      n.handle = o.nextHandle ∧ n.resourceId = root.ownResource ∧ n.children = [] ∧
        n.line = (root.id, root.typeName, .leaf) ∧ ∀ e ∈ asked, e = .upload o.nextHandle root := by
  let at' : Place := ⟨none, none, none, false, false⟩
  let uploads : Bool := root.type = .image ∨ root.type = .file
  have hdrawn : o.withRoot root = o.layout at' (.node root uploads .done .done) := by
    have hparent : ∀ p, at'.parent = some p → o.isLive p = true := fun p hp => by cases hp
    rw [← Plan.ofEntity_of_no_members hroot, ← ha.drawPlan_eq_layout rfl hparent,
      ← drawAt_eq_drawPlan]
    rfl
  have hold : o.nodes.map (Node.adoptAll none [o.nextHandle]) = o.nodes :=
    List.map_id'' (fun n => Node.adoptAll_of_ne (Option.some_ne_none n.handle).symm) o.nodes
  refine ⟨Plan.nodeFor at' o.openKeys o.nextHandle root uploads .done,
    Plan.effectsFor at' o.openKeys o.nextHandle root uploads, ?_, ?_, rfl, rfl, rfl,
    line_nodeFor rfl root uploads .done, ?_⟩
  · rw [hdrawn, layout]
    simp only [at', Plan.tops, Plan.nodes, hold, List.append_nil]
  · rw [hdrawn, layout]
    simp only [Plan.effects, List.append_nil]
  · intro e he
    have hopens : at'.opens o.openKeys root = false := rfl
    rw [Plan.effectsFor, hopens] at he
    cases huploads : uploads <;> simp [huploads] at he
    exact he

theorem Arena.mem_withRoot (ha : o.Arena) (hroot : root.hasMembers = false) {n : Node}
    (hn : n ∈ o.nodes) : n ∈ (o.withRoot root).nodes := by
  obtain ⟨_, _, hnodes, -⟩ := ha.exists_withRoot hroot
  rw [hnodes]
  exact List.mem_append_left _ hn

theorem Arena.exists_node_withRoot (ha : o.Arena) (hroot : root.hasMembers = false) : ∃ n,
    (o.withRoot root).node? o.nextHandle = some n ∧ n.resourceId = root.ownResource ∧
    n.children = [] ∧
      n.line = (root.id, root.typeName, .leaf) := by
  obtain ⟨n, _, hnodes, -, hhandle, hresource, hchildren, hline, -⟩ := ha.exists_withRoot hroot
  refine ⟨n, ?_, hresource, hchildren, hline⟩
  rw [← hhandle]
  exact (ha.withRoot root).node?_handle (by simp [hnodes])

theorem Arena.shown_withRoot (ha : o.Arena) (hroot : root.hasMembers = false) :
    (o.withRoot root).shown o.nextHandle = [(0, root.id, root.typeName, .leaf)] := by
  obtain ⟨n, hnode, -, hchildren, hline⟩ := ha.exists_node_withRoot hroot
  rw [← (ha.withRoot root).lines_eq _ (Nat.le_succ _), lines_of_node? hnode, hchildren, hline]
  rfl

theorem Arena.isLive_withTree (ha : o.Arena) {p : Handle} (hp : (o.withRoot root).isLive p = true)
    {x : Handle} (hx : (o.withRoot root).isLive x = true) :
    (o.withTree root p).isLive x = true := by
  have hplan : o.withTree root p = (o.withRoot root).layout (treePlace p root)
      (.ofTrees root.children) :=
    (ha.withRoot root).drawPlan_below rfl rfl hp _
  rw [hplan]
  exact isLive_layout hx

theorem Arena.host_cases (ha : o.Arena) (hroot : root.hasMembers = false) {p : Handle}
    (hhost : (o.withRoot root).IsHost root.id root.ownResource p) :
    (p = o.nextHandle ∧ ∀ n ∈ o.nodes, n.entityId = root.id → n.resourceId ≠ root.ownResource) ∨
      ∃ n ∈ o.nodes, n.handle = p ∧ n.entityId = root.id ∧ n.resourceId = root.ownResource := by
  obtain ⟨new, _, hnodes, -, hhandle, hresource, -, hline, -⟩ := ha.exists_withRoot hroot
  have hid : new.entityId = root.id := congrArg Prod.fst hline
  have hnew : new ∈ (o.withRoot root).nodes := by simp [hnodes]
  obtain ⟨m, hm, rfl, hmid, ⟨hmresource, hfirst⟩ | ⟨hnone, -⟩⟩ := hhost
  · rw [hnodes, List.mem_append, List.mem_singleton] at hm
    rcases hm with hm | rfl
    · exact .inr ⟨m, hm, rfl, hmid, hmresource⟩
    · refine .inl ⟨hhandle, fun n hn hnid hnresource => ?_⟩
      have hle := hfirst n (by simp [hnodes, hn]) hnid hnresource
      have hlt := ha.handle_lt n hn
      rw [hhandle] at hle
      exact absurd hlt (Nat.not_lt.mpr hle)
  · exact absurd hresource (hnone new hnew hid)

/-- The tree of a root that was just drawn is drawn below the first node that
shows the root in its resource. -/
theorem Arena.exists_host (ha : o.Arena) (hroot : root.hasMembers = false) :
    ∃ p, (o.withRoot root).IsHost root.id root.ownResource p ∧
      (o.withRoot root).drawTree root root.ownResource = o.withTree root p := by
  obtain ⟨n, asked, hnodes, -, hhandle, hresource, -, hline, -⟩ := ha.exists_withRoot hroot
  have hid : n.entityId = root.id := congrArg Prod.fst hline
  obtain ⟨p, hfor, hhost⟩ :=
    (ha.withRoot root).exists_parentFor (n := n) (by simp [hnodes]) root.ownResource
  rw [hid] at hfor hhost
  refine ⟨p, hhost, ?_⟩
  rw [drawTree, hfor, Outline.graft, graftAll_eq_drawPlan]
  rfl

end Outline

end ContentConsole
