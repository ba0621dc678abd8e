import ContentConsole.Proofs.Outline.Action

set_option autoImplicit false
set_option relaxedAutoImplicit false

/-!
Drawing without replacement, given in full beforehand: which nodes a plan adds, with which
handles, and which effects it asks for. Main statement: `draw_eq_layout`, by which drawing an
entity changes an outline in nothing else.
-/
namespace ContentConsole

def Node.adoptAll (parent : Option Handle) (children : List Handle) (n : Node) : Node :=
  if some n.handle = parent then { n with children := n.children ++ children } else n

namespace Node

variable {parent : Option Handle} {children : List Handle} {n : Node}

@[simp] theorem adoptAll_handle : (n.adoptAll parent children).handle = n.handle := by
  unfold adoptAll
  split <;> rfl

@[simp] theorem adoptAll_nil : n.adoptAll parent [] = n := by
  unfold adoptAll
  split <;> simp

theorem adoptAll_of_ne (h : parent ≠ some n.handle) : n.adoptAll parent children = n :=
  if_neg h.symm

theorem adoptAll_adopt (child : Handle) :
    (n.adopt parent child).adoptAll parent children = n.adoptAll parent (child :: children) := by
  unfold adoptAll
  rw [adopt_handle]
  unfold adopt
  split <;> simp

end Node

def Place.opens (at' : Place) (keys : OpenKeys) (e : Entity) : Bool :=
  at'.isExpandable && decide ((Outline.freshNode at' e).key ∈ keys)

namespace Plan

def size : Plan → Nat
  | .done => 0
  | .node _ _ below rest => 1 + below.size + rest.size

def tops (next : Handle) : Plan → List Handle
  | .done => []
  | .node _ _ below rest => next :: rest.tops (next + 1 + below.size)

def nodeFor (at' : Place) (keys : OpenKeys) (next : Handle) (e : Entity) (uploads : Bool)
    (below : Plan) : Node :=
  { Outline.freshNode at' e with
    handle := next
    children := below.tops (next + 1)
    expansion := if at'.opens keys e then .fetching else (Outline.freshNode at' e).expansion
    upload := if uploads then .pending else .notRequired }

@[simp] theorem nodeFor_handle (at' : Place) (keys : OpenKeys) (next : Handle) (e : Entity)
    (uploads : Bool) (below : Plan) : (nodeFor at' keys next e uploads below).handle = next := rfl

def effectsFor (at' : Place) (keys : OpenKeys) (next : Handle) (e : Entity)
    (uploads : Bool) : List Effect :=
  (if at'.opens keys e then [.fetchChildren next e.id (Outline.effectiveResource at' e)] else []) ++
    if uploads then [.upload next e] else []

/-- All nodes in preorder, with handles that follow one another from `next` on. -/
def nodes (at' : Place) (keys : OpenKeys) (next : Handle) : Plan → List Node
  | .done => []
  | .node e uploads below rest =>
    nodeFor at' keys next e uploads below :: below.nodes (at'.below next e.id) keys (next + 1) ++
      rest.nodes at' keys (next + 1 + below.size)

def effects (at' : Place) (keys : OpenKeys) (next : Handle) : Plan → List Effect
  | .done => []
  | .node e uploads below rest =>
    effectsFor at' keys next e uploads ++ below.effects (at'.below next e.id) keys (next + 1) ++
      rest.effects at' keys (next + 1 + below.size)

theorem nodes_handle (at' : Place) (keys : OpenKeys) (next : Handle) (plan : Plan) :
    (plan.nodes at' keys next).map Node.handle = List.range' next plan.size := by
  induction plan generalizing at' next with
  | done => rfl
  | node e uploads below rest ihBelow ihRest =>
    have hsplit : List.range' next (1 + below.size + rest.size) =
        next :: (List.range' (next + 1) below.size ++
          List.range' (next + 1 + below.size) rest.size) := by
      rw [List.range'_append_1, Nat.add_assoc, Nat.add_comm 1, List.range'_succ]
    rw [nodes, size, hsplit]
    simp only [List.cons_append, List.map_cons, List.map_append, ihBelow, ihRest, nodeFor_handle]

theorem le_handle {at' : Place} {keys : OpenKeys} {next : Handle} {plan : Plan} {n : Node}
    (hn : n ∈ plan.nodes at' keys next) : next ≤ n.handle := by
  have hmem : n.handle ∈ (plan.nodes at' keys next).map Node.handle := List.mem_map_of_mem hn
  rw [nodes_handle, List.mem_range'_1] at hmem
  exact hmem.1

end Plan

namespace Outline

variable {o : Outline}

/-- The outline with all nodes of a plan drawn at a place, nothing replaced. -/
def layout (o : Outline) (at' : Place) (plan : Plan) : Outline :=
  { o with
    nodes := o.nodes.map (Node.adoptAll at'.parent (plan.tops o.nextHandle)) ++
      plan.nodes at' o.openKeys o.nextHandle
    roots := if at'.parent = none then o.roots ++ plan.tops o.nextHandle else o.roots
    nextHandle := o.nextHandle + plan.size
    outbox := o.outbox ++ plan.effects at' o.openKeys o.nextHandle }

theorem isLive_layout {at' : Place} {plan : Plan} {x : Handle} (hx : o.isLive x = true) :
    (o.layout at' plan).isLive x = true := by
  obtain ⟨n, hn, rfl⟩ := isLive_iff.mp hx
  exact isLive_iff.mpr ⟨_, List.mem_append_left _ (List.mem_map_of_mem hn), Node.adoptAll_handle⟩

theorem layout_done (at' : Place) : o.layout at' .done = o := by
  have hnodes : o.nodes.map (Node.adoptAll at'.parent []) = o.nodes :=
    List.map_id'' (fun _ => Node.adoptAll_nil) o.nodes
  simp [layout, Plan.tops, Plan.nodes, Plan.size, Plan.effects, hnodes]

private def extend (o : Outline) (parent : Option Handle) (n : Node)
    (effects : List Effect) : Outline :=
  { o with
    nodes := o.nodes.map (Node.adopt parent n.handle) ++ [n]
    roots := if parent = none then o.roots ++ [n.handle] else o.roots
    nextHandle := n.handle + 1
    outbox := o.outbox ++ effects }

private theorem push_extend (parent : Option Handle) (n : Node) (effects effects' : List Effect) :
    (o.extend parent n effects).push effects' = o.extend parent n (effects ++ effects') := by
  simp [extend, push]

private theorem update_extend (ha : o.Arena) (parent : Option Handle) {n m : Node}
    (effects : List Effect) {f : Node → Node} (hn : n.handle = o.nextHandle) (hm : f n = m)
    (hhandle : m.handle = n.handle) :
    (o.extend parent n effects).update o.nextHandle f = o.extend parent m effects := by
  have hold : (o.nodes.map (Node.adopt parent n.handle)).map
      (fun k => if k.handle = o.nextHandle then f k else k) =
        o.nodes.map (Node.adopt parent n.handle) := by
    rw [List.map_map]
    apply List.map_congr_left
    intro k hk
    have hne := Nat.ne_of_lt (ha.handle_lt k hk)
    rw [Function.comp_apply, Node.adopt_handle, if_neg hne]
  simp only [extend, update, List.map_append, hold, List.map_singleton, if_pos hn, hm, hhandle]

section

variable {at' : Place} (hreplaces : at'.replaces = false)
  (hparent : ∀ p, at'.parent = some p → o.isLive p = true)

include hreplaces hparent

private theorem placed_eq_extend (e : Entity) : o.placed at' e =
    o.extend at'.parent { freshNode at' e with handle := o.nextHandle } [] := by
  have hcleared : o.cleared at' e = o := by rw [cleared, hreplaces, if_neg Bool.false_ne_true]
  have hfound : o.foundParent (freshNode at' e) = at'.parent := by
    change at'.parent.filter o.isLive = at'.parent
    cases hp : at'.parent with
    | none => rfl
    | some p => rw [Option.filter, hparent p hp, if_pos rfl]
  rw [placed, hcleared, insert_eq, hfound, extend, List.append_nil]
  rfl

private theorem Arena.drawNode_eq_extend (ha : o.Arena) (e : Entity) (uploads : Bool) :
    o.drawNode at' e uploads =
      o.extend at'.parent (Plan.nodeFor at' o.openKeys o.nextHandle e uploads .done)
        (Plan.effectsFor at' o.openKeys o.nextHandle e uploads) := by
  have happend : (o.append at' e).2 =
      o.extend at'.parent (Plan.nodeFor at' o.openKeys o.nextHandle e false .done)
        (Plan.effectsFor at' o.openKeys o.nextHandle e false) := by
    have hopens : at'.opens o.openKeys e = o.opens at' e := rfl
    rw [ha.append_snd, placed_eq_extend hreplaces hparent, Plan.nodeFor, Plan.effectsFor, hopens]
    split
    · rw [update_extend ha at'.parent [] rfl rfl rfl, push_extend]
      rfl
    · rfl
  cases uploads with
  | false => exact happend
  | true =>
    have hlive : (o.append at' e).2.isLive o.nextHandle = true :=
      (isLive_append at' e).mpr (.inr rfl)
    rw [drawNode_true, Outline.stageUpload, if_pos hlive, happend,
      update_extend ha at'.parent _ rfl rfl rfl, push_extend]
    simp only [Plan.effectsFor, Bool.false_eq_true, if_false, List.append_nil, if_true]
    rfl

omit hreplaces in
private theorem layout_extend (ha : o.Arena) (e : Entity) (uploads : Bool) (below rest : Plan) :
    ((o.extend at'.parent (Plan.nodeFor at' o.openKeys o.nextHandle e uploads .done)
        (Plan.effectsFor at' o.openKeys o.nextHandle e uploads)).layout
          (at'.below o.nextHandle e.id) below).layout at' rest =
      o.layout at' (.node e uploads below rest) := by
  have hold : ∀ h, o.nextHandle ≤ h → at'.parent ≠ some h := by
    intro h hle hp
    exact Nat.not_lt.mpr hle (ha.isLive_lt (hparent h hp))
  have hnodes : ((o.nodes.map (Node.adopt at'.parent o.nextHandle)).map
      (Node.adoptAll (some o.nextHandle) (below.tops (o.nextHandle + 1)))).map
        (Node.adoptAll at'.parent (rest.tops (o.nextHandle + 1 + below.size))) =
      o.nodes.map
        (Node.adoptAll at'.parent ((Plan.node e uploads below rest).tops o.nextHandle)) := by
    rw [List.map_map, List.map_map]
    apply List.map_congr_left
    intro k hk
    have hne : some o.nextHandle ≠ some (k.adopt at'.parent o.nextHandle).handle := by
      rw [Node.adopt_handle]
      exact fun heq => Nat.ne_of_gt (ha.handle_lt k hk) (Option.some.inj heq)
    rw [Function.comp_apply, Function.comp_apply, Node.adoptAll_of_ne hne, Node.adoptAll_adopt]
    rfl
  have hself :
      ((Plan.nodeFor at' o.openKeys o.nextHandle e uploads .done).adoptAll (some o.nextHandle)
      (below.tops (o.nextHandle + 1))).adoptAll at'.parent
        (rest.tops (o.nextHandle + 1 + below.size)) =
        Plan.nodeFor at' o.openKeys o.nextHandle e uploads below := by
    have hbelow : (Plan.nodeFor at' o.openKeys o.nextHandle e uploads .done).adoptAll
        (some o.nextHandle)
        (below.tops (o.nextHandle + 1)) =
          Plan.nodeFor at' o.openKeys o.nextHandle e uploads below :=
      if_pos rfl
    rw [hbelow, Node.adoptAll_of_ne (hold _ (Nat.le_refl _))]
  have hinner : (below.nodes (at'.below o.nextHandle e.id) o.openKeys (o.nextHandle + 1)).map
      (Node.adoptAll at'.parent (rest.tops (o.nextHandle + 1 + below.size))) =
        below.nodes (at'.below o.nextHandle e.id) o.openKeys (o.nextHandle + 1) := by
    rw [List.map_congr_left (g := id), List.map_id]
    intro k hk
    exact Node.adoptAll_of_ne (hold _ (Nat.le_of_succ_le (Plan.le_handle hk)))
  have hbelow : (at'.below o.nextHandle e.id).parent = some o.nextHandle := rfl
  simp only [layout, extend, Outline.mk.injEq, Plan.nodeFor_handle, hbelow]
  refine ⟨?_, ?_, ?_, trivial, ?_, trivial⟩
  · rw [List.map_append, List.map_append, List.map_append, hnodes, hinner, List.map_singleton,
      List.map_singleton, hself]
    simp [Plan.nodes]
  · rw [if_neg (Option.some_ne_none _)]
    split <;> simp [Plan.tops]
  · simp only [Plan.size, Nat.add_assoc]
  · simp only [Plan.effects, List.append_assoc]

theorem Arena.drawPlan_eq_layout (ha : o.Arena) (plan : Plan) :
    o.drawPlan at' plan = o.layout at' plan := by
  induction plan generalizing o at' with
  | done => rw [Outline.drawPlan, layout_done]
  | node e uploads below rest ihBelow ihRest =>
    have ha₁ := ha.drawNode at' e uploads
    have hnew : (o.drawNode at' e uploads).isLive o.nextHandle = true :=
      (isLive_drawNode at' e uploads).mpr (.inr rfl)
    have hbelow : (o.drawNode at' e uploads).drawPlan (at'.below o.nextHandle e.id) below =
        (o.drawNode at' e uploads).layout (at'.below o.nextHandle e.id) below :=
      ihBelow hreplaces (fun p hp => Option.some.inj hp ▸ hnew) ha₁
    have hstays : ∀ p, at'.parent = some p →
        ((o.drawNode at' e uploads).drawPlan (at'.below o.nextHandle e.id) below).isLive p =
          true := by
      intro p hp
      rw [hbelow]
      refine isLive_layout ((isLive_drawNode at' e uploads).mpr (.inl ?_))
      rw [Outline.cleared, hreplaces]
      exact hparent p hp
    have hrest := ihRest hreplaces hstays (ha₁.drawPlan (at'.below o.nextHandle e.id) below)
    rw [Outline.drawPlan, hrest, hbelow, ha.drawNode_eq_extend hreplaces hparent]
    exact layout_extend hparent ha e uploads below rest

end

/-! The parent. -/

/--
The node `p` is the first that shows the entity in the resource, or the first that shows it at all
if none does so in the resource.
-/
def IsHost (o : Outline) (id : String) (resourceId : Option String) (p : Handle) : Prop :=
  ∃ n ∈ o.nodes, n.handle = p ∧ n.entityId = id ∧
    (n.resourceId = resourceId ∧
        (∀ m ∈ o.nodes, m.entityId = id → m.resourceId = resourceId → p ≤ m.handle) ∨
      (∀ m ∈ o.nodes, m.entityId = id → m.resourceId ≠ resourceId) ∧
        ∀ m ∈ o.nodes, m.entityId = id → p ≤ m.handle)

theorem IsHost.isLive {id : String} {resourceId : Option String} {p : Handle}
    (hhost : o.IsHost id resourceId p) : o.isLive p = true := by
  obtain ⟨n, hn, hp, -⟩ := hhost
  exact isLive_iff.mpr ⟨n, hn, hp⟩

private theorem find?_lowest {nodes : List Node}
    (hsorted : nodes.Pairwise fun m n => m.handle < n.handle) {q : Node → Bool} {n : Node} :
    nodes.find? q = some n ↔
      n ∈ nodes ∧ q n = true ∧ ∀ m ∈ nodes, q m = true → n.handle ≤ m.handle := by
  induction nodes with
  | nil => simp
  | cons k rest ih =>
    obtain ⟨hrise, hrest⟩ := List.pairwise_cons.mp hsorted
    rw [List.find?_cons]
    cases hk : q k with
    | true =>
      constructor
      · intro hfound
        cases hfound
        refine ⟨List.mem_cons_self .., hk, fun m hm _ => ?_⟩
        rcases List.mem_cons.mp hm with rfl | hm
        · exact Nat.le_refl _
        · exact Nat.le_of_lt (hrise m hm)
      · rintro ⟨hn, -, hlowest⟩
        have hle := hlowest k (List.mem_cons_self ..) hk
        rcases List.mem_cons.mp hn with rfl | hn
        · rfl
        · exact absurd (hrise n hn) (Nat.not_lt.mpr hle)
    | false =>
      rw [ih hrest]
      simp only [List.mem_cons, forall_eq_or_imp, hk, Bool.false_eq_true, false_implies, true_and]
      refine ⟨fun h => ⟨.inr h.1, h.2⟩, ?_⟩
      rintro ⟨rfl | hn, hq, hlowest⟩
      · rw [hk] at hq
        cases hq
      · exact ⟨hn, hq, hlowest⟩

theorem Arena.parentFor_eq_some_iff (ha : o.Arena) {id : String} {resourceId : Option String}
    {p : Handle} : o.parentFor id resourceId = some p ↔ o.IsHost id resourceId p := by
  have hsame : (o.showing id).find? (fun n => n.resourceId == resourceId) =
      o.nodes.find? fun n => decide (n.entityId = id ∧ n.resourceId = resourceId) := by
    simp [showing, List.find?_filter]
  have hany : (o.showing id).head? = o.nodes.find? fun n => decide (n.entityId = id) := by
    simp only [showing, List.head?_filter, beq_eq_decide]
  rw [parentFor, hsame, hany, IsHost]
  cases hfound : o.nodes.find? fun n => decide (n.entityId = id ∧ n.resourceId = resourceId) with
  | some n =>
    obtain ⟨hn, hboth, hlowest⟩ := (find?_lowest ha.ascending).mp hfound
    simp only [decide_eq_true_eq, and_imp] at hboth hlowest
    simp only [Option.orElse_some, Option.map_some, Option.some.injEq]
    constructor
    · rintro rfl
      exact ⟨n, hn, rfl, hboth.1, .inl ⟨hboth.2, hlowest⟩⟩
    · rintro ⟨m, hm, rfl, hid, ⟨hres, hfirst⟩ | ⟨hnone, -⟩⟩
      · exact Nat.le_antisymm (hlowest m hm hid hres) (hfirst n hn hboth.1 hboth.2)
      · exact absurd hboth.2 (hnone n hn hboth.1)
  | none =>
    have hnone : ∀ m ∈ o.nodes, m.entityId = id → m.resourceId ≠ resourceId := by
      intro m hm hid hres
      simpa [hid, hres] using List.find?_eq_none.mp hfound m hm
    simp only [Option.orElse_none, Option.map_eq_some_iff, find?_lowest ha.ascending,
      decide_eq_true_eq]
    constructor
    · rintro ⟨n, ⟨hn, hid, hlowest⟩, rfl⟩
      exact ⟨n, hn, rfl, hid, .inr ⟨hnone, hlowest⟩⟩
    · rintro ⟨n, hn, rfl, hid, ⟨hres, -⟩ | ⟨-, hlowest⟩⟩
      · exact absurd hres (hnone n hn hid)
      · exact ⟨n, ⟨hn, hid, hlowest⟩, rfl⟩

theorem Arena.exists_parentFor (ha : o.Arena) {n : Node} (hn : n ∈ o.nodes)
    (resourceId : Option String) :
    ∃ p, o.parentFor n.entityId resourceId = some p ∧ o.IsHost n.entityId resourceId p := by
  have hshows : n ∈ o.showing n.entityId := List.mem_filter.mpr ⟨hn, beq_self_eq_true _⟩
  cases hfor : o.parentFor n.entityId resourceId with
  | none =>
    have hempty : o.showing n.entityId = [] := by
      rw [parentFor, Option.map_eq_none_iff] at hfor
      cases hsame : (o.showing n.entityId).find? fun m => m.resourceId == resourceId with
      | none => simpa [hsame] using hfor
      | some m => simp [hsame] at hfor
    rw [hempty] at hshows
    cases hshows
  | some p => exact ⟨p, rfl, ha.parentFor_eq_some_iff.mp hfor⟩

end Outline

/-! Uploads. -/

def Entity.HoldsFolder (e f : Entity) : Prop :=
  ∃ folders images files, e.kind = .folder folders images files ∧ f ∈ folders

namespace Plan

def uploaded : Plan → List Entity
  | .done => []
  | .node e uploads below rest => (if uploads then [e] else []) ++ below.uploaded ++ rest.uploaded

theorem uploaded_append (plan plan' : Plan) :
    (plan.append plan').uploaded = plan.uploaded ++ plan'.uploaded := by
  induction plan with
  | done => rfl
  | node e uploads below rest _ ihRest => simp only [append, uploaded, ihRest, List.append_assoc]

theorem uploaded_flat (es : List Entity) : (flat es).uploaded = [] := by
  induction es with
  | nil => rfl
  | cons e es ih => simp [flat, uploaded, ih]

theorem exists_upload_iff {at' : Place} {keys : OpenKeys} {next : Handle} {plan : Plan}
    {x : Entity} : (∃ h, .upload h x ∈ plan.effects at' keys next) ↔ x ∈ plan.uploaded := by
  induction plan generalizing at' next with
  | done => simp [effects, uploaded]
  | node e uploads below rest ihBelow ihRest =>
    have hfor : (∃ h, .upload h x ∈ effectsFor at' keys next e uploads) ↔
        x ∈ if uploads = true then [e] else [] := by
      unfold effectsFor
      cases uploads <;> cases at'.opens keys e <;> simp
    simp only [effects, uploaded, List.mem_append, exists_or, hfor, ihBelow, ihRest]

private theorem reaches_iff {e x : Entity} (he : e.type ≠ .image) (he' : e.type ≠ .file) :
    Relation.ReflTransGen Entity.HoldsFolder e x ∧ (x.type = .image ∨ x.type = .file) ↔
      ∃ f, e.HoldsFolder f ∧
        Relation.ReflTransGen Entity.HoldsFolder f x ∧ (x.type = .image ∨ x.type = .file) := by
  rw [Relation.ReflTransGen.cases_head_iff]
  constructor
  · rintro ⟨rfl | ⟨f, hf, hrest⟩, htype⟩
    · exact absurd htype (not_or.mpr ⟨he, he'⟩)
    · exact ⟨f, hf, hrest, htype⟩
  · rintro ⟨f, hf, hrest, htype⟩
    exact ⟨.inr ⟨f, hf, hrest⟩, htype⟩

private theorem holdsFolder_iff {e f : Entity} : e.HoldsFolder f ↔
    match e.kind with
    | .folder folders _ _ => f ∈ folders
    | _ => False := by
  unfold Entity.HoldsFolder
  cases e.kind <;> simp

mutual

theorem mem_uploaded_ofEntity (x : Entity) : ∀ e : Entity, x ∈ (ofEntity e).uploaded ↔
    Relation.ReflTransGen Entity.HoldsFolder e x ∧ (x.type = .image ∨ x.type = .file)
  | ⟨id, name, resourceId, kind, children⟩ => by
    cases kind with
    | folder folders images files =>
      have hfolders := mem_uploaded_ofFolders x folders
      rw [reaches_iff (by simp [Entity.type, Kind.type]) (by simp [Entity.type, Kind.type])]
      simpa [ofEntity, uploaded, uploaded_append, uploaded_flat, holdsFolder_iff] using hfolders
    | group users =>
      rw [reaches_iff (by simp [Entity.type, Kind.type]) (by simp [Entity.type, Kind.type])]
      simp [ofEntity, uploaded, uploaded_flat, holdsFolder_iff]
    | element typeName elements =>
      have helements := uploaded_ofElements elements
      rw [reaches_iff (by simp [Entity.type, Kind.type]) (by simp [Entity.type, Kind.type])]
      simp [ofEntity, uploaded, helements, holdsFolder_iff]
    | image | file =>
      rw [Relation.ReflTransGen.cases_head_iff]
      simp only [ofEntity, uploaded, holdsFolder_iff, if_true, List.append_nil, List.mem_singleton,
        false_and, exists_false, or_false]
      refine ⟨?_, fun h => h.1.symm⟩
      rintro rfl
      simp [Entity.type, Kind.type]
    | resource | component | content | user =>
      rw [reaches_iff (by simp [Entity.type, Kind.type]) (by simp [Entity.type, Kind.type])]
      simp [ofEntity, uploaded, holdsFolder_iff]

theorem mem_uploaded_ofFolders (x : Entity) : ∀ es : List Entity, x ∈ (ofFolders es).uploaded ↔
    ∃ e ∈ es, Relation.ReflTransGen Entity.HoldsFolder e x ∧ (x.type = .image ∨ x.type = .file)
  | [] => by simp [ofFolders, uploaded]
  | e :: es => by
    rw [ofFolders, uploaded_append, List.mem_append, mem_uploaded_ofEntity x e,
      mem_uploaded_ofFolders x es]
    simp

theorem uploaded_ofElements : ∀ es : List Entity, (ofElements es).uploaded = []
  | [] => by rw [ofElements, uploaded]
  | e :: es => by
    have hrest := uploaded_ofElements es
    rw [ofElements]
    cases htype : e.type with
    | element =>
      have hnone : (ofEntity e).uploaded = [] := by
        refine List.eq_nil_iff_forall_not_mem.mpr fun x hx => ?_
        rw [mem_uploaded_ofEntity x e, reaches_iff (by simp [htype]) (by simp [htype])] at hx
        obtain ⟨f, ⟨folders, images, files, hkind, -⟩, -⟩ := hx
        simp [Entity.type, hkind, Kind.type] at htype
      simp only [uploaded_append, hnone, hrest, List.append_nil]
    | content => simp [uploaded, hrest]
    | resource | component | folder | image | file | user | group => exact hrest

end

end Plan

namespace Outline

variable {o : Outline}

theorem drawAt_fst (at' : Place) : ∀ e : Entity, (o.drawAt at' e).1 =
    if e.type = .folder ∨ e.type = .group ∨ e.type = .element then .whole o.nextHandle
    else .flat o.nextHandle
  | ⟨id, name, resourceId, kind, children⟩ => by
    rw [drawAt]
    cases kind
      <;> simp only [append_fst, Entity.type, Kind.type, reduceCtorEq, or_self, or_true, true_or,
      if_true, if_false]

/--
Drawing without replacement removes nothing. It adds the nodes of the entity's plan in preorder
under the handles that come next, the first of them below the first node that shows the parent, in
the resource if it can, or else as a root. Uploads are asked for the entity itself and for what
stands where a folder holds folders, if it is an image or a file.
-/
theorem draw_eq_plan (openKeys : OpenKeys) (actions : List Action) (e : Entity)
    (parentId resourceId : Option String) (isExpandable : Bool) :
    let o := (start openKeys).run actions
    let at' : Place :=
      ⟨parentId.bind fun id => o.parentFor id resourceId, parentId, resourceId, false, isExpandable⟩
    let plan := Plan.ofEntity e
    let new := plan.nodes at' o.openKeys o.nextHandle
    let asked := plan.effects at' o.openKeys o.nextHandle
    o.draw e parentId resourceId false isExpandable =
        (if e.type = .folder ∨ e.type = .group ∨ e.type = .element then .whole o.nextHandle
          else .flat o.nextHandle,
        { o with
          nodes := o.nodes.map (Node.adopt at'.parent o.nextHandle) ++ new
          roots := if at'.parent = none then o.roots ++ [o.nextHandle] else o.roots
          nextHandle := o.nextHandle + plan.size
          outbox := o.outbox ++ asked }) ∧
      new.map Node.handle = List.range' o.nextHandle plan.size ∧
      (∀ p, at'.parent = some p ↔ ∃ id, parentId = some id ∧ o.IsHost id resourceId p) ∧
      ∀ x, (∃ h, .upload h x ∈ asked) ↔
        Relation.ReflTransGen Entity.HoldsFolder e x ∧ (x.type = .image ∨ x.type = .file) := by
  intro o at' plan new asked
  have ha : o.Arena := (arena_start openKeys).run actions
  have hhost : ∀ p, at'.parent = some p ↔ ∃ id, parentId = some id ∧ o.IsHost id resourceId p := by
    intro p
    change (parentId.bind fun id => o.parentFor id resourceId) = some p ↔ _
    rw [Option.bind_eq_some_iff]
    exact exists_congr fun id => and_congr_right fun _ => ha.parentFor_eq_some_iff
  have hparent : ∀ p, at'.parent = some p → o.isLive p = true := by
    intro p hp
    obtain ⟨id, -, n, hn, hnp, -⟩ := (hhost p).mp hp
    exact isLive_iff.mpr ⟨n, hn, hnp⟩
  have htops : plan.tops o.nextHandle = [o.nextHandle] := by
    obtain ⟨uploads, below, hplan⟩ := ofEntity_eq e
    change (Plan.ofEntity e).tops o.nextHandle = _
    rw [hplan]
    rfl
  have hdrawn : (o.drawAt at' e).2 = o.layout at' plan := by
    rw [drawAt_eq_drawPlan, ha.drawPlan_eq_layout rfl hparent]
  refine ⟨Prod.ext (drawAt_fst at' e) ?_, Plan.nodes_handle .., hhost, fun x => ?_⟩
  · change (o.drawAt at' e).2 = _
    rw [hdrawn, layout, htops]
    rfl
  · exact Plan.exists_upload_iff.trans (Plan.mem_uploaded_ofEntity x e)

/-- An image that stands among the folders of a folder is uploaded, though
what is drawn is the folder. -/
theorem draw_uploads_inner :
    let i : Entity := ⟨"i", "", none, .image, []⟩
    let f : Entity := ⟨"f", "", none, .folder [i] [] [], []⟩
    f.type ≠ .image ∧ f.type ≠ .file ∧
      .upload 1 i ∈ ((start .empty).draw f none none false false).2.outbox := by
  refine ⟨by decide, by decide, ?_⟩
  exact List.mem_singleton.mpr rfl

end Outline

end ContentConsole
