import ContentConsole.Proofs.Outline.BranchDrawing
import Mathlib.Logic.Function.Iterate

set_option autoImplicit false
set_option relaxedAutoImplicit false

/-!
What grows below a node that opens, when a server answers every request for children and always in
the same way. Main statements: `Rests.hasBranch_regrown`, by which a closed node with nothing
below it grows in its place as its bare node grows alone, and `Stands.exists_rests`, by which
closing a node takes it back to there.
-/
namespace ContentConsole

/-- The keys that are drawn below a node with some key, in as many rounds as it takes. -/
inductive Grows (kids : String → Option String → List Entity) (top : OpenKey) : OpenKey → Prop
  | first {key : OpenKey} :
      key ∈ Outline.drawnKeys top.entityId top.resourceId (kids top.entityId top.resourceId) →
      Grows kids top key
  | later {above key : OpenKey} : Grows kids top above →
      key ∈ Outline.drawnKeys above.entityId above.resourceId
        (kids above.entityId above.resourceId) →
      Grows kids top key

theorem Effect.fetch?_moved (h next : Handle) (e : Effect) :
    (e.moved h next).fetch? = e.fetch?.map fun wanted =>
      (Outline.moved h next wanted.1, wanted.2) := by
  cases e <;> rfl

theorem Effect.upload?_moved (h next : Handle) (e : Effect) :
    (e.moved h next).upload? = e.upload?.map fun staged =>
      (Outline.moved h next staged.1, staged.2) := by
  cases e <;> rfl

namespace Outline

/-! One round of a server that never fails. -/

def settleAll (o : Outline) (staged : List (Handle × Entity)) : Outline :=
  staged.foldl (fun o w => (o.settleUpload w.1 (.ok ())).2) o

def receiveAll (kids : String → Option String → List Entity) (o : Outline)
    (wanted : List (Handle × String × Option String)) : Outline :=
  wanted.foldl (fun o w => (o.receive w.1 (kids w.2.1 w.2.2)).2) o

/-- The outline after a round in which every effect succeeds. -/
def served (kids : String → Option String → List Entity) (o : Outline) : Outline :=
  receiveAll kids ({ o with outbox := [] }.settleAll (o.outbox.filterMap Effect.upload?))
    (o.outbox.filterMap Effect.fetch?)

variable {kids : String → Option String → List Entity} {o o' b : Outline}

theorem served_of_outbox_eq_nil (hempty : o.outbox = []) : o.served kids = o := by
  obtain ⟨nodes, roots, nextHandle, openKeys, outbox, selected⟩ := o
  cases hempty
  rfl

/--
The outline `o'` comes after `o` with the same keys open: no handle is given twice, and what
keeps its handle keeps its key.
-/
structure Later (o o' : Outline) : Prop where
  openKeys : o'.openKeys = o.openKeys
  nextHandle_le : o.nextHandle ≤ o'.nextHandle
  exists_old : ∀ n' ∈ o'.nodes, n'.handle < o.nextHandle →
    ∃ n ∈ o.nodes, n.handle = n'.handle ∧ n.key = n'.key

theorem Later.refl (o : Outline) : o.Later o :=
  ⟨rfl, Nat.le_refl _, fun n hn _ => ⟨n, hn, rfl, rfl⟩⟩

theorem later_update {h : Handle} {f : Node → Node}
    (hf : ∀ n, (f n).handle = n.handle ∧ (f n).key = n.key) : o.Later (o.update h f) where
  openKeys := rfl
  nextHandle_le := Nat.le_refl _
  exists_old := by
    intro n' hn' _
    obtain ⟨n, hn, rfl⟩ := mem_update_nodes.mp hn'
    refine ⟨n, hn, ?_⟩
    split
    · exact ⟨(hf n).1.symm, (hf n).2.symm⟩
    · exact ⟨rfl, rfl⟩

theorem Later.trans {o'' : Outline} (h : o.Later o') (h' : o'.Later o'') : o.Later o'' where
  openKeys := h'.openKeys.trans h.openKeys
  nextHandle_le := Nat.le_trans h.nextHandle_le h'.nextHandle_le
  exists_old := by
    intro n'' hn'' hlt
    obtain ⟨n', hn', hhandle', hkey'⟩ :=
      h'.exists_old n'' hn'' (Nat.lt_of_lt_of_le hlt h.nextHandle_le)
    obtain ⟨n, hn, hhandle, hkey⟩ := h.exists_old n' hn' (hhandle' ▸ hlt)
    exact ⟨n, hn, hhandle.trans hhandle', hkey.trans hkey'⟩

theorem Drawing.later {anchor : Option Handle} {keys : List OpenKey} (d : o.Drawing anchor keys o')
    (ha : o.Arena) : o.Later o' where
  openKeys := by
    have hpast := congrArg Outline.openKeys d.past
    rwa [(ha.evict_eq_restrict keys).2] at hpast
  nextHandle_le := d.nextHandle_le
  exists_old := by
    intro n' hn' hlt
    obtain ⟨n, hn, htrim⟩ := d.exists_mem ha hn' hlt
    obtain ⟨hhandle, -, hkey, -⟩ := Node.eq_of_trim_eq htrim
    exact ⟨n, hn, hhandle, hkey⟩

theorem Arena.later_receive (ha : o.Arena) (h : Handle) (children : List Entity) :
    o.Later (o.receive h children).2 := by
  rcases o.receive_snd h children with heq | ⟨n, -, -, heq⟩
  · rw [heq]
    exact .refl o
  · rw [heq]
    exact ((drawing_receiveEach ha n children).later ha).trans (later_update fun _ => ⟨rfl, rfl⟩)

theorem later_settleAll (o : Outline) (staged : List (Handle × Entity)) :
    o.Later (o.settleAll staged) := by
  induction staged generalizing o with
  | nil => exact .refl o
  | cons w staged ih =>
    have hfirst : o.Later (o.settleUpload w.1 (.ok ())).2 := by
      rw [settleUpload_ok]
      exact later_update fun _ => ⟨rfl, rfl⟩
    exact hfirst.trans (ih _)

theorem Arena.settleAll (ha : o.Arena) (staged : List (Handle × Entity)) :
    (o.settleAll staged).Arena := by
  induction staged generalizing o with
  | nil => exact ha
  | cons w staged ih => exact ih (ha.settleUpload w.1 (.ok ()))

theorem Arena.later_receiveAll (ha : o.Arena) (kids : String → Option String → List Entity)
    (wanted : List (Handle × String × Option String)) :
    (receiveAll kids o wanted).Arena ∧ o.Later (receiveAll kids o wanted) := by
  induction wanted generalizing o with
  | nil => exact ⟨ha, .refl o⟩
  | cons w wanted ih =>
    obtain ⟨harena, hlater⟩ := ih (ha.receive w.1 (kids w.2.1 w.2.2))
    exact ⟨harena, (ha.later_receive w.1 (kids w.2.1 w.2.2)).trans hlater⟩

theorem Arena.taken (ha : o.Arena) : ({ o with outbox := [] }).Arena :=
  { ha with outbox_live := fun _ he => absurd he List.not_mem_nil }

theorem later_settled (o : Outline) :
    o.Later ({ o with outbox := [] }.settleAll (o.outbox.filterMap Effect.upload?)) := by
  have htaken : o.Later { o with outbox := [] } :=
    ⟨rfl, Nat.le_refl _, fun n hn _ => ⟨n, hn, rfl, rfl⟩⟩
  exact htaken.trans (later_settleAll _ _)

theorem Arena.later_served (ha : o.Arena) (kids : String → Option String → List Entity) :
    (o.served kids).Arena ∧ o.Later (o.served kids) := by
  obtain ⟨harena, hlater⟩ :=
    (ha.taken.settleAll (o.outbox.filterMap Effect.upload?)).later_receiveAll
    kids (o.outbox.filterMap Effect.fetch?)
  exact ⟨harena, (later_settled o).trans hlater⟩

theorem Arena.later_iterate_served (ha : o.Arena) (rounds : Nat) :
    o.Later ((served kids)^[rounds] o) := by
  induction rounds generalizing o with
  | zero => exact .refl o
  | succ rounds ih =>
    obtain ⟨harena, hlater⟩ := ha.later_served kids
    exact hlater.trans (ih harena)

def Inquires (o : Outline) (top : Node) (next : Handle)
    (wanted : List (Handle × String × Option String)) : Prop :=
  ∀ w ∈ wanted, Inside top.handle next w.1 ∧ w.1 < o.nextHandle ∧
    ∀ n ∈ o.nodes, n.handle = w.1 → n.entityId = w.2.1 ∧ n.resourceId = w.2.2

theorem Inquires.later {top : Node} {next : Handle}
    {wanted : List (Handle × String × Option String)} (hw : o.Inquires top next wanted)
    (h : o.Later o') : o'.Inquires top next wanted := by
  intro w hmem
  obtain ⟨hinside, hlt, hshows⟩ := hw w hmem
  refine ⟨hinside, Nat.lt_of_lt_of_le hlt h.nextHandle_le, fun n' hn' hhandle' => ?_⟩
  obtain ⟨n, hn, hhandle, hkey⟩ := h.exists_old n' hn' (hhandle' ▸ hlt)
  obtain ⟨hid, -, hresource⟩ := OpenKey.mk.inj hkey
  rw [← hid, ← hresource]
  exact hshows n hn (hhandle.trans hhandle')

namespace HasBranch

variable {top : Node} {next : Handle}

section

variable {grown : OpenKey → Prop}

theorem settleAll (hb : o.HasBranch b top next grown) {staged : List (Handle × Entity)}
    (hinside : ∀ w ∈ staged, Inside top.handle next w.1) :
    (o.settleAll staged).HasBranch
      (b.settleAll (staged.map fun w => (moved top.handle next w.1, w.2)))
      top next grown := by
  induction staged generalizing o b with
  | nil => exact hb
  | cons w staged ih =>
    rw [List.forall_mem_cons] at hinside
    exact ih (hb.settleUpload hinside.1) hinside.2

theorem taken (hb : o.HasBranch b top next grown) :
    ({ o with outbox := [] }).HasBranch { b with outbox := [] } top next grown := by
  obtain ⟨hb, rfl⟩ := hb
  exact {
    hb with
    arena := hb.arena.taken
    alone := hb.alone.taken
    outbox_inside := fun _ he => absurd he List.not_mem_nil
    asked := fun _ _ _ he => absurd he List.not_mem_nil
    branch_eq := rfl }

end

theorem grows (hb : o.HasBranch b top next (Grows kids top.key)) {n : Node} (hn : n ∈ o.nodes)
    (hinside : Inside top.handle next n.handle) :
    ∀ key ∈ drawnKeys n.entityId n.resourceId (kids n.entityId n.resourceId),
      Grows kids top.key key := by
  intro key hkey
  rcases hinside with htop | hnew
  · obtain ⟨m, hm, hhandle, hbare⟩ := hb.exists_top
    obtain rfl := hb.arena.eq_of_handle hn hm (htop.trans hhandle.symm)
    exact .first (Node.key_eq_of_bare hbare ▸ hkey)
  · exact .later ((hb.grown_iff n hn).mpr hnew) hkey

theorem receiveAll (hb : o.HasBranch b top next (Grows kids top.key))
    {wanted : List (Handle × String × Option String)} (hw : o.Inquires top next wanted) :
    (receiveAll kids o wanted).HasBranch
      (receiveAll kids b (wanted.map fun w => (moved top.handle next w.1, w.2))) top next
      (Grows kids top.key) := by
  induction wanted generalizing o b with
  | nil => exact hb
  | cons w wanted ih =>
    obtain ⟨hinside, -, hshows⟩ := hw w (List.mem_cons_self ..)
    have hreceived := hb.receive hinside (kids w.2.1 w.2.2) fun n hn hhandle => by
      obtain ⟨hid, hresource⟩ := hshows n hn hhandle
      rw [← hid, ← hresource]
      exact hb.grows hn (hhandle ▸ hinside)
    have hrest : o.Inquires top next wanted := fun w' hw' => hw w' (List.mem_cons_of_mem _ hw')
    exact ih hreceived (hrest.later (hb.arena.later_receive _ _))

theorem outbox (hb : o.HasBranch b top next (Grows kids top.key)) :
    b.outbox = o.outbox.map (Effect.moved top.handle next) := by
  obtain ⟨-, rfl⟩ := hb
  rfl

theorem filterMap_outbox {α : Type} (hb : o.HasBranch b top next (Grows kids top.key))
    {request? : Effect → Option (Handle × α)}
    (hmoved : ∀ e : Effect, request? (e.moved top.handle next) =
      (request? e).map fun w => (moved top.handle next w.1, w.2)) :
    b.outbox.filterMap request? =
      (o.outbox.filterMap request?).map fun w => (moved top.handle next w.1, w.2) := by
  rw [hb.outbox, List.filterMap_map, List.map_filterMap]
  exact List.filterMap_congr fun e _ => hmoved e

theorem inquires (hb : o.HasBranch b top next (Grows kids top.key)) :
    o.Inquires top next (o.outbox.filterMap Effect.fetch?) := by
  intro w hw
  obtain ⟨e, he, hfetch⟩ := List.mem_filterMap.mp hw
  cases e <;> cases hfetch
  exact ⟨hb.outbox_inside _ he _ rfl, hb.arena.isLive_lt (hb.arena.outbox_live _ he _ rfl),
    hb.asked _ _ _ he⟩

theorem served (hb : o.HasBranch b top next (Grows kids top.key)) :
    (o.served kids).HasBranch (b.served kids) top next (Grows kids top.key) := by
  have hinside : ∀ w ∈ o.outbox.filterMap Effect.upload?, Inside top.handle next w.1 := by
    intro w hw
    obtain ⟨e, he, hupload⟩ := List.mem_filterMap.mp hw
    cases e <;> cases hupload
    exact hb.outbox_inside _ he _ rfl
  rw [Outline.served, Outline.served, hb.filterMap_outbox (Effect.upload?_moved top.handle next),
    hb.filterMap_outbox (Effect.fetch?_moved top.handle next)]
  exact (hb.taken.settleAll hinside).receiveAll (hb.inquires.later (later_settled o))

theorem iterate_served (hb : o.HasBranch b top next (Grows kids top.key)) (rounds : Nat) :
    ((Outline.served kids)^[rounds] o).HasBranch ((Outline.served kids)^[rounds] b) top next
      (Grows kids top.key) := by
  induction rounds generalizing o b with
  | zero => exact hb
  | succ rounds ih => exact ih hb.served

end HasBranch

/-! What is shown. -/

/-- A node and all below it in preorder: how deep each stands, its entity,
its type and its expansion. -/
def shown (o : Outline) (h : Handle) : List (Nat × String × String × Expansion) :=
  (o.listing o.nodes.length 0 h).map fun line =>
    (line.1, line.2.entityId, line.2.typeName, line.2.expansion)

namespace HasBranch

variable {top : Node} {next : Handle} {grown : OpenKey → Prop}

theorem listing (hb : o.HasBranch b top next grown) {x : Handle} (hx : Inside top.handle next x)
    (levels depth : Nat) : b.listing levels depth (moved top.handle next x) =
      (o.listing levels depth x).map (Prod.map id (Node.moved top.handle next)) := by
  induction levels generalizing depth x with
  | zero => rfl
  | succ levels ih =>
    rw [Outline.listing, Outline.listing, hb.node? hx]
    cases hnode : o.node? x with
    | none => rfl
    | some n =>
      obtain ⟨hn, rfl⟩ := mem_of_node? hnode
      dsimp only [Option.map_some]
      rw [n.moved_children, List.flatMap_map, List.map_cons, List.map_flatMap]
      congr 1
      refine List.flatMap_congr fun c hc => ?_
      have hchild := (hb.arena.mem_children n hn c).mp hc
      exact ih (.inr ((hb.inside_iff _ _ hchild).mp hx)) (depth + 1)

theorem shown (hb : o.HasBranch b top next grown) : b.shown 0 = o.shown top.handle := by
  have hlength : b.nodes.length ≤ o.nodes.length := by
    obtain ⟨-, rfl⟩ := hb
    rw [branch, List.length_map]
    exact List.length_filter_le _ _
  have hline : ∀ line : Nat × Node, ((Prod.map id (Node.moved top.handle next) line).1,
      (Prod.map id (Node.moved top.handle next) line).2.entityId,
      (Prod.map id (Node.moved top.handle next) line).2.typeName,
      (Prod.map id (Node.moved top.handle next) line).2.expansion) =
        (line.1, line.2.entityId, line.2.typeName, line.2.expansion) := by
    rintro ⟨depth, n⟩
    simp
  have hlisting := hb.listing (.inl rfl) o.nodes.length 0
  rw [moved_self] at hlisting
  rw [Outline.shown, Outline.shown, hb.arena_alone.listing_eq (Nat.le_refl _) hlength,
    hlisting, List.map_map]
  exact List.map_congr_left fun line _ => hline line

end HasBranch

/-! A node that opens. -/

def sprout (n : Node) (openKeys : OpenKeys) : Outline :=
  { nodes := [n.bare], roots := [0], nextHandle := 1, openKeys }

/-- What the bare node has grown into, alone, some rounds after it opened. -/
def regrown (kids : String → Option String → List Entity) (n : Node) (openKeys : OpenKeys)
    (rounds : Nat) : Outline :=
  (served kids)^[rounds] ((sprout n openKeys).openNode 0)

theorem arena_sprout (n : Node) (openKeys : OpenKeys) : (sprout n openKeys).Arena where
  ascending := List.pairwise_singleton _ _
  handle_lt := by simp [sprout, Node.bare]
  mem_children := by simp [sprout, Node.bare, IsChild]
  mem_roots := by simp [sprout, Node.bare, eq_comm]
  children_ascending := by simp [sprout, Node.bare]
  roots_ascending := List.pairwise_singleton _ _
  parent_live := by simp [sprout, Node.bare]
  parent_lt := by simp [sprout, Node.bare]
  outbox_live := by simp [sprout]
  selected_live := by simp [sprout]

theorem Arena.branch_eq_sprout (ha : o.Arena) {n : Node} (hn : n ∈ o.nodes)
    (hclosed : n.expansion = .collapsed) (hchildren : n.children = []) (hempty : o.outbox = []) :
    o.branch n.handle o.nextHandle = sprout n o.openKeys := by
  have hmoved : n.moved n.handle o.nextHandle = n.bare := by
    rw [Node.moved, if_pos rfl, hclosed, hchildren]
    rfl
  have honly : (o.nodes.filter fun m => isInside n.handle o.nextHandle m.handle) = [n] := by
    refine ha.filter_eq_singleton hn fun m hm => ?_
    rw [isInside_iff]
    constructor
    · rintro (htop | hnew)
      · exact ha.eq_of_handle hm hn htop
      · exact absurd (ha.handle_lt m hm) (Nat.not_lt.mpr hnew)
    · rintro rfl
      exact .inl rfl
  have hroots : (o.roots.filter fun r => decide (o.nextHandle ≤ r)) = [] := by
    refine List.filter_eq_nil_iff.mpr fun r hr => ?_
    obtain ⟨m, hm, rfl, -⟩ := (ha.mem_roots r).mp hr
    rw [decide_eq_true_iff]
    exact Nat.not_le.mpr (ha.handle_lt m hm)
  rw [branch, honly, hroots, hempty, Nat.sub_self, List.map_singleton, hmoved]
  rfl

theorem Arena.hasBranch_sprout (ha : o.Arena) {n : Node} (hn : n ∈ o.nodes)
    (hclosed : n.expansion = .collapsed) (hchildren : n.children = []) (hempty : o.outbox = [])
    {grown : OpenKey → Prop} (hnone : ∀ m ∈ o.nodes, ¬grown m.key) :
    o.HasBranch (sprout n o.openKeys) n o.nextHandle grown where
  arena := ha
  alone := by
    rw [ha.branch_eq_sprout hn hclosed hchildren hempty]
    exact arena_sprout n o.openKeys
  top_lt := ha.handle_lt n hn
  next_le := Nat.le_refl _
  exists_top := ⟨n, hn, rfl, rfl⟩
  grown_iff m hm := iff_of_false (hnone m hm) (Nat.not_le.mpr (ha.handle_lt m hm))
  inside_iff p c hc := by
    -- Nothing is new yet, and the top has no children.
    refine iff_of_false ?_ (Nat.not_le.mpr (ha.isLive_lt hc.isLive))
    rintro (rfl | hp)
    · exact absurd ((ha.mem_children n hn c).mpr hc) (hchildren ▸ List.not_mem_nil)
    · exact absurd (ha.isLive_lt (ha.isLive_of_isChild hc)) (Nat.not_lt.mpr hp)
  outbox_inside := by
    rw [hempty]
    exact fun _ he => absurd he List.not_mem_nil
  asked := by
    rw [hempty]
    exact fun _ _ _ he => absurd he List.not_mem_nil
  branch_eq := ha.branch_eq_sprout hn hclosed hchildren hempty

/-- The node is closed with nothing below it, and none of what grows
below it stands anywhere yet. -/
structure Rests (kids : String → Option String → List Entity) (o : Outline) (n : Node) : Prop where
  mem : n ∈ o.nodes
  closed : n.expansion = .collapsed
  children : n.children = []
  outbox : o.outbox = []
  none_grown : ∀ m ∈ o.nodes, ¬Grows kids n.key m.key

/-- Opened in its place, the node grows as it does alone. -/
theorem Rests.hasBranch_regrown {n : Node} (hr : o.Rests kids n) (ha : o.Arena) (rounds : Nat) :
    ((served kids)^[rounds] (o.openNode n.handle)).HasBranch (regrown kids n o.openKeys rounds) n
      o.nextHandle (Grows kids n.key) := by
  have hsprout := ha.hasBranch_sprout hr.mem hr.closed hr.children hr.outbox hr.none_grown
  have hopened := hsprout.openNode hr.mem (.inl rfl)
  rw [moved_self] at hopened
  exact hopened.iterate_served rounds

theorem openNode_sprout (n : Node) (openKeys : OpenKeys) : (sprout n openKeys).openNode 0 =
    { nodes := [n.bare.inState .fetching]
      roots := [0]
      nextHandle := 1
      openKeys := openKeys.insert n.key
      outbox := [.fetchChildren 0 n.bare.entityId n.bare.resourceId] } := rfl

theorem regrown_congr {m n : Node} {openKeys openKeys' : OpenKeys} (hbare : m.bare = n.bare)
    (hkeys : openKeys.insert m.key = openKeys'.insert n.key) (rounds : Nat) :
    regrown kids m openKeys rounds = regrown kids n openKeys' rounds := by
  rw [regrown, regrown, openNode_sprout, openNode_sprout, hbare, hkeys]

theorem regrown_openKeys (n : Node) (openKeys : OpenKeys) (rounds : Nat) :
    (regrown kids n openKeys rounds).openKeys = openKeys.insert n.key :=
  (((arena_sprout n openKeys).openNode 0).later_iterate_served rounds).openKeys

/--
The node is open with nothing left to do, and every node with a key that grows below it
stands below it and is another one.
-/
structure Stands (kids : String → Option String → List Entity) (o : Outline) (n : Node) : Prop where
  mem : n ∈ o.nodes
  expanded : n.expansion = .expanded
  outbox : o.outbox = []
  below : ∀ m ∈ o.nodes, Grows kids n.key m.key → m.handle ≠ n.handle ∧ o.Below n.handle m.handle

theorem Arena.exists_mem_closed (ha : o.Arena) {n : Node} (hn : n ∈ o.nodes) :
    ∃ keep : Handle → Bool,
    (∀ x, o.isLive x = true → (keep x = true ↔ x = n.handle ∨ ¬o.Below n.handle x)) ∧
      (o.closed n).outbox = o.outbox.filter (fun e => e.node?.all keep) ∧
        ∀ m, m ∈ (o.closed n).nodes ↔ ∃ k ∈ o.nodes, keep k.handle = true ∧
          (if k.handle = n.handle then (k.trim keep).inState .collapsed else k.trim keep) = m := by
  obtain ⟨keep, -, hfold, hiff⟩ := ha.foldl_prune_children hn
  rw [closed, hfold]
  refine ⟨keep, hiff, rfl, fun m => mem_update_nodes.trans ⟨?_, ?_⟩⟩
  · rintro ⟨k', hk', rfl⟩
    obtain ⟨k, hk, hkept, rfl⟩ := mem_restrict_nodes.mp hk'
    exact ⟨k, hk, hkept, rfl⟩
  · rintro ⟨k, hk, hkept, rfl⟩
    exact ⟨k.trim keep, mem_restrict_nodes.mpr ⟨k, hk, hkept, rfl⟩, rfl⟩

/-- Closing leaves the bare node, and none of what grew below it. -/
theorem Stands.exists_rests {n : Node} (hs : o.Stands kids n) (ha : o.Arena) :
    ∃ n', (o.closed n).Rests kids n' ∧ n'.handle = n.handle ∧ n'.bare = n.bare := by
  obtain ⟨keep, hiff, houtbox, hmem⟩ := ha.exists_mem_closed hs.mem
  have hself : keep n.handle = true := (hiff n.handle (isLive_of_mem hs.mem)).mpr (.inl rfl)
  refine ⟨(n.trim keep).inState .collapsed,
    { mem := (hmem _).mpr ⟨n, hs.mem, hself, if_pos rfl⟩
      closed := rfl
      children := ?_
      outbox := ?_
      none_grown := ?_ }, rfl, rfl⟩
  · refine List.filter_eq_nil_iff.mpr fun c hc => ?_
    have hchild := (ha.mem_children n hs.mem c).mp hc
    rw [hiff c hchild.isLive]
    rintro (rfl | hout)
    · exact Nat.lt_irrefl _ (ha.lt_of_isChild hchild)
    · exact hout (.single hchild)
  · rw [houtbox, hs.outbox, List.filter_nil]
  · intro m hm hgrows
    obtain ⟨k, hk, hkept, rfl⟩ := (hmem m).mp hm
    have hkey :
        (if k.handle = n.handle then (k.trim keep).inState .collapsed else k.trim keep).key =
        k.key := by
      split <;> rfl
    rw [hkey] at hgrows
    obtain ⟨hne, hbelow⟩ := hs.below k hk hgrows
    rcases (hiff k.handle (isLive_of_mem hk)).mp hkept with heq | hout
    · exact hne heq
    · exact hout hbelow

end Outline

end ContentConsole
