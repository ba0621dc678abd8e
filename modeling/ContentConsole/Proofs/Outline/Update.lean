import ContentConsole.Outline.Draw
import ContentConsole.Proofs.Outline.Restrict

set_option autoImplicit false
set_option relaxedAutoImplicit false

/-!
Updates that leave a node in its place in the tree, and effects that are put into the outbox. Main
statement: `Arena.update`, by which such an update keeps the arena.
-/
namespace ContentConsole

/-- The same node as far as its handle, its key and the state of its children go. -/
def Node.Alike (m n : Node) : Prop :=
  m.handle = n.handle ∧ m.key = n.key ∧ m.expansion = n.expansion

def Node.inState (state : Expansion) (n : Node) : Node := { n with expansion := state }

namespace Node

variable {n : Node} {state : Expansion}

@[simp] theorem inState_expansion : (n.inState state).expansion = state := rfl
@[simp] theorem inState_key : (n.inState state).key = n.key := rfl

end Node

namespace Outline

variable {o : Outline}

/-- An update of what is not the node's place in the tree. -/
def KeepsPlace (f : Node → Node) : Prop :=
  ∀ n, (f n).handle = n.handle ∧ (f n).parent = n.parent ∧ (f n).children = n.children

theorem keepsPlace_inState (state : Expansion) : KeepsPlace (Node.inState state) :=
  fun _ => ⟨rfl, rfl, rfl⟩

theorem mem_update_nodes {h : Handle} {f : Node → Node} {m : Node} :
    m ∈ (o.update h f).nodes ↔ ∃ n ∈ o.nodes, (if n.handle = h then f n else n) = m := by
  simp [update]

private theorem place_update {f : Node → Node} (hf : KeepsPlace f) (h : Handle) (n : Node) :
    (if n.handle = h then f n else n).handle = n.handle ∧
      (if n.handle = h then f n else n).parent = n.parent ∧
        (if n.handle = h then f n else n).children = n.children := by
  split
  · exact hf n
  · exact ⟨rfl, rfl, rfl⟩

theorem isLive_update {f : Node → Node} (hf : KeepsPlace f) (h x : Handle) :
    (o.update h f).isLive x = o.isLive x := by
  rw [Bool.eq_iff_iff, isLive_iff, isLive_iff]
  constructor
  · rintro ⟨m, hm, rfl⟩
    obtain ⟨n, hn, rfl⟩ := mem_update_nodes.mp hm
    exact ⟨n, hn, (place_update hf h n).1.symm⟩
  · rintro ⟨n, hn, rfl⟩
    exact ⟨_, mem_update_nodes.mpr ⟨n, hn, rfl⟩, (place_update hf h n).1⟩

theorem isChild_update {f : Node → Node} (hf : KeepsPlace f) (h : Handle) {p c : Handle} :
    (o.update h f).IsChild p c ↔ o.IsChild p c := by
  constructor
  · rintro ⟨m, hm, hc, hp⟩
    obtain ⟨n, hn, rfl⟩ := mem_update_nodes.mp hm
    obtain ⟨hhandle, hparent, -⟩ := place_update hf h n
    exact ⟨n, hn, hhandle.symm.trans hc, hparent.symm.trans hp⟩
  · rintro ⟨n, hn, hc, hp⟩
    obtain ⟨hhandle, hparent, -⟩ := place_update hf h n
    exact ⟨_, mem_update_nodes.mpr ⟨n, hn, rfl⟩, hhandle.trans hc, hparent.trans hp⟩

theorem below_update {f : Node → Node} (hf : KeepsPlace f) (h : Handle) {a b : Handle} :
    (o.update h f).Below a b ↔ o.Below a b := by
  have hsame : (o.update h f).IsChild = o.IsChild := by
    funext p c
    exact propext (isChild_update hf h)
  rw [Below, Below, hsame]

theorem update_eq_self {h : Handle} (hh : o.isLive h = false)
    (f : Node → Node) : o.update h f = o := by
  have hnodes : (o.nodes.map fun n => if n.handle = h then f n else n) = o.nodes := by
    rw [List.map_congr_left (g := id), List.map_id]
    intro n hn
    rw [id, if_neg]
    rintro rfl
    rw [isLive_of_mem hn] at hh
    cases hh
  rw [update, hnodes]

theorem Arena.update (ha : o.Arena) {f : Node → Node} (hf : KeepsPlace f) (h : Handle) :
    (o.update h f).Arena where
  ascending := by
    rw [Outline.update, List.pairwise_map]
    refine ha.ascending.imp fun {m n} hmn => ?_
    rw [(place_update hf h m).1, (place_update hf h n).1]
    exact hmn
  handle_lt := by
    intro m hm
    obtain ⟨n, hn, rfl⟩ := mem_update_nodes.mp hm
    rw [(place_update hf h n).1]
    exact ha.handle_lt n hn
  mem_children := by
    intro m hm c
    obtain ⟨n, hn, rfl⟩ := mem_update_nodes.mp hm
    obtain ⟨hhandle, -, hchildren⟩ := place_update hf h n
    rw [isChild_update hf, hhandle, hchildren]
    exact ha.mem_children n hn c
  mem_roots := by
    intro r
    refine (ha.mem_roots r).trans ⟨?_, ?_⟩
    · rintro ⟨n, hn, hr, hp⟩
      obtain ⟨hhandle, hparent, -⟩ := place_update hf h n
      exact ⟨_, mem_update_nodes.mpr ⟨n, hn, rfl⟩, hhandle.trans hr, hparent.trans hp⟩
    · rintro ⟨m, hm, hr, hp⟩
      obtain ⟨n, hn, rfl⟩ := mem_update_nodes.mp hm
      obtain ⟨hhandle, hparent, -⟩ := place_update hf h n
      exact ⟨n, hn, hhandle.symm.trans hr, hparent.symm.trans hp⟩
  children_ascending := by
    intro m hm
    obtain ⟨n, hn, rfl⟩ := mem_update_nodes.mp hm
    rw [(place_update hf h n).2.2]
    exact ha.children_ascending n hn
  roots_ascending := ha.roots_ascending
  parent_live := by
    intro m hm p hp
    obtain ⟨n, hn, rfl⟩ := mem_update_nodes.mp hm
    rw [(place_update hf h n).2.1] at hp
    rw [isLive_update hf]
    exact ha.parent_live n hn p hp
  parent_lt := by
    intro m hm p hp
    obtain ⟨n, hn, rfl⟩ := mem_update_nodes.mp hm
    rw [(place_update hf h n).2.1] at hp
    rw [(place_update hf h n).1]
    exact ha.parent_lt n hn p hp
  outbox_live := by
    intro e he x hx
    rw [isLive_update hf]
    exact ha.outbox_live e he x hx
  selected_live := by
    intro x hx
    rw [isLive_update hf]
    exact ha.selected_live x hx

theorem Arena.node?_update_of_ne (ha : o.Arena) {f : Node → Node} (hf : KeepsPlace f) {h x : Handle}
    (hne : x ≠ h) : (o.update h f).node? x = o.node? x := by
  cases hx : o.node? x with
  | none =>
    apply node?_eq_none
    rw [isLive_update hf, isLive, hx]
    rfl
  | some n =>
    obtain ⟨hn, rfl⟩ := mem_of_node? hx
    exact (ha.update hf h).node?_handle (mem_update_nodes.mpr ⟨n, hn, if_neg hne⟩)

theorem Arena.node?_update_self (ha : o.Arena) {f : Node → Node} (hf : KeepsPlace f) {n : Node}
    (hn : n ∈ o.nodes) : (o.update n.handle f).node? n.handle = some (f n) := by
  refine (ha.update hf n.handle).node?_eq_some_iff.mpr
    ⟨mem_update_nodes.mpr ⟨n, hn, if_pos rfl⟩, ?_⟩
  exact (hf n).1

/-! Keys, effects and the selection. -/

theorem Arena.withKeys (ha : o.Arena) (openKeys : OpenKeys) : ({ o with openKeys }).Arena :=
  { ha with }

theorem push_nil (o : Outline) : o.push [] = o := by simp [push]

theorem Arena.push (ha : o.Arena) {effects : List Effect}
    (h : ∀ e ∈ effects, ∀ x, e.node? = some x → o.isLive x = true) : (o.push effects).Arena :=
  { ha with
    outbox_live := by
      intro e he x hx
      rcases List.mem_append.mp he with he | he
      · exact ha.outbox_live e he x hx
      · exact h e he x hx }

theorem Arena.openNode (ha : o.Arena) (h : Handle) : (o.openNode h).Arena := by
  rw [Outline.openNode]
  cases hn : o.node? h with
  | none => exact ha
  | some n =>
    have hf : KeepsPlace fun n => { n with expansion := .fetching } := fun _ => ⟨rfl, rfl, rfl⟩
    refine ((ha.update hf h).withKeys _).push ?_
    intro e he x hx
    rw [List.mem_singleton.mp he] at hx
    rw [← Option.some.inj hx]
    exact (isLive_update hf h h).trans (isLive_of_node? hn)

theorem Arena.openNode_eq (ha : o.Arena) {n : Node} (hn : n ∈ o.nodes) : o.openNode n.handle =
    { (o.update n.handle (Node.inState .fetching)) with openKeys := o.openKeys.insert n.key }.push
      [.fetchChildren n.handle n.entityId n.resourceId] := by
  rw [Outline.openNode, ha.node?_handle hn]
  rfl

theorem isLive_openNode (h x : Handle) : (o.openNode h).isLive x = o.isLive x := by
  rw [openNode]
  split
  · rfl
  · refine isLive_update ?_ h x
    exact fun _ => ⟨rfl, rfl, rfl⟩

theorem isChild_openNode (h : Handle) {p c : Handle} :
    (o.openNode h).IsChild p c ↔ o.IsChild p c := by
  rw [openNode]
  split
  · exact Iff.rfl
  · refine isChild_update ?_ h
    exact fun _ => ⟨rfl, rfl, rfl⟩

theorem isLive_stageUpload (h : Handle) (e : Entity) (x : Handle) :
    (o.stageUpload h e).isLive x = o.isLive x := by
  rw [stageUpload]
  split
  · refine isLive_update ?_ h x
    exact fun _ => ⟨rfl, rfl, rfl⟩
  · rfl

theorem isChild_stageUpload (h : Handle) (e : Entity) {p c : Handle} :
    (o.stageUpload h e).IsChild p c ↔ o.IsChild p c := by
  rw [stageUpload]
  split
  · refine isChild_update ?_ h
    exact fun _ => ⟨rfl, rfl, rfl⟩
  · exact Iff.rfl

theorem Arena.stageUpload (ha : o.Arena) (h : Handle) (e : Entity) : (o.stageUpload h e).Arena := by
  rw [Outline.stageUpload]
  split
  · rename_i hlive
    have hf : KeepsPlace fun n => { n with upload := .pending } := fun _ => ⟨rfl, rfl, rfl⟩
    refine (ha.update hf h).push ?_
    intro effect he x hx
    rw [List.mem_singleton.mp he] at hx
    rw [← Option.some.inj hx]
    exact (isLive_update hf h h).trans hlive
  · exact ha

end Outline

end ContentConsole
