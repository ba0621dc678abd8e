import ContentConsole.Proofs.Outline.Insert

set_option autoImplicit false
set_option relaxedAutoImplicit false

/-!
The drawing of one entity: the node that is replaced goes, the new one is inserted, and it
opens if its key is remembered. Main statements: `Arena.append`, by which this keeps the
arena even when it removes the node that was to be drawn under, and `Arena.mem_append`, which
tells the nodes apart afterwards.
-/
namespace ContentConsole

/-- The resource that an entity brings along: the one it was loaded under, or itself. -/
def Entity.ownResource (e : Entity) : Option String :=
  e.resourceId.orElse fun _ => if e.type = .resource then some e.id else none

namespace Outline

variable {o : Outline}

theorem Arena.displace (ha : o.Arena) (key : OpenKey) : (o.displace key).Arena := by
  rw [Outline.displace]
  split
  · exact ha.prune _
  · exact ha

@[simp] theorem displace_nextHandle (key : OpenKey) :
    (o.displace key).nextHandle = o.nextHandle := by
  unfold displace
  split <;> simp

@[simp] theorem displace_openKeys (key : OpenKey) : (o.displace key).openKeys = o.openKeys := by
  unfold displace
  split <;> simp

def cleared (o : Outline) (at' : Place) (e : Entity) : Outline :=
  if at'.replaces then o.displace (freshNode at' e).key else o

@[simp] theorem cleared_nextHandle (at' : Place) (e : Entity) :
    (o.cleared at' e).nextHandle = o.nextHandle := by
  unfold cleared
  split <;> simp

@[simp] theorem cleared_openKeys (at' : Place) (e : Entity) :
    (o.cleared at' e).openKeys = o.openKeys := by
  unfold cleared
  split <;> simp

theorem Arena.cleared (ha : o.Arena) (at' : Place) (e : Entity) : (o.cleared at' e).Arena := by
  rw [Outline.cleared]
  split
  · exact ha.displace _
  · exact ha

theorem Arena.lt_of_mem_cleared (ha : o.Arena) {at' : Place} {e : Entity} {n : Node}
    (hn : n ∈ (o.cleared at' e).nodes) : n.handle < o.nextHandle := by
  have hlt := (ha.cleared at' e).handle_lt n hn
  rwa [cleared_nextHandle] at hlt

def placed (o : Outline) (at' : Place) (e : Entity) : Outline :=
  ((o.cleared at' e).insert (freshNode at' e)).2

theorem placed_nextHandle (at' : Place) (e : Entity) :
    (o.placed at' e).nextHandle = o.nextHandle + 1 := by
  rw [placed, insert_eq, cleared_nextHandle]

theorem placed_openKeys (at' : Place) (e : Entity) : (o.placed at' e).openKeys = o.openKeys := by
  rw [placed, insert_eq, cleared_openKeys]

def opens (o : Outline) (at' : Place) (e : Entity) : Bool :=
  at'.isExpandable && decide ((freshNode at' e).key ∈ o.openKeys)

theorem append_eq (at' : Place) (e : Entity) : o.append at' e =
    (o.nextHandle,
      if o.opens at' e then (o.placed at' e).openNode o.nextHandle else o.placed at' e) := by
  have hfst : ((o.cleared at' e).insert (freshNode at' e)).1 = o.nextHandle := by
    rw [insert_eq, cleared_nextHandle]
  have hkeys := o.placed_openKeys at' e
  change (if (at'.isExpandable && decide ((freshNode at' e).key ∈ (o.placed at' e).openKeys)) = true
    then (((o.cleared at' e).insert (freshNode at' e)).1,
      (o.placed at' e).openNode ((o.cleared at' e).insert (freshNode at' e)).1)
    else (((o.cleared at' e).insert (freshNode at' e)).1, o.placed at' e)) = _
  rw [hfst, hkeys, ← opens]
  split <;> rfl

/-- Drawing one node keeps the arena, whatever it replaces. -/
theorem Arena.append (ha : o.Arena) (at' : Place) (e : Entity) : (o.append at' e).2.Arena := by
  have hplaced : (o.placed at' e).Arena := (ha.cleared at' e).insert rfl
  rw [append_eq]
  dsimp only
  split
  · exact hplaced.openNode _
  · exact hplaced

theorem isLive_append (at' : Place) (e : Entity) {x : Handle} : (o.append at' e).2.isLive x = true ↔
    (o.cleared at' e).isLive x = true ∨ x = o.nextHandle := by
  have hplaced : (o.placed at' e).isLive x = true ↔
      (o.cleared at' e).isLive x = true ∨ x = o.nextHandle := by
    rw [placed, isLive_insert, cleared_nextHandle]
  rw [append_eq]
  dsimp only
  split
  · rw [isLive_openNode, hplaced]
  · exact hplaced

theorem isChild_append (at' : Place) (e : Entity) {p c : Handle} : (o.append at' e).2.IsChild p c ↔
    (o.cleared at' e).IsChild p c ∨
      c = o.nextHandle ∧ at'.parent = some p ∧ (o.cleared at' e).isLive p = true := by
  have hplaced : (o.placed at' e).IsChild p c ↔ (o.cleared at' e).IsChild p c ∨
      c = o.nextHandle ∧ at'.parent = some p ∧ (o.cleared at' e).isLive p = true := by
    rw [placed, isChild_insert, cleared_nextHandle, foundParent, Option.filter_eq_some_iff]
    exact Iff.rfl
  rw [append_eq]
  dsimp only
  split
  · rw [isChild_openNode, hplaced]
  · exact hplaced

def seated (o : Outline) (at' : Place) (e : Entity) : Node :=
  { freshNode at' e with
    handle := o.nextHandle
    parent := (o.cleared at' e).foundParent (freshNode at' e) }

theorem Arena.node?_placed (ha : o.Arena) (at' : Place) (e : Entity) :
    (o.placed at' e).node? o.nextHandle = some (o.seated at' e) := by
  have harena : (o.placed at' e).Arena := (ha.cleared at' e).insert rfl
  have hmem : o.seated at' e ∈ (o.placed at' e).nodes := by
    rw [placed, mem_insert_nodes, cleared_nextHandle]
    exact .inr rfl
  exact harena.node?_handle hmem

theorem Arena.append_snd (ha : o.Arena) (at' : Place) (e : Entity) : (o.append at' e).2 =
    if o.opens at' e then ((o.placed at' e).update o.nextHandle (Node.inState .fetching)).push
      [.fetchChildren o.nextHandle e.id (effectiveResource at' e)]
    else o.placed at' e := by
  rw [append_eq]
  dsimp only
  split
  · rename_i hopens
    have hkey : (o.seated at' e).key ∈ (o.placed at' e).openKeys := by
      rw [opens, Bool.and_eq_true, decide_eq_true_iff] at hopens
      rw [placed_openKeys]
      exact hopens.2
    have hkeys : ((o.placed at' e).update o.nextHandle (Node.inState .fetching)).openKeys.insert
        (o.seated at' e).key = (o.placed at' e).openKeys := OpenKeys.insert_of_mem hkey
    have hopened : (o.placed at' e).openNode o.nextHandle =
        { ((o.placed at' e).update o.nextHandle (Node.inState .fetching)) with
          openKeys :=
            ((o.placed at' e).update o.nextHandle (Node.inState .fetching)).openKeys.insert
            (o.seated at' e).key }.push
          [.fetchChildren o.nextHandle e.id (effectiveResource at' e)] := by
      rw [Outline.openNode, ha.node?_placed at' e]
      rfl
    rw [hopened, hkeys]
    rfl
  · rfl

theorem Arena.append_nextHandle (ha : o.Arena) (at' : Place) (e : Entity) :
    (o.append at' e).2.nextHandle = o.nextHandle + 1 := by
  rw [ha.append_snd]
  split <;> exact placed_nextHandle at' e

theorem Arena.append_openKeys (ha : o.Arena) (at' : Place) (e : Entity) :
    (o.append at' e).2.openKeys = o.openKeys := by
  rw [ha.append_snd]
  split <;> exact placed_openKeys at' e

def firstExpansion (o : Outline) (at' : Place) (e : Entity) : Expansion :=
  if o.opens at' e then .fetching else (freshNode at' e).expansion

theorem firstExpansion_eq (at' : Place) (e : Entity) : o.firstExpansion at' e =
    if at'.isExpandable then if (freshNode at' e).key ∈ o.openKeys then .fetching else .collapsed
    else .leaf := by
  have hfresh : (freshNode at' e).expansion = if at'.isExpandable then .collapsed else .leaf := rfl
  rw [firstExpansion, opens, hfresh]
  cases at'.isExpandable <;> simp

private theorem mem_placed_nodes {at' : Place} {e : Entity} {m : Node}
    (hm : m ∈ (o.placed at' e).nodes) :
    (∃ n ∈ (o.cleared at' e).nodes,
      n.adopt ((o.cleared at' e).foundParent (freshNode at' e)) o.nextHandle = m) ∨
      m = o.seated at' e := by
  rw [placed, mem_insert_nodes, cleared_nextHandle] at hm
  exact hm

/-- After one entity is drawn, each node is one of before, perhaps with
a new child, or the new one. -/
theorem Arena.mem_append (ha : o.Arena) {at' : Place} {e : Entity} {m : Node}
    (hm : m ∈ (o.append at' e).2.nodes) :
    (∃ n ∈ (o.cleared at' e).nodes,
        n.adopt ((o.cleared at' e).foundParent (freshNode at' e)) o.nextHandle = m) ∨
      m = { o.seated at' e with expansion := o.firstExpansion at' e } := by
  rw [ha.append_snd] at hm
  unfold firstExpansion
  split at hm
  · rename_i hopens
    obtain ⟨k, hk, rfl⟩ := mem_update_nodes.mp hm
    rw [if_pos hopens]
    rcases mem_placed_nodes hk with ⟨n, hn, rfl⟩ | rfl
    · have hne : n.handle ≠ o.nextHandle := Nat.ne_of_lt (ha.lt_of_mem_cleared hn)
      rw [Node.adopt_handle, if_neg hne]
      exact .inl ⟨n, hn, rfl⟩
    · have hself : (o.seated at' e).handle = o.nextHandle := rfl
      rw [if_pos hself]
      exact .inr rfl
  · rename_i hopens
    rw [if_neg hopens]
    rcases mem_placed_nodes hm with ⟨n, hn, rfl⟩ | rfl
    · exact .inl ⟨n, hn, rfl⟩
    · exact .inr rfl

end Outline

end ContentConsole
