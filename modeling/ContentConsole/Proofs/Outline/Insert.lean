import ContentConsole.Proofs.Outline.Update

set_option autoImplicit false
set_option relaxedAutoImplicit false

/-!
The insertion of a node. Main statement: `Arena.insert`, by which a node without children
finds its place after all others.
-/
namespace ContentConsole

def Node.adopt (parent : Option Handle) (child : Handle) (n : Node) : Node :=
  if some n.handle = parent then { n with children := n.children ++ [child] } else n

namespace Node

variable {parent : Option Handle} {child : Handle} {n : Node}

@[simp] theorem adopt_handle : (n.adopt parent child).handle = n.handle := by
  unfold adopt
  split <;> rfl

@[simp] theorem adopt_parent : (n.adopt parent child).parent = n.parent := by
  unfold adopt
  split <;> rfl

@[simp] theorem adopt_expansion : (n.adopt parent child).expansion = n.expansion := by
  unfold adopt
  split <;> rfl

@[simp] theorem adopt_key : (n.adopt parent child).key = n.key := by
  unfold adopt
  split <;> rfl

@[simp] theorem adopt_upload : (n.adopt parent child).upload = n.upload := by
  unfold adopt
  split <;> rfl

theorem adopt_alike : (n.adopt parent child).Alike n := ⟨adopt_handle, adopt_key, adopt_expansion⟩

theorem mem_adopt_children {c : Handle} :
    c ∈ (n.adopt parent child).children ↔ c ∈ n.children ∨ c = child ∧ parent = some n.handle := by
  unfold adopt
  split
  · rename_i h
    simp [← h]
  · rename_i h
    simp only [iff_self_or]
    rintro ⟨-, hparent⟩
    exact absurd hparent.symm h

theorem trim_adopt {keep : Handle → Bool} (h : keep child = false) :
    (n.adopt parent child).trim keep = n.trim keep := by
  unfold adopt trim
  split <;> simp [h]

end Node

namespace Outline

variable {o : Outline}

def foundParent (o : Outline) (n : Node) : Option Handle := n.parent.filter o.isLive

theorem isLive_foundParent {n : Node} {p : Handle}
    (h : o.foundParent n = some p) : o.isLive p = true :=
  (Option.filter_eq_some_iff.mp h).2

theorem insert_eq (n : Node) : o.insert n =
    (o.nextHandle,
      { o with
        nodes := o.nodes.map (Node.adopt (o.foundParent n) o.nextHandle) ++
          [{ n with handle := o.nextHandle, parent := o.foundParent n }]
        roots := if o.foundParent n = none then o.roots ++ [o.nextHandle] else o.roots
        nextHandle := o.nextHandle + 1 }) := by
  rw [insert, ← foundParent]
  cases hp : o.foundParent n with
  | none =>
    have hnodes : o.nodes.map (Node.adopt none o.nextHandle) = o.nodes := by
      apply List.map_id''
      intro m
      simp [Node.adopt]
    simp [hnodes]
  | some p =>
    have hparent : n.parent = some p := (Option.filter_eq_some_iff.mp hp).1
    have hadopt :
        (fun m : Node => if m.handle = p then { m with children := m.children ++ [o.nextHandle] }
        else m) = Node.adopt (some p) o.nextHandle := by
      funext m
      simp [Node.adopt]
    simp [update, hadopt, hparent]

theorem mem_insert_nodes {n m : Node} : m ∈ (o.insert n).2.nodes ↔
    (∃ k ∈ o.nodes, k.adopt (o.foundParent n) o.nextHandle = m) ∨
      m = { n with handle := o.nextHandle, parent := o.foundParent n } := by
  simp [insert_eq]

theorem isLive_insert {n : Node} {x : Handle} :
    (o.insert n).2.isLive x = true ↔ o.isLive x = true ∨ x = o.nextHandle := by
  rw [isLive_iff, isLive_iff]
  constructor
  · rintro ⟨m, hm, rfl⟩
    rcases mem_insert_nodes.mp hm with ⟨k, hk, rfl⟩ | rfl
    · exact .inl ⟨k, hk, by simp⟩
    · exact .inr rfl
  · rintro (⟨k, hk, rfl⟩ | rfl)
    · exact ⟨_, mem_insert_nodes.mpr (.inl ⟨k, hk, rfl⟩), by simp⟩
    · exact ⟨_, mem_insert_nodes.mpr (.inr rfl), rfl⟩

theorem isChild_insert {n : Node} {p c : Handle} : (o.insert n).2.IsChild p c ↔
    o.IsChild p c ∨ c = o.nextHandle ∧ o.foundParent n = some p := by
  constructor
  · rintro ⟨m, hm, rfl, hp⟩
    rcases mem_insert_nodes.mp hm with ⟨k, hk, rfl⟩ | rfl
    · exact .inl ⟨k, hk, by simp, by simpa using hp⟩
    · exact .inr ⟨rfl, hp⟩
  · rintro (⟨k, hk, rfl, hp⟩ | ⟨rfl, hp⟩)
    · exact ⟨_, mem_insert_nodes.mpr (.inl ⟨k, hk, rfl⟩), by simp, by simpa using hp⟩
    · exact ⟨_, mem_insert_nodes.mpr (.inr rfl), rfl, hp⟩

private theorem ascending_append {handles : List Handle} {h : Handle}
    (hsorted : handles.Pairwise (· < ·)) (hlast : ∀ x ∈ handles, x < h) :
    (handles ++ [h]).Pairwise (· < ·) := by
  refine List.pairwise_append.mpr ⟨hsorted, List.pairwise_singleton _ _, fun x hx d hd => ?_⟩
  rw [List.mem_singleton.mp hd]
  exact hlast x hx

/-- A new node without children finds its place after all others. -/
theorem Arena.insert (ha : o.Arena) {n : Node} (hn : n.children = []) : (o.insert n).2.Arena where
  ascending := by
    rw [insert_eq, List.pairwise_append]
    refine ⟨List.pairwise_map.mpr (ha.ascending.imp fun h => by simpa using h), by simp, ?_⟩
    intro m hm k hk
    obtain ⟨j, hj, rfl⟩ := List.mem_map.mp hm
    rw [List.mem_singleton.mp hk, Node.adopt_handle]
    exact ha.handle_lt j hj
  handle_lt := by
    intro m hm
    have hnext : (o.insert n).2.nextHandle = o.nextHandle + 1 := by rw [insert_eq]
    rw [hnext]
    rcases mem_insert_nodes.mp hm with ⟨k, hk, rfl⟩ | rfl
    · rw [Node.adopt_handle]
      exact Nat.lt_succ_of_lt (ha.handle_lt k hk)
    · exact Nat.lt_succ_self _
  mem_children := by
    intro m hm c
    rw [isChild_insert]
    rcases mem_insert_nodes.mp hm with ⟨k, hk, rfl⟩ | rfl
    · rw [Node.mem_adopt_children, Node.adopt_handle, ha.mem_children k hk c]
    · -- The new node has no children yet, and nothing names it as parent.
      simp only [hn, List.not_mem_nil, false_iff, not_or]
      refine ⟨fun hc => ?_, fun ⟨_, hp⟩ => ?_⟩
      · exact Nat.lt_irrefl _ (ha.isLive_lt (ha.isLive_of_isChild hc))
      · exact Nat.lt_irrefl _ (ha.isLive_lt (isLive_foundParent hp))
  mem_roots := by
    intro r
    have hroots : r ∈ (o.insert n).2.roots ↔
        r ∈ o.roots ∨ r = o.nextHandle ∧ o.foundParent n = none := by
      rw [insert_eq]
      by_cases hp : o.foundParent n = none <;> simp [hp]
    rw [hroots, ha.mem_roots]
    constructor
    · rintro (⟨k, hk, rfl, hp⟩ | ⟨rfl, hp⟩)
      · exact ⟨_, mem_insert_nodes.mpr (.inl ⟨k, hk, rfl⟩), by simp, by simpa using hp⟩
      · exact ⟨_, mem_insert_nodes.mpr (.inr rfl), rfl, hp⟩
    · rintro ⟨m, hm, rfl, hp⟩
      rcases mem_insert_nodes.mp hm with ⟨k, hk, rfl⟩ | rfl
      · exact .inl ⟨k, hk, by simp, by simpa using hp⟩
      · exact .inr ⟨rfl, hp⟩
  children_ascending := by
    intro m hm
    rcases mem_insert_nodes.mp hm with ⟨k, hk, rfl⟩ | rfl
    · have hsorted := ha.children_ascending k hk
      unfold Node.adopt
      split
      · exact ascending_append hsorted fun c hc =>
          ha.isLive_lt ((ha.mem_children k hk c).mp hc).isLive
      · exact hsorted
    · rw [hn]
      exact List.Pairwise.nil
  roots_ascending := by
    have hsorted := ha.roots_ascending
    rw [insert_eq]
    dsimp only
    split
    · refine ascending_append hsorted fun r hr => ?_
      obtain ⟨k, hk, rfl, -⟩ := (ha.mem_roots r).mp hr
      exact ha.handle_lt k hk
    · exact hsorted
  parent_live := by
    intro m hm p hp
    rw [isLive_insert]
    rcases mem_insert_nodes.mp hm with ⟨k, hk, rfl⟩ | rfl
    · exact .inl (ha.parent_live k hk p (by simpa using hp))
    · exact .inl (isLive_foundParent hp)
  parent_lt := by
    intro m hm p hp
    rcases mem_insert_nodes.mp hm with ⟨k, hk, rfl⟩ | rfl
    · simpa using ha.parent_lt k hk p (by simpa using hp)
    · exact ha.isLive_lt (isLive_foundParent hp)
  outbox_live := by
    intro e he x hx
    rw [insert_eq] at he
    exact isLive_insert.mpr (.inl (ha.outbox_live e he x hx))
  selected_live := by
    intro x hx
    rw [insert_eq] at hx
    exact isLive_insert.mpr (.inl (ha.selected_live x hx))

end Outline

end ContentConsole
