import ContentConsole.Outline.Expand
import ContentConsole.Proofs.Outline.Update

set_option autoImplicit false
set_option relaxedAutoImplicit false

/-!
Opening and closing a node. Main statement: `Arena.toggle_eq`, by which toggling a node never fails,
as its children can be removed one after the other.
-/
namespace ContentConsole

namespace Outline

variable {o : Outline}

theorem Arena.removeAll_eq (ha : o.Arena) {handles : List Handle}
    (hlive : ∀ h ∈ handles, o.isLive h = true) (hapart : handles.Pairwise fun c d => ¬o.Below c d) :
    o.removeAll handles = .ok (handles.foldl Outline.prune o) := by
  induction handles generalizing o with
  | nil => rfl
  | cons h handles ih =>
    obtain ⟨n, hn⟩ := exists_node?_of_isLive (hlive h (List.mem_cons_self ..))
    obtain ⟨happart, hrest⟩ := List.pairwise_cons.mp hapart
    have hremove : o.remove h = .ok ((o.subtree h).map Node.entityId, o.prune h) := by
      rw [Outline.remove, hn]
    rw [Outline.removeAll, hremove, List.foldl_cons]
    refine ih (ha.prune h) (fun c hc => ?_) ?_
    · have hclive := hlive c (List.mem_cons_of_mem _ hc)
      rw [ha.prune_eq_restrict, isLive_restrict, ha.outside_iff hclive]
      exact ⟨hclive, happart c hc⟩
    · rw [ha.prune_eq_restrict]
      exact hrest.imp fun hcd hbelow => hcd (below_of_below_restrict hbelow)

theorem Arena.children_apart (ha : o.Arena) {n : Node} (hn : n ∈ o.nodes) :
    n.children.Pairwise fun c d => ¬o.Below c d := by
  refine (ha.children_ascending n hn).imp_of_mem fun {c d} hc hd hlt hbelow => ?_
  have hcn := ha.lt_of_isChild ((ha.mem_children n hn c).mp hc)
  rcases hbelow.cases_tail with rfl | ⟨q, hcq, hqd⟩
  · exact Nat.lt_irrefl _ hlt
  · rw [ha.isChild_inj hqd ((ha.mem_children n hn d).mp hd)] at hcq
    exact Nat.lt_irrefl _ (Nat.lt_of_lt_of_le hcn (ha.le_of_below hcq))

def closed (o : Outline) (n : Node) : Outline :=
  { (n.children.foldl Outline.prune o).update n.handle (Node.inState .collapsed) with
    openKeys := o.openKeys.erase n.key }

theorem Arena.foldl_prune_children (ha : o.Arena) {n : Node} (hn : n ∈ o.nodes) :
    ∃ keep, o.KeepsParents keep ∧ n.children.foldl Outline.prune o = o.restrict keep ∧
      ∀ x, o.isLive x = true → (keep x = true ↔ x = n.handle ∨ ¬o.Below n.handle x) := by
  obtain ⟨keep, hkeep, hfold, hiff⟩ := ha.foldl_prune n.children
  refine ⟨keep, hkeep, hfold, fun x hx => ?_⟩
  rw [hiff x hx]
  constructor
  · intro hout
    by_contra! hin
    rcases Relation.ReflTransGen.cases_head hin.2 with heq | ⟨c, hc, hcx⟩
    · exact hin.1 heq.symm
    · exact hout c ((ha.mem_children n hn c).mpr hc) hcx
  · intro hout c hc hcx
    have hchild := (ha.mem_children n hn c).mp hc
    rcases hout with rfl | hout
    · exact Nat.lt_irrefl _ (Nat.lt_of_lt_of_le (ha.lt_of_isChild hchild) (ha.le_of_below hcx))
    · exact hout (hcx.head hchild)

/-- Toggling a node that is there never fails. -/
theorem Arena.toggle_eq (ha : o.Arena) {n : Node} (hn : n ∈ o.nodes) : o.toggle n.handle =
    match n.expansion with
    | .leaf => .ok (.leaf, o)
    | .collapsed => .ok (.fetching, o.openNode n.handle)
    | .fetching | .expanded => .ok (.collapsed, o.closed n) := by
  have hremoved : o.removeAll n.children = .ok (n.children.foldl Outline.prune o) :=
    ha.removeAll_eq (fun c hc => ((ha.mem_children n hn c).mp hc).isLive) (ha.children_apart hn)
  obtain ⟨keep, -, hfold, hiff⟩ := ha.foldl_prune_children hn
  have hstays : (n.children.foldl Outline.prune o).isLive n.handle = true := by
    have hlive := isLive_of_mem hn
    rw [hfold, isLive_restrict]
    exact ⟨hlive, (hiff n.handle hlive).mpr (.inl rfl)⟩
  obtain ⟨k, hk⟩ := exists_node?_of_isLive hstays
  have hkeys : (n.children.foldl Outline.prune o).openKeys = o.openKeys := by rw [hfold]; rfl
  rw [Outline.toggle, get_eq_ok_iff.mpr (ha.node?_handle hn)]
  cases hexpansion : n.expansion with
  | leaf | collapsed => simp only [hexpansion]
  | fetching | expanded =>
    simp only [hexpansion, hremoved, get_eq_ok_iff.mpr hk, closed]
    rw [← hkeys]
    rfl

theorem Arena.toggle (ha : o.Arena) {h : Handle} {state : Expansion} {o' : Outline}
    (ht : o.toggle h = .ok (state, o')) : o'.Arena := by
  cases hnode : o.node? h with
  | none =>
    rw [Outline.toggle, get, hnode] at ht
    cases ht
  | some n =>
    obtain ⟨hn, rfl⟩ := mem_of_node? hnode
    rw [ha.toggle_eq hn] at ht
    split at ht
    · cases ht
      exact ha
    · cases ht
      exact ha.openNode n.handle
    all_goals
      cases ht
      obtain ⟨keep, hkeep, hfold, -⟩ := ha.foldl_prune_children hn
      rw [closed, hfold]
      exact ((ha.restrict hkeep).update (keepsPlace_inState _) _).withKeys _

end Outline

end ContentConsole
