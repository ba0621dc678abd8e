import ContentConsole.Proofs.Outline.Removal

set_option autoImplicit false
set_option relaxedAutoImplicit false

/-!
Forgetting an entity. Main statement: `forget_exact`, by which every node that shows the
entity goes with all that is below it, each node that goes is counted once, and no key
that mentions the entity is left.
-/
namespace ContentConsole.Outline

variable {o : Outline}

namespace Arena

theorem subtree_perm (ha : o.Arena) (h : Handle) :
    (o.subtree h).Perm (o.nodes.filter fun m => !o.outside h m.handle) := by
  have hsubtree : (o.subtree h).Nodup := (ha.nodup_handles (ha.pairwise_subtree h)).of_map
  refine (List.perm_ext_iff_of_nodup hsubtree (ha.nodup_nodes.filter _)).mpr fun m => ?_
  rw [ha.mem_subtree_iff, List.mem_filter]
  refine and_congr_right fun hm => ?_
  rw [Bool.not_eq_true', ← Bool.not_eq_true, ha.outside_iff (isLive_of_mem hm), not_not]

theorem length_prune (ha : o.Arena) (h : Handle) :
    (o.subtree h).length + (o.prune h).nodes.length = o.nodes.length := by
  have hsplit := List.length_eq_length_filter_add (l := o.nodes) fun m => o.outside h m.handle
  rw [(ha.subtree_perm h).length_eq, ha.prune_eq_restrict, Outline.restrict, List.length_map,
    hsplit, Nat.add_comm]

theorem length_pruneCounted (ha : o.Arena) (handles : List Handle) :
    (o.pruneCounted handles).1 + (o.pruneCounted handles).2.nodes.length = o.nodes.length := by
  induction handles generalizing o with
  | nil => exact Nat.zero_add _
  | cons h handles ih =>
    have hfirst := ha.length_prune h
    have hrest := ih (ha.prune h)
    rw [pruneCounted]
    dsimp only
    omega

theorem forget_snd_eq (ha : o.Arena) (entityId : String) :
    ∃ stays : Handle → Bool,
      (∀ x, stays x = true ↔ ∀ n ∈ o.nodes, n.entityId = entityId → ¬o.Below n.handle x) ∧
        (o.forget entityId).2 =
          { o.restrict stays with openKeys := o.openKeys.forget entityId } := by
  have hlive : ∀ h ∈ (o.showing entityId).map Node.handle, o.isLive h = true := by
    rw [List.forall_mem_map]
    exact fun n hn => isLive_of_mem (List.mem_filter.mp hn).1
  obtain ⟨stays, hstays, hfold⟩ := ha.foldl_prune_eq_restrict hlive
  refine ⟨stays, fun x => ?_, ?_⟩
  · rw [hstays, List.forall_mem_map]
    simp only [showing, List.mem_filter, beq_iff_eq, and_imp]
  · simp only [Outline.forget, pruneCounted_snd, hfold]
    rfl

end Arena

/--
Forgetting an entity takes the nodes that show it and all that is below them. No node that is left
shows the entity or was below one that did; it is as it was, but that it does not list a child that
went, and neither do the roots, the selection and the effects. The keys left are those that mention
the entity in no part, and the number given back is that of the nodes that went.
-/
theorem forget_exact (ho : o.Reachable) (entityId : String) :
    ∃ stays : Handle → Bool,
      (∀ x, stays x = true ↔ ∀ n ∈ o.nodes, n.entityId = entityId → ¬o.Below n.handle x) ∧
      let o' := (o.forget entityId).2
      o' = { o with
        nodes := (o.nodes.filter fun m => stays m.handle).map (Node.trim stays)
        roots := o.roots.filter stays
        outbox := o.outbox.filter fun e => e.node?.all stays
        selected := o.selected.filter stays
        openKeys := o.openKeys.forget entityId } ∧
      (∀ m ∈ o'.nodes, m.entityId ≠ entityId ∧ ∀ n ∈ o.nodes, n.entityId = entityId →
        ¬o.Below n.handle m.handle) ∧
      (∀ key, key ∈ o'.openKeys ↔ key ∈ o.openKeys ∧
        key.entityId ≠ entityId ∧ key.parentId ≠ some entityId ∧ key.resourceId ≠ some entityId) ∧
      (o.forget entityId).1 = (o.nodes.filter fun m => !stays m.handle).length := by
  have ha := ho.arena
  obtain ⟨stays, hstays, hforget⟩ := ha.forget_snd_eq entityId
  have hcount : (o.forget entityId).1 + (o.forget entityId).2.nodes.length = o.nodes.length :=
    ha.length_pruneCounted _
  have hsplit := List.length_eq_length_filter_add (l := o.nodes) fun m => stays m.handle
  refine ⟨stays, hstays, hforget, fun m hm => ?_, fun key => ?_, ?_⟩
  · rw [hforget] at hm
    obtain ⟨n, hn, hkept, rfl⟩ := mem_restrict_nodes.mp hm
    have hout := (hstays n.handle).mp hkept
    exact ⟨fun hid => hout n hn hid .refl, hout⟩
  · rw [hforget]
    simp [OpenKey.mentions, and_assoc]
  · rw [hforget, Outline.restrict, List.length_map] at hcount
    omega

def nestedFolders : Outline :=
  let f : Entity := ⟨"f", "", none, .emptyFolder, []⟩
  let g : Entity := ⟨"g", "", none, .folder [f] [] [], []⟩
  let filled : Entity := ⟨"f", "", none, .folder [] [] [⟨"y", "", none, .file, []⟩], []⟩
  (start (.ofList
    [⟨"f", none, none⟩, ⟨"g", some "f", none⟩, ⟨"g", none, some "f"⟩, ⟨"g", none, none⟩])).run
    [.draw ⟨"f", "", none, .folder [f, g] [] [], []⟩ none none false false,
      .draw ⟨"x", "", none, .folder [filled] [] [], []⟩ none none false false]

theorem forget_exact_nestedFolders : nestedFolders.Reachable ∧
    nestedFolders.nodes.map Node.entityId = ["f", "f", "g", "f", "x", "f", "y"] ∧
      ∃ stays : Handle → Bool, (nestedFolders.nodes.filter fun m => !stays m.handle).length = 6 ∧
        (∀ m ∈ (nestedFolders.forget "f").2.nodes, m.entityId ≠ "f") ∧
          (nestedFolders.forget "f").2.nodes.map Node.entityId = ["x"] ∧
            (nestedFolders.forget "f").2.openKeys.keys = [⟨"g", none, none⟩] := by
  have ho : nestedFolders.Reachable := ⟨_, _, rfl⟩
  obtain ⟨stays, -, -, hnone, -, hcount⟩ := forget_exact ho "f"
  have hsix : (nestedFolders.forget "f").1 = 6 := by decide +kernel
  refine ⟨ho, by decide +kernel, stays, hcount ▸ hsix, fun m hm => (hnone m hm).1, ?_, ?_⟩
  · decide +kernel
  · decide +kernel

end ContentConsole.Outline
