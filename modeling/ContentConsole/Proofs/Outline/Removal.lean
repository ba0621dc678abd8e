import ContentConsole.Proofs.Outline.Preorder

set_option autoImplicit false
set_option relaxedAutoImplicit false

/-!
What a removal takes and what it leaves. Main statement: `remove_exact`, by which removing a node
takes it with all that is below it, and closing an open node all that is below it, and nothing
else changes but what names those.
-/
namespace ContentConsole

def Node.disown (parent : Option Handle) (child : Handle) (n : Node) : Node :=
  if some n.handle = parent then { n with children := n.children.filter (· ≠ child) } else n

def Node.shut (n : Node) : Node := { n with children := [], expansion := .collapsed }

/-- A removal underway: the nodes still stored, the handles that wait on the
stack, and the nodes removed. -/
structure Dismantling where
  nodes : List Node
  stack : List Handle
  removed : List Node := []

namespace Dismantling

/-- Takes the top of the stack: its node is removed, and its children take its place. -/
def step : Dismantling → Dismantling
  | ⟨nodes, [], removed⟩ => ⟨nodes, [], removed⟩
  | ⟨nodes, h :: stack, removed⟩ =>
    match nodes.find? fun n => n.handle == h with
    | none => ⟨nodes, stack, removed⟩
    | some n => ⟨nodes.filter fun m => m.handle ≠ h, n.children ++ stack, removed ++ [n]⟩

end Dismantling

namespace Outline

variable {o : Outline}

/-! Subtrees in the listing. -/

private theorem map_snd_listing (o : Outline) (levels depth depth' : Nat) (h : Handle) :
    (o.listing levels depth h).map Prod.snd = (o.listing levels depth' h).map Prod.snd := by
  induction levels generalizing depth depth' h with
  | zero => rfl
  | succ levels ih =>
    rw [listing, listing]
    cases o.node? h with
    | none => rfl
    | some n =>
      simp only [List.map_cons, List.map_flatMap]
      rw [List.flatMap_congr fun c _ => ih (depth + 1) (depth' + 1) c]

namespace Arena

theorem subtree_eq_cons (ha : o.Arena) {n : Node} {h : Handle} (hn : o.node? h = some n) :
    o.subtree h = n :: n.children.flatMap o.subtree := by
  rw [subtree, ha.listing_node hn, List.map_cons, List.map_flatMap]
  congr 1
  exact List.flatMap_congr fun c _ => o.map_snd_listing _ 1 0 c

theorem pairwise_subtree (ha : o.Arena) (h : Handle) :
    (o.subtree h).Pairwise fun m n => o.Precedes m.handle n.handle :=
  List.pairwise_map.mpr (ha.pairwise_listing _ 0 h)

theorem mem_subtree_iff (ha : o.Arena) {h : Handle} {m : Node} :
    m ∈ o.subtree h ↔ m ∈ o.nodes ∧ o.Below h m.handle := by
  constructor
  · intro hm
    obtain ⟨w, hw, rfl⟩ := List.mem_map.mp hm
    exact ha.below_of_mem_listing _ 0 h w hw
  · rintro ⟨hm, hbelow⟩
    obtain ⟨k, hk, hkm⟩ := List.mem_map.mp (ha.mem_subtree.mpr ⟨isLive_of_mem hm, hbelow⟩)
    obtain ⟨w, hw, rfl⟩ := List.mem_map.mp hk
    rwa [← ha.eq_of_handle (ha.below_of_mem_listing _ 0 h w hw).1 hm hkm]

theorem nodup_handles (ha : o.Arena) {nodes : List Node}
    (hnodes : nodes.Pairwise fun m n => o.Precedes m.handle n.handle) :
    (nodes.map Node.handle).Nodup := by
  refine List.pairwise_map.mpr (hnodes.imp fun {m n} hmn heq => ?_)
  rw [heq] at hmn
  exact ha.precedes_irrefl hmn

theorem subtree_eq_filter_walk (ha : o.Arena) {h : Handle} {stays : Handle → Bool}
    (hstays : ∀ x, stays x = true ↔ ¬o.Below h x) :
    o.subtree h = (o.walk.map Prod.snd).filter fun m => !stays m.handle := by
  have hwalk : (o.walk.map Prod.snd).Pairwise fun m n => o.Precedes m.handle n.handle :=
    List.pairwise_map.mpr ha.pairwise_walk
  have hsubtree := ha.pairwise_subtree h
  have hperm : (o.subtree h).Perm ((o.walk.map Prod.snd).filter fun m => !stays m.handle) := by
    refine (List.perm_ext_iff_of_nodup (ha.nodup_handles hsubtree).of_map
      ((ha.nodup_handles hwalk).of_map.filter _)).mpr fun m => ?_
    rw [ha.mem_subtree_iff, List.mem_filter, ha.mem_walk_iff]
    refine and_congr_right fun hm => ?_
    rw [Bool.not_eq_true', ← Bool.not_eq_true, hstays, not_not]
  exact hperm.eq_of_pairwise (fun m n _ _ hmn hnm => absurd hnm (ha.precedes_asymm hmn)) hsubtree
    (hwalk.filter _)

/-! The loop that removes a subtree. -/

theorem iterate_step (ha : o.Arena) {stack : List Handle} (hlive : ∀ h ∈ stack, o.isLive h = true)
    (hnodup : ((stack.flatMap o.subtree).map Node.handle).Nodup) (nodes removed : List Node)
    (hfound : ∀ m ∈ stack.flatMap o.subtree, nodes.find? (fun k => k.handle == m.handle) = some m) :
    Dismantling.step^[(stack.flatMap o.subtree).length] ⟨nodes, stack, removed⟩ =
      ⟨nodes.filter fun m => !((stack.flatMap o.subtree).map Node.handle).contains m.handle, [],
        removed ++ stack.flatMap o.subtree⟩ := by
  generalize hsteps : (stack.flatMap o.subtree).length = steps
  induction steps generalizing stack nodes removed with
  | zero =>
    cases stack with
    | nil => simp
    | cons h stack =>
      obtain ⟨n, hn⟩ := exists_node?_of_isLive (hlive h (List.mem_cons_self ..))
      simp [ha.subtree_eq_cons hn] at hsteps
  | succ steps ih =>
    cases stack with
    | nil => simp at hsteps
    | cons h stack =>
      obtain ⟨n, hn⟩ := exists_node?_of_isLive (hlive h (List.mem_cons_self ..))
      obtain ⟨hmem, rfl⟩ := mem_of_node? hn
      have hwaits : (n.handle :: stack).flatMap o.subtree =
          n :: (n.children ++ stack).flatMap o.subtree := by
        rw [List.flatMap_cons, ha.subtree_eq_cons hn, List.flatMap_append, List.cons_append]
      rw [hwaits] at hnodup hfound hsteps ⊢
      obtain ⟨hfresh, hnodup⟩ := List.nodup_cons.mp hnodup
      obtain ⟨hfirst, hfound⟩ := List.forall_mem_cons.mp hfound
      rw [List.length_cons, Nat.add_right_cancel_iff] at hsteps
      have hstep : Dismantling.step ⟨nodes, n.handle :: stack, removed⟩ =
          ⟨nodes.filter fun m => m.handle ≠ n.handle, n.children ++ stack, removed ++ [n]⟩ := by
        rw [Dismantling.step, hfirst]
      rw [Function.iterate_succ_apply, hstep,
        ih (fun c hc => ?_) hnodup _ _ (fun m hm => ?_) hsteps]
      · rw [List.filter_filter, List.append_assoc, List.singleton_append]
        congr 1
        refine List.filter_congr fun m _ => ?_
        simp only [List.map_cons, List.contains_cons, Bool.not_or, decide_not, beq_eq_decide,
          Bool.and_comm]
      · rcases List.mem_append.mp hc with hnew | hold
        · exact ((ha.mem_children n hmem c).mp hnew).isLive
        · exact hlive c (List.mem_cons_of_mem _ hold)
      · rw [List.find?_filter, ← hfound m hm]
        refine congrFun (congrArg List.find? (funext fun k => ?_)) nodes
        have hne : m.handle ≠ n.handle := fun heq => hfresh (heq ▸ List.mem_map_of_mem hm)
        by_cases hk : k.handle = m.handle
        · simp [hk, hne]
        · simp [hk]

theorem iterate_step_unlink (ha : o.Arena) {n : Node} (hn : n ∈ o.nodes) :
    Dismantling.step^[(o.subtree n.handle).length] ⟨(o.unlink n).nodes, [n.handle], []⟩ =
      ⟨(o.prune n.handle).nodes, [], o.subtree n.handle⟩ := by
  have hsingle : [n.handle].flatMap o.subtree = o.subtree n.handle := List.flatMap_singleton ..
  have hlive : ∀ h ∈ [n.handle], o.isLive h = true :=
    fun h hh => List.mem_singleton.mp hh ▸ isLive_of_mem hn
  have hloop := ha.iterate_step hlive
    (hsingle ▸ ha.nodup_handles (ha.pairwise_subtree n.handle)) (o.unlink n).nodes []
  rw [hsingle] at hloop
  rw [hloop, List.nil_append]
  · rw [Outline.prune, ha.node?_handle hn]
    rfl
  · intro m hm
    obtain ⟨hm, hbelow⟩ := ha.mem_subtree_iff.mp hm
    have hsame : m.trim (· ≠ n.handle) = m := by
      refine Node.trim_eq_self fun c hc => ?_
      have hchild := (ha.mem_children m hm c).mp hc
      have hlt := Nat.lt_of_le_of_lt (ha.le_of_below hbelow) (ha.lt_of_isChild hchild)
      simpa using Nat.ne_of_gt hlt
    rw [ha.unlink_nodes hn, List.find?_map]
    have hfind : (o.nodes.find? fun k => k.handle == m.handle) = some m := ha.node?_handle hm
    simp only [Function.comp_def, Node.trim_handle, hfind, Option.map_some, hsame]

/-! What stays. -/

theorem outside_iff_of_isLive (ha : o.Arena) {top x : Handle} (htop : o.isLive top = true) :
    o.outside top x = true ↔ ¬o.Below top x := by
  cases hx : o.isLive x with
  | true => exact ha.outside_iff hx
  | false =>
    refine iff_of_true ?_ fun hbelow => ?_
    · rw [outside, Bool.not_eq_true', ← Bool.not_eq_true, List.contains_iff_mem, ha.mem_subtree]
      simp [hx]
    · rcases hbelow.cases_tail with rfl | ⟨q, -, hchild⟩
      · exact Bool.false_ne_true (hx.symm.trans htop)
      · exact Bool.false_ne_true (hx.symm.trans hchild.isLive)

theorem foldl_prune_eq_restrict (ha : o.Arena) {handles : List Handle}
    (hlive : ∀ h ∈ handles, o.isLive h = true) : ∃ stays : Handle → Bool,
      (∀ x, stays x = true ↔ ∀ h ∈ handles, ¬o.Below h x) ∧ handles.foldl Outline.prune o =
        o.restrict stays := by
  obtain ⟨keep, -, hfold, hkeep⟩ := ha.foldl_prune handles
  have hstays : ∀ x, (handles.all fun h => o.outside h x) = true ↔ ∀ h ∈ handles, ¬o.Below h x := by
    intro x
    rw [List.all_eq_true]
    exact forall₂_congr fun h hh => ha.outside_iff_of_isLive (hlive h hh)
  refine ⟨_, hstays, ?_⟩
  rw [hfold]
  exact ha.restrict_congr fun x hx => by rw [Bool.eq_iff_iff, hkeep x hx, hstays]

theorem trim_eq_disown (ha : o.Arena) {n m : Node} (hn : n ∈ o.nodes) (hm : m ∈ o.nodes)
    (hout : o.outside n.handle m.handle = true) :
    m.trim (o.outside n.handle) = m.disown n.parent n.handle := by
  have htrim : m.trim (o.outside n.handle) = m.trim (· ≠ n.handle) :=
    Node.trim_congr fun c hc => (ha.ne_iff_outside hout ((ha.mem_children m hm c).mp hc)).symm
  rw [htrim, Node.disown]
  split
  · rfl
  · rename_i hparent
    refine Node.trim_eq_self fun c hc => decide_eq_true ?_
    rintro rfl
    obtain ⟨k, hk, hkn, hkp⟩ := (ha.mem_children m hm n.handle).mp hc
    exact hparent (hkp.symm.trans (congrArg Node.parent (ha.eq_of_handle hk hn hkn)))

theorem eq_of_below_root (ha : o.Arena) {top r : Handle} (hr : r ∈ o.roots)
    (hbelow : o.Below top r) : top = r := by
  by_contra hne
  have habove : top ∈ o.ancestors r := ⟨hne, hbelow⟩
  rw [ha.ancestors_root hr] at habove
  cases habove

theorem filter_roots_outside (ha : o.Arena) {n : Node} (hn : n ∈ o.nodes) :
    o.roots.filter (o.outside n.handle) =
      if n.parent = none then o.roots.filter (· ≠ n.handle) else o.roots := by
  have houtside : ∀ r ∈ o.roots, (o.outside n.handle r = true ↔ r ≠ n.handle) := by
    intro r hr
    obtain ⟨m, hm, rfl, -⟩ := (ha.mem_roots r).mp hr
    rw [ha.outside_iff (isLive_of_mem hm)]
    exact ⟨fun hout heq => hout (heq ▸ .refl),
      fun hne hbelow => hne (ha.eq_of_below_root hr hbelow).symm⟩
  split
  · refine List.filter_congr fun r hr => ?_
    rw [Bool.eq_iff_iff, decide_eq_true_iff]
    exact houtside r hr
  · rename_i hparent
    refine List.filter_eq_self.mpr fun r hr => (houtside r hr).mpr ?_
    rintro rfl
    obtain ⟨m, hm, hmn, hroot⟩ := (ha.mem_roots _).mp hr
    exact hparent (ha.eq_of_handle hm hn hmn ▸ hroot)

theorem prune_eq (ha : o.Arena) {n : Node} (hn : n ∈ o.nodes) :
    o.prune n.handle = { o with
      nodes := (o.nodes.filter fun m => o.outside n.handle m.handle).map
        (Node.disown n.parent n.handle)
      roots := if n.parent = none then o.roots.filter (· ≠ n.handle) else o.roots
      outbox := o.outbox.filter fun e => e.node?.all (o.outside n.handle)
      selected := o.selected.filter (o.outside n.handle) } := by
  have hnodes : (o.nodes.filter fun m => o.outside n.handle m.handle).map
      (Node.trim (o.outside n.handle)) =
      (o.nodes.filter fun m => o.outside n.handle m.handle).map
        (Node.disown n.parent n.handle) := by
    refine List.map_congr_left fun m hm => ?_
    obtain ⟨hm, hout⟩ := List.mem_filter.mp hm
    exact ha.trim_eq_disown hn hm hout
  rw [ha.prune_eq_restrict, Outline.restrict, hnodes, ha.filter_roots_outside hn]

theorem closed_eq (ha : o.Arena) {n : Node} (hn : n ∈ o.nodes) :
    ∃ stays : Handle → Bool,
      (∀ x, stays x = true ↔ x = n.handle ∨ ¬o.Below n.handle x) ∧
      o.closed n = { o with
        nodes := (o.nodes.filter fun m => stays m.handle).map fun m =>
          if m.handle = n.handle then m.shut else m
        outbox := o.outbox.filter fun e => e.node?.all stays
        selected := o.selected.filter stays
        openKeys := o.openKeys.erase n.key } := by
  obtain ⟨stays, hstays⟩ : ∃ stays : Handle → Bool, ∀ x, stays x = true ↔
      x = n.handle ∨ ¬o.Below n.handle x := by
    refine ⟨fun x => x == n.handle || o.outside n.handle x, fun x => ?_⟩
    rw [Bool.or_eq_true, beq_iff_eq, ha.outside_iff_of_isLive (isLive_of_mem hn)]
  obtain ⟨keep, -, hfold, hkeep⟩ := ha.foldl_prune_children hn
  have hsame : o.restrict keep = o.restrict stays :=
    ha.restrict_congr fun x hx => Bool.eq_iff_iff.mpr ((hkeep x hx).trans (hstays x).symm)
  have hnodes : ∀ m ∈ o.nodes, stays m.handle = true →
      (if (m.trim stays).handle = n.handle then (m.trim stays).inState .collapsed
        else m.trim stays) =
        if m.handle = n.handle then m.shut else m := by
    intro m hm hkept
    rw [Node.trim_handle]
    split
    · rename_i hhandle
      have hnone : m.children.filter stays = [] := by
        refine List.filter_eq_nil_iff.mpr fun c hc => ?_
        have hchild := (ha.mem_children m hm c).mp hc
        rw [hstays, hhandle.symm]
        rintro (rfl | hout)
        · exact Nat.lt_irrefl _ (ha.lt_of_isChild hchild)
        · exact hout (.single hchild)
      rw [Node.trim, Node.inState, Node.shut, hnone]
    · rename_i hhandle
      refine Node.trim_eq_self fun c hc => ?_
      have hchild := (ha.mem_children m hm c).mp hc
      rw [hstays]
      refine (Decidable.em (c = n.handle)).imp_right fun hne hbelow => ?_
      rcases hbelow.cases_tail with heq | ⟨q, hq, hqc⟩
      · exact hne heq
      · rw [ha.isChild_inj hqc hchild] at hq
        exact ((hstays _).mp hkept).elim hhandle fun hout => hout hq
  have hroots : o.roots.filter stays = o.roots := by
    refine List.filter_eq_self.mpr fun r hr => ?_
    obtain ⟨m, hm, rfl, -⟩ := (ha.mem_roots r).mp hr
    rw [hstays]
    exact (Decidable.em (m.handle = n.handle)).imp_right fun hne hbelow =>
      hne (ha.eq_of_below_root hr hbelow).symm
  refine ⟨stays, hstays, ?_⟩
  rw [Outline.closed, hfold, hsame, Outline.restrict, Outline.update, hroots, List.map_map]
  congr 1
  refine List.map_congr_left fun m hm => ?_
  obtain ⟨hm, hkept⟩ := List.mem_filter.mp hm
  exact hnodes m hm hkept

end Arena

/--
Removing a node takes exactly the nodes below it and itself, in the order of the listing, also by
the loop over a stack; what stays is as it was, but that the node's parent or the roots do not list
it and that neither the selection nor an effect is for a node that went. Closing an open node never
fails, and takes exactly the nodes strictly below it; what stays is as it was, but that the node is
closed without children and not remembered as open.
-/
theorem remove_exact (ho : o.Reachable) {n : Node} (hn : n ∈ o.nodes) :
    (∃ stays : Handle → Bool, (∀ x, stays x = true ↔ ¬o.Below n.handle x) ∧
      let gone := (o.walk.map Prod.snd).filter fun m => !stays m.handle
      let rest := { o with
        nodes := (o.nodes.filter fun m => stays m.handle).map (Node.disown n.parent n.handle)
        roots := if n.parent = none then o.roots.filter (· ≠ n.handle) else o.roots
        outbox := o.outbox.filter fun e => e.node?.all stays
        selected := o.selected.filter stays }
      o.remove n.handle = .ok (gone.map Node.entityId, rest) ∧
        Dismantling.step^[gone.length] ⟨(o.unlink n).nodes, [n.handle], []⟩ =
          ⟨rest.nodes, [], gone⟩) ∧
    (n.expansion.isOpen = true → ∃ stays : Handle → Bool,
      (∀ x, stays x = true ↔ x = n.handle ∨ ¬o.Below n.handle x) ∧
      o.toggle n.handle = .ok (.collapsed, { o with
        nodes := (o.nodes.filter fun m => stays m.handle).map fun m =>
          if m.handle = n.handle then m.shut else m
        outbox := o.outbox.filter fun e => e.node?.all stays
        selected := o.selected.filter stays
        openKeys := o.openKeys.erase n.key })) := by
  have ha := ho.arena
  constructor
  · have hstays : ∀ x, o.outside n.handle x = true ↔ ¬o.Below n.handle x :=
      fun x => ha.outside_iff_of_isLive (isLive_of_mem hn)
    refine ⟨o.outside n.handle, hstays, ?_⟩
    have hgone := ha.subtree_eq_filter_walk hstays
    have hloop := ha.iterate_step_unlink hn
    have hremove : o.remove n.handle =
        .ok ((o.subtree n.handle).map Node.entityId, o.prune n.handle) := by
      rw [Outline.remove, ha.node?_handle hn]
    rw [hgone, ha.prune_eq hn] at hloop hremove
    exact ⟨hremove, hloop⟩
  · intro hopen
    obtain ⟨stays, hstays, hclosed⟩ := ha.closed_eq hn
    refine ⟨stays, hstays, ?_⟩
    rw [ha.toggle_eq hn, ← hclosed]
    cases hexpansion : n.expansion with
    | leaf | collapsed => rw [hexpansion] at hopen; cases hopen
    | fetching | expanded => rfl

def openPage : Outline :=
  (start .empty).run
    [.draw ⟨"p", "", none, .content, []⟩ none none true true, .toggle 0,
      .receive 0 [⟨"f", "", none, .folder [] [⟨"i", "", none, .image, []⟩] [], []⟩],
      .toggle 1, .click 2, .draw ⟨"q", "", none, .content, []⟩ none none true false]

theorem remove_exact_openPage :
    openPage.Reachable ∧ ∃ n ∈ openPage.nodes, n.handle = 0 ∧ n.expansion.isOpen = true ∧
      (∃ rest, openPage.remove n.handle = .ok (["p", "f", "i"], rest) ∧ rest.nodes.length = 1) ∧
        ∃ closed, openPage.toggle n.handle = .ok (.collapsed, closed) := by
  have ho : openPage.Reachable := ⟨_, _, rfl⟩
  have hopen : (openPage.node? 0).map (fun n => n.expansion.isOpen) = some true := by decide
  obtain ⟨n, hn, hopen⟩ := Option.map_eq_some_iff.mp hopen
  obtain ⟨hmem, hhandle⟩ := mem_of_node? hn
  obtain ⟨⟨stays, -, hremove, -⟩, htoggle⟩ := remove_exact ho hmem
  obtain ⟨stays', -, htoggle⟩ := htoggle hopen
  have hids : ((openPage.remove 0).map fun r => (r.1, r.2.nodes.length)) =
      .ok (["p", "f", "i"], 1) := by
    rfl
  refine ⟨ho, n, hmem, hhandle, hopen, ?_, _, htoggle⟩
  rw [← hhandle, hremove] at hids
  obtain ⟨hids, hlength⟩ := Prod.mk.inj (Except.ok.inj hids)
  exact ⟨_, hids ▸ hremove, hlength⟩

end Outline

end ContentConsole
