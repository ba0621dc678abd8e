import ContentConsole.Proofs.Outline.Action
import Mathlib.Data.Set.Card

set_option autoImplicit false
set_option relaxedAutoImplicit false

/-!
The listing of an outline as a preorder. Main statement: `walk_preorder`, by which a visit with a
stack comes to an end, and lists every node once, in preorder and at the depth of its ancestors.
-/
namespace ContentConsole

/-- A visit underway: what waits on the stack with its depth, and what is listed already. -/
structure Visit where
  stack : List (Nat × Handle)
  listed : List (Nat × Node) := []

namespace Outline

/-- Takes the top of the stack: its node is listed, and its children take its place. -/
def visit (o : Outline) : Visit → Visit
  | ⟨[], listed⟩ => ⟨[], listed⟩
  | ⟨(depth, h) :: stack, listed⟩ =>
    match o.node? h with
    | none => ⟨stack, listed⟩
    | some n => ⟨n.children.map (fun c => (depth + 1, c)) ++ stack, listed ++ [(depth, n)]⟩

/-- The handle `a` stands before `b` in the roots or among the children of a node. -/
def Ahead (o : Outline) (a b : Handle) : Prop :=
  [a, b].Sublist o.roots ∨ ∃ p ∈ o.nodes, [a, b].Sublist p.children

/-- In preorder `x` comes before `y`: it is above `y`, or in a subtree ahead of one with `y`. -/
def Precedes (o : Outline) (x y : Handle) : Prop :=
  (x ≠ y ∧ o.Below x y) ∨ ∃ a b, o.Ahead a b ∧ o.Below a x ∧ o.Below b y

def ancestors (o : Outline) (h : Handle) : Set Handle := {a | a ≠ h ∧ o.Below a h}

variable {o : Outline} {a b x y : Handle}

/-! Siblings. -/

namespace Arena

theorem siblings_of_ahead (ha : o.Arena) (hab : o.Ahead a b) :
    a < b ∧ (∀ q, o.IsChild q a ↔ o.IsChild q b) := by
  rcases hab with hroots | ⟨p, hp, hchildren⟩
  · have hlt : a < b := List.pairwise_iff_forall_sublist.mp ha.roots_ascending hroots
    have hnone : ∀ r ∈ o.roots, ∀ q, ¬o.IsChild q r := by
      rintro r hr q ⟨n, hn, hnr, hq⟩
      obtain ⟨m, hm, hmr, hnil⟩ := (ha.mem_roots r).mp hr
      rw [ha.eq_of_handle hn hm (hnr.trans hmr.symm), hnil] at hq
      cases hq
    refine ⟨hlt,
      fun q => iff_of_false (hnone a (hroots.subset ?_) q) (hnone b (hroots.subset ?_) q)⟩
    · exact List.mem_cons_self ..
    · exact List.mem_cons_of_mem _ (List.mem_cons_self ..)
  · have hlt : a < b := List.pairwise_iff_forall_sublist.mp (ha.children_ascending p hp) hchildren
    have hpa : o.IsChild p.handle a := (ha.mem_children p hp a).mp (hchildren.subset (by simp))
    have hpb : o.IsChild p.handle b := (ha.mem_children p hp b).mp (hchildren.subset (by simp))
    refine ⟨hlt, fun q => ⟨fun hq => ?_, fun hq => ?_⟩⟩
    · rwa [ha.isChild_inj hq hpa]
    · rwa [ha.isChild_inj hq hpb]

private theorem not_below_of_lt (ha : o.Arena) (hlt : a < b)
    (hsame : ∀ q, o.IsChild q a ↔ o.IsChild q b) (hax : o.Below a x) : ¬o.Below b x := by
  intro hbx
  rcases ha.below_total hax hbx with hbelow | hbelow
  · rcases hbelow.cases_tail with rfl | ⟨q, haq, hqb⟩
    · exact Nat.lt_irrefl _ hlt
    · have hqa := ha.lt_of_isChild ((hsame q).mpr hqb)
      exact Nat.lt_irrefl _ (Nat.lt_of_lt_of_le hqa (ha.le_of_below haq))
  · exact Nat.lt_irrefl _ (Nat.lt_of_lt_of_le hlt (ha.le_of_below hbelow))

theorem not_below_of_ahead (ha : o.Arena) (hab : o.Ahead a b)
    (hax : o.Below a x) : ¬o.Below b x := by
  obtain ⟨hlt, hsame⟩ := ha.siblings_of_ahead hab
  exact ha.not_below_of_lt hlt hsame hax

theorem precedes_asymm (ha : o.Arena) (hxy : o.Precedes x y) : ¬o.Precedes y x := by
  rcases hxy with ⟨hne, hxy⟩ | ⟨a, b, hab, hax, hby⟩
  · rintro (⟨-, hyx⟩ | ⟨a, b, hab, hay, hbx⟩)
    · exact hne (Nat.le_antisymm (ha.le_of_below hxy) (ha.le_of_below hyx))
    · exact ha.not_below_of_ahead hab hay (hbx.trans hxy)
  · rintro (⟨-, hyx⟩ | ⟨c, d, hcd, hcy, hdx⟩)
    · exact ha.not_below_of_ahead hab hax (hby.trans hyx)
    · obtain ⟨habLt, habSame⟩ := ha.siblings_of_ahead hab
      obtain ⟨hcdLt, hcdSame⟩ := ha.siblings_of_ahead hcd
      have hne : b ≠ c := by
        rintro rfl
        exact ha.not_below_of_lt (Nat.lt_trans habLt hcdLt)
          (fun q => (habSame q).trans (hcdSame q)) hax hdx
      -- Both `b` and `c` are above `y`, so one is above the other, and then above
      -- the other's sibling.
      rcases ha.below_total hby hcy with hbc | hcb
      · rcases hbc.cases_tail with rfl | ⟨q, hbq, hqc⟩
        · exact hne rfl
        · exact ha.not_below_of_ahead hab hax ((hbq.tail ((hcdSame q).mp hqc)).trans hdx)
      · rcases hcb.cases_tail with rfl | ⟨q, hcq, hqb⟩
        · exact hne rfl
        · exact ha.not_below_of_ahead hcd ((hcq.tail ((habSame q).mpr hqb)).trans hax) hdx

theorem precedes_irrefl (ha : o.Arena) : ¬o.Precedes x x := fun h => ha.precedes_asymm h h

end Arena

/-! The listing of one subtree. -/

namespace Arena

theorem listing_node (ha : o.Arena) {n : Node} {h : Handle} (hn : o.node? h = some n)
    (depth : Nat) :
    o.listing o.nodes.length depth h =
      (depth, n) :: n.children.flatMap (o.listing o.nodes.length (depth + 1)) := by
  rw [ha.listing_eq (Nat.le_refl _) (Nat.le_succ _), listing, hn]

theorem pairwise_listing (ha : o.Arena) (levels : Nat) : ∀ (depth : Nat) (h : Handle),
    (o.listing levels depth h).Pairwise fun v w => o.Precedes v.2.handle w.2.handle := by
  induction levels with
  | zero => exact fun _ _ => List.Pairwise.nil
  | succ levels ih =>
    intro depth h
    rw [listing]
    cases hn : o.node? h with
    | none => exact List.Pairwise.nil
    | some n =>
      obtain ⟨hmem, rfl⟩ := mem_of_node? hn
      refine List.pairwise_cons.mpr
        ⟨fun w hw => ?_, List.pairwise_flatMap.mpr ⟨fun c _ => ih _ c, ?_⟩⟩
      · obtain ⟨c, hc, hw⟩ := List.mem_flatMap.mp hw
        have hchild := (ha.mem_children n hmem c).mp hc
        have hcw := (ha.below_of_mem_listing levels _ c w hw).2
        have hlt := Nat.lt_of_lt_of_le (ha.lt_of_isChild hchild) (ha.le_of_below hcw)
        exact .inl ⟨Nat.ne_of_lt hlt, hcw.head hchild⟩
      · refine List.pairwise_iff_forall_sublist.mpr fun {c d} hcd v hv w hw => ?_
        have hcv := (ha.below_of_mem_listing levels _ c v hv).2
        have hdw := (ha.below_of_mem_listing levels _ d w hw).2
        exact .inr ⟨c, d, .inr ⟨n, hmem, hcd⟩, hcv, hdw⟩

theorem pairwise_walk (ha : o.Arena) :
    o.walk.Pairwise fun v w => o.Precedes v.2.handle w.2.handle := by
  refine List.pairwise_flatMap.mpr ⟨fun r _ => ha.pairwise_listing _ 0 r, ?_⟩
  refine List.pairwise_iff_forall_sublist.mpr fun {r s} hrs v hv w hw => ?_
  have hrv := (ha.below_of_mem_listing _ 0 r v hv).2
  have hsw := (ha.below_of_mem_listing _ 0 s w hw).2
  exact .inr ⟨r, s, .inl hrs, hrv, hsw⟩

/-! Depths. -/

theorem finite_ancestors (ha : o.Arena) (h : Handle) : (o.ancestors h).Finite :=
  (Set.finite_le_nat h).subset fun _ habove => ha.le_of_below habove.2

theorem ancestors_child (ha : o.Arena) {p c : Handle} (hc : o.IsChild p c) :
    o.ancestors c = Insert.insert p (o.ancestors p) := by
  have hlt := ha.lt_of_isChild hc
  ext a
  simp only [ancestors, Set.mem_ofPred_eq, Set.mem_insert_iff]
  constructor
  · rintro ⟨hne, hac⟩
    rcases hac.cases_tail with rfl | ⟨q, haq, hqc⟩
    · exact absurd rfl hne
    · rw [ha.isChild_inj hqc hc] at haq
      exact (Decidable.em (a = p)).imp_right fun hap => ⟨hap, haq⟩
  · rintro (rfl | ⟨-, hap⟩)
    · exact ⟨Nat.ne_of_lt hlt, .single hc⟩
    · exact ⟨Nat.ne_of_lt (Nat.lt_of_le_of_lt (ha.le_of_below hap) hlt), hap.tail hc⟩

theorem ncard_ancestors_child (ha : o.Arena) {p c : Handle} (hc : o.IsChild p c) :
    (o.ancestors c).ncard = (o.ancestors p).ncard + 1 := by
  rw [ha.ancestors_child hc,
    Set.ncard_insert_of_notMem (fun habove => habove.1 rfl) (ha.finite_ancestors p)]

theorem ancestors_root (ha : o.Arena) {r : Handle} (hr : r ∈ o.roots) : o.ancestors r = ∅ := by
  obtain ⟨m, hm, rfl, hnone⟩ := (ha.mem_roots r).mp hr
  refine Set.eq_empty_iff_forall_notMem.mpr ?_
  rintro a ⟨hne, hbelow⟩
  rcases hbelow.cases_tail with heq | ⟨q, -, n, hn, hnm, hq⟩
  · exact hne heq.symm
  · rw [ha.eq_of_handle hn hm hnm, hnone] at hq
    cases hq

theorem depth_of_mem_listing (ha : o.Arena) (levels : Nat) : ∀ (depth : Nat) (h : Handle),
    depth = (o.ancestors h).ncard → ∀ w ∈ o.listing levels depth h, w.1 =
      (o.ancestors w.2.handle).ncard := by
  induction levels with
  | zero => simp [listing]
  | succ levels ih =>
    intro depth h hdepth w hw
    rw [listing] at hw
    cases hn : o.node? h with
    | none => simp [hn] at hw
    | some n =>
      obtain ⟨hmem, rfl⟩ := mem_of_node? hn
      simp only [hn, List.mem_cons, List.mem_flatMap] at hw
      rcases hw with rfl | ⟨c, hc, hw⟩
      · exact hdepth
      · have hchild := (ha.mem_children n hmem c).mp hc
        exact ih (depth + 1) c (by rw [ha.ncard_ancestors_child hchild, hdepth]) w hw

theorem depth_of_mem_walk (ha : o.Arena) {w : Nat × Node} (hw : w ∈ o.walk) :
    w.1 = (o.ancestors w.2.handle).ncard := by
  obtain ⟨r, hr, hw⟩ := List.mem_flatMap.mp hw
  exact ha.depth_of_mem_listing _ 0 r (by rw [ha.ancestors_root hr, Set.ncard_empty]) w hw

/-! Completeness. -/

theorem exists_root_above (ha : o.Arena) {n : Node} (hn : n ∈ o.nodes) :
    ∃ r ∈ o.roots, o.Below r n.handle := by
  induction hh : n.handle using Nat.strong_induction_on generalizing n with
  | _ h ih =>
    subst hh
    cases hp : n.parent with
    | none => exact ⟨n.handle, (ha.mem_roots _).mpr ⟨n, hn, rfl, hp⟩, .refl⟩
    | some p =>
      obtain ⟨m, hm, rfl⟩ := isLive_iff.mp (ha.parent_live n hn p hp)
      obtain ⟨r, hr, hbelow⟩ := ih m.handle (ha.parent_lt n hn m.handle hp) hm rfl
      exact ⟨r, hr, hbelow.tail ⟨n, hn, rfl, hp⟩⟩

theorem mem_walk_iff (ha : o.Arena) {n : Node} : n ∈ o.walk.map Prod.snd ↔ n ∈ o.nodes := by
  constructor
  · rintro hn
    obtain ⟨w, hw, rfl⟩ := List.mem_map.mp hn
    obtain ⟨r, -, hw⟩ := List.mem_flatMap.mp hw
    exact (ha.below_of_mem_listing _ 0 r w hw).1
  · intro hn
    obtain ⟨r, hr, hbelow⟩ := ha.exists_root_above hn
    obtain ⟨m, hm, hmn⟩ := List.mem_map.mp (ha.mem_subtree.mpr ⟨isLive_of_mem hn, hbelow⟩)
    obtain ⟨w, hw, rfl⟩ := List.mem_map.mp hm
    rw [← ha.eq_of_handle (ha.below_of_mem_listing _ 0 r w hw).1 hn hmn]
    exact List.mem_map_of_mem (List.mem_flatMap.mpr ⟨r, hr, hw⟩)

theorem walk_perm (ha : o.Arena) : (o.walk.map Prod.snd).Perm o.nodes := by
  have hlisted : (o.walk.map Prod.snd).Nodup := by
    refine List.pairwise_map.mpr (ha.pairwise_walk.imp fun {v w} hvw heq => ?_)
    rw [heq] at hvw
    exact ha.precedes_irrefl hvw
  exact (List.perm_ext_iff_of_nodup hlisted ha.nodup_nodes).mpr fun _ => ha.mem_walk_iff

/-! The visit. -/

theorem iterate_visit (ha : o.Arena) (listed : List (Nat × Node)) {stack : List (Nat × Handle)}
    (hlive : ∀ w ∈ stack, o.isLive w.2 = true) :
    o.visit^[(stack.flatMap fun w => o.listing o.nodes.length w.1 w.2).length] ⟨stack, listed⟩ =
      ⟨[], listed ++ stack.flatMap fun w => o.listing o.nodes.length w.1 w.2⟩ := by
  generalize hsteps : (stack.flatMap fun w => o.listing o.nodes.length w.1 w.2).length = steps
  induction steps generalizing stack listed with
  | zero =>
    cases stack with
    | nil => simp
    | cons w stack =>
      obtain ⟨n, hn⟩ := exists_node?_of_isLive (hlive w (List.mem_cons_self ..))
      simp [ha.listing_node hn] at hsteps
  | succ steps ih =>
    cases stack with
    | nil => simp at hsteps
    | cons w stack =>
      obtain ⟨n, hn⟩ := exists_node?_of_isLive (hlive w (List.mem_cons_self ..))
      obtain ⟨hmem, -⟩ := mem_of_node? hn
      have hvisit : o.visit ⟨w :: stack, listed⟩ =
          ⟨n.children.map (fun c => (w.1 + 1, c)) ++ stack, listed ++ [(w.1, n)]⟩ := by
        rw [visit, hn]
      have hwaits : (w :: stack).flatMap (fun w => o.listing o.nodes.length w.1 w.2) =
          (w.1, n) :: (n.children.map (fun c => (w.1 + 1, c)) ++ stack).flatMap
            fun w => o.listing o.nodes.length w.1 w.2 := by
        rw [List.flatMap_cons, ha.listing_node hn, List.flatMap_append, List.flatMap_map,
          List.cons_append]
      rw [hwaits, List.length_cons, Nat.add_right_cancel_iff] at hsteps
      rw [Function.iterate_succ_apply, hvisit, ih (listed ++ [(w.1, n)]) (fun v hv => ?_) hsteps,
        hwaits, List.append_assoc, List.singleton_append]
      rcases List.mem_append.mp hv with hnew | hold
      · obtain ⟨c, hc, rfl⟩ := List.mem_map.mp hnew
        exact ((ha.mem_children n hmem c).mp hc).isLive
      · exact hlive v (List.mem_cons_of_mem _ hold)

end Arena

/--
In every outline that a run of actions leads to, a visit from the roots has taken every node from
its stack after as many steps as there are nodes, and has listed then what the walk lists: each node
once, at the depth of its ancestors, above what is below it and behind the subtrees ahead.
-/
theorem walk_preorder (openKeys : OpenKeys) (actions : List Action) :
    let o := (start openKeys).run actions
    o.visit^[o.nodes.length] ⟨o.roots.map fun r => (0, r), []⟩ = ⟨[], o.walk⟩ ∧
      (o.walk.map Prod.snd).Perm o.nodes ∧ o.walk.length = o.nodes.length ∧
      (∀ w ∈ o.walk, w.1 = (o.ancestors w.2.handle).ncard) ∧
      ∀ (i j : Nat) (v w : Nat × Node), o.walk[i]? = some v → o.walk[j]? = some w →
        (i < j ↔ o.Precedes v.2.handle w.2.handle) := by
  intro o
  have ha : o.Arena := (arena_start openKeys).run actions
  have hlength : o.walk.length = o.nodes.length := by
    rw [← ha.walk_perm.length_eq, List.length_map]
  have hlive : ∀ w ∈ o.roots.map fun r => (0, r), o.isLive w.2 = true := by
    intro w hw
    obtain ⟨r, hr, rfl⟩ := List.mem_map.mp hw
    obtain ⟨n, hn, hnr, -⟩ := (ha.mem_roots r).mp hr
    exact isLive_iff.mpr ⟨n, hn, hnr⟩
  have hvisit := ha.iterate_visit [] hlive
  rw [List.flatMap_map, List.nil_append] at hvisit
  refine ⟨?_, ha.walk_perm, hlength, fun w => ha.depth_of_mem_walk, fun i j v w hv hw => ?_⟩
  · rw [← hlength]
    exact hvisit
  · have hordered := List.pairwise_iff_getElem.mp ha.pairwise_walk
    obtain ⟨hi, rfl⟩ := List.getElem?_eq_some_iff.mp hv
    obtain ⟨hj, rfl⟩ := List.getElem?_eq_some_iff.mp hw
    refine ⟨hordered i j hi hj, fun hprecedes => ?_⟩
    rcases Nat.lt_trichotomy i j with hlt | rfl | hgt
    · exact hlt
    · exact absurd hprecedes ha.precedes_irrefl
    · exact absurd hprecedes (ha.precedes_asymm (hordered j i hj hi hgt))

end Outline

end ContentConsole
