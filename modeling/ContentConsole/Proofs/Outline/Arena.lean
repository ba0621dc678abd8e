import ContentConsole.Outline.Basic
import Mathlib.Data.List.Nodup
import Mathlib.Logic.Relation

set_option autoImplicit false
set_option relaxedAutoImplicit false

/-!
The arena of an outline: its nodes form a forest in which the lists of children, the roots and the
parents tell the same story, and nothing else names a node that is gone. Main statement:
`mem_subtree`, by which the listing of a subtree finds exactly what lies below its top.
-/
namespace ContentConsole.Outline

variable {o : Outline}

def IsChild (o : Outline) (p c : Handle) : Prop := ∃ n ∈ o.nodes, n.handle = c ∧ n.parent = some p

/-- The handle `h` is `top` itself or that of a node somewhere below it. -/
def Below (o : Outline) (top h : Handle) : Prop := Relation.ReflTransGen o.IsChild top h

/-- What holds of the nodes, the roots, the outbox and the selection together. -/
structure Arena (o : Outline) : Prop where
  /-- Nodes stand in the order of their handles, each handle once. -/
  ascending : o.nodes.Pairwise fun m n => m.handle < n.handle
  handle_lt : ∀ n ∈ o.nodes, n.handle < o.nextHandle
  mem_children : ∀ n ∈ o.nodes, ∀ c, c ∈ n.children ↔ o.IsChild n.handle c
  mem_roots : ∀ h, h ∈ o.roots ↔ ∃ n ∈ o.nodes, n.handle = h ∧ n.parent = none
  children_ascending : ∀ n ∈ o.nodes, n.children.Pairwise (· < ·)
  roots_ascending : o.roots.Pairwise (· < ·)
  parent_live : ∀ n ∈ o.nodes, ∀ p, n.parent = some p → o.isLive p
  parent_lt : ∀ n ∈ o.nodes, ∀ p, n.parent = some p → p < n.handle
  outbox_live : ∀ e ∈ o.outbox, ∀ h, e.node? = some h → o.isLive h
  selected_live : ∀ h, o.selected = some h → o.isLive h

theorem isLive_iff {h : Handle} : o.isLive h = true ↔ ∃ n ∈ o.nodes, n.handle = h := by
  simp [isLive, node?]

theorem isLive_of_mem {n : Node} (hn : n ∈ o.nodes) : o.isLive n.handle = true :=
  isLive_iff.mpr ⟨n, hn, rfl⟩

theorem mem_of_node? {h : Handle} {n : Node} (hn : o.node? h = some n) :
    n ∈ o.nodes ∧ n.handle = h := by
  have hhandle := List.find?_some hn
  exact ⟨List.mem_of_find?_eq_some hn, by simpa using hhandle⟩

theorem isLive_of_node? {h : Handle} {n : Node} (hn : o.node? h = some n) : o.isLive h = true := by
  simp [isLive, hn]

theorem exists_node?_of_isLive {h : Handle} (hh : o.isLive h = true) : ∃ n, o.node? h = some n :=
  Option.isSome_iff_exists.mp hh

theorem node?_eq_none {h : Handle} (hh : o.isLive h = false) : o.node? h = none := by
  simpa [isLive] using hh

theorem get_eq_ok_iff {h : Handle} {n : Node} : o.get h = .ok n ↔ o.node? h = some n := by
  unfold get
  cases o.node? h <;> simp

theorem IsChild.isLive {p c : Handle} (hc : o.IsChild p c) : o.isLive c = true := by
  obtain ⟨n, hn, hnc, -⟩ := hc
  exact isLive_iff.mpr ⟨n, hn, hnc⟩

namespace Arena

theorem nodup_map_handle (ha : o.Arena) : (o.nodes.map Node.handle).Nodup :=
  List.pairwise_map.mpr (ha.ascending.imp fun hlt => Nat.ne_of_lt hlt)

theorem nodup_nodes (ha : o.Arena) : o.nodes.Nodup := ha.nodup_map_handle.of_map

theorem eq_of_handle (ha : o.Arena) {m n : Node} (hm : m ∈ o.nodes) (hn : n ∈ o.nodes)
    (h : m.handle = n.handle) : m = n :=
  List.inj_on_of_nodup_map ha.nodup_map_handle hm hn h

theorem node?_eq_some_iff (ha : o.Arena) {h : Handle} {n : Node} :
    o.node? h = some n ↔ n ∈ o.nodes ∧ n.handle = h := by
  constructor
  · exact mem_of_node?
  · rintro ⟨hn, rfl⟩
    obtain ⟨m, hm⟩ := exists_node?_of_isLive (isLive_of_mem hn)
    have hmn := mem_of_node? hm
    rw [hm, ha.eq_of_handle hmn.1 hn hmn.2]

theorem node?_handle (ha : o.Arena) {n : Node} (hn : n ∈ o.nodes) : o.node? n.handle = some n :=
  ha.node?_eq_some_iff.mpr ⟨hn, rfl⟩

theorem filter_eq_singleton (ha : o.Arena) {n : Node} (hn : n ∈ o.nodes) {q : Node → Bool}
    (hq : ∀ m ∈ o.nodes, q m = true ↔ m = n) : o.nodes.filter q = [n] := by
  refine List.perm_singleton.mp
    ((List.perm_ext_iff_of_nodup (ha.nodup_nodes.filter _)
      (List.nodup_singleton n)).mpr fun m => ?_)
  rw [List.mem_filter, List.mem_singleton]
  constructor
  · rintro ⟨hm, hfound⟩
    exact (hq m hm).mp hfound
  · rintro rfl
    exact ⟨hn, (hq m hn).mpr rfl⟩

theorem filterMap_nodes (ha : o.Arena) {α : Type} {g : Node → Option α} {n : Node}
    (hn : n ∈ o.nodes) (hother : ∀ m ∈ o.nodes, m ≠ n → g m = none) :
    o.nodes.filterMap g = (g n).toList := by
  have hfilter : o.nodes.filter (fun m => decide (m = n)) = [n] :=
    ha.filter_eq_singleton hn fun _ _ => decide_eq_true_iff
  have hsame : o.nodes.filterMap g =
      (o.nodes.filter fun m => decide (m = n)).filterMap g := by
    rw [List.filterMap_filter]
    refine List.filterMap_congr fun m hm => ?_
    split
    · rfl
    · rename_i hne
      exact hother m hm (by simpa using hne)
  rw [hsame, hfilter]
  cases hg : g n <;> simp [hg]

theorem isLive_lt (ha : o.Arena) {h : Handle} (hh : o.isLive h = true) : h < o.nextHandle := by
  obtain ⟨n, hn, rfl⟩ := isLive_iff.mp hh
  exact ha.handle_lt n hn

theorem lt_of_isChild (ha : o.Arena) {p c : Handle} (hc : o.IsChild p c) : p < c := by
  obtain ⟨n, hn, rfl, hp⟩ := hc
  exact ha.parent_lt n hn p hp

theorem isLive_of_isChild (ha : o.Arena) {p c : Handle}
    (hc : o.IsChild p c) : o.isLive p = true := by
  obtain ⟨n, hn, rfl, hp⟩ := hc
  exact ha.parent_live n hn p hp

theorem isChild_inj (ha : o.Arena) {p q c : Handle} (hp : o.IsChild p c)
    (hq : o.IsChild q c) : p = q := by
  obtain ⟨m, hm, hmc, hmp⟩ := hp
  obtain ⟨n, hn, hnc, hnq⟩ := hq
  have hmn := ha.eq_of_handle hm hn (hmc.trans hnc.symm)
  rw [hmn, hnq] at hmp
  exact (Option.some.inj hmp).symm

theorem le_of_below (ha : o.Arena) {a b : Handle} (hab : o.Below a b) : a ≤ b := by
  induction hab with
  | refl => exact Nat.le_refl a
  | tail _ hc ih => exact Nat.le_trans ih (Nat.le_of_lt (ha.lt_of_isChild hc))

theorem isLive_of_below (ha : o.Arena) {a b : Handle} (hab : o.Below a b)
    (hb : o.isLive b = true) : o.isLive a = true := by
  induction hab with
  | refl => exact hb
  | tail _ hc ih => exact ih (ha.isLive_of_isChild hc)

theorem below_total (ha : o.Arena) {a b x : Handle} (hax : o.Below a x) (hbx : o.Below b x) :
    o.Below a b ∨ o.Below b a := by
  induction hax with
  | refl => exact .inr hbx
  | tail hap hc ih =>
    rcases hbx.cases_tail with rfl | ⟨q, hbq, hqc⟩
    · exact .inl (hap.tail hc)
    · exact ih (ha.isChild_inj hqc hc ▸ hbq)

end Arena

/-! The listing of a subtree has enough levels: below a node the handles rise. -/

private def room (o : Outline) (h : Handle) : Nat :=
  (o.nodes.filter fun n => decide (h ≤ n.handle)).length

private theorem Arena.room_lt (ha : o.Arena) {p c : Handle}
    (hc : o.IsChild p c) : room o c < room o p := by
  have hlt := ha.lt_of_isChild hc
  have hsub : o.nodes.filter (fun n => decide (c ≤ n.handle)) =
      (o.nodes.filter fun n => decide (p ≤ n.handle)).filter fun n => decide (c ≤ n.handle) := by
    rw [List.filter_filter]
    apply List.filter_congr
    intro n _
    by_cases h : c ≤ n.handle
    · simp [h, Nat.le_trans (Nat.le_of_lt hlt) h]
    · simp [h]
  rw [room, room, hsub, List.length_filter_lt_length_iff_exists]
  obtain ⟨n, hn, rfl⟩ := isLive_iff.mp (ha.isLive_of_isChild hc)
  refine ⟨n, by simp [hn], ?_⟩
  simpa using hlt

theorem Arena.below_of_mem_listing (ha : o.Arena) (levels : Nat) :
    ∀ (depth : Nat) (h : Handle), ∀ entry ∈ o.listing levels depth h,
      entry.2 ∈ o.nodes ∧ o.Below h entry.2.handle := by
  induction levels with
  | zero => simp [listing]
  | succ levels ih =>
    intro depth h entry hentry
    rw [listing] at hentry
    cases hn : o.node? h with
    | none => simp [hn] at hentry
    | some n =>
      obtain ⟨hmem, rfl⟩ := mem_of_node? hn
      simp only [hn, List.mem_cons, List.mem_flatMap] at hentry
      rcases hentry with rfl | ⟨c, hc, hentry⟩
      · exact ⟨hmem, .refl⟩
      · obtain ⟨hlisted, hbelow⟩ := ih (depth + 1) c entry hentry
        exact ⟨hlisted, hbelow.head ((ha.mem_children n hmem c).mp hc)⟩

private theorem Arena.mem_listing_of_below (ha : o.Arena) {x : Handle} (hx : o.isLive x = true)
    (levels : Nat) : ∀ (depth : Nat) (h : Handle), room o h ≤ levels → o.Below h x →
      ∃ entry ∈ o.listing levels depth h, entry.2.handle = x := by
  induction levels with
  | zero =>
    intro depth h hroom hbelow
    obtain ⟨n, hn, rfl⟩ := isLive_iff.mp (ha.isLive_of_below hbelow hx)
    have hnone := List.length_eq_zero_iff.mp (Nat.le_zero.mp hroom)
    have hmem : n ∈ o.nodes.filter fun m => decide (n.handle ≤ m.handle) := by simp [hn]
    rw [hnone] at hmem
    simp at hmem
  | succ levels ih =>
    intro depth h hroom hbelow
    obtain ⟨n, hn⟩ := exists_node?_of_isLive (ha.isLive_of_below hbelow hx)
    rw [listing]
    simp only [hn, List.mem_cons, List.mem_flatMap]
    rcases Relation.ReflTransGen.cases_head hbelow with rfl | ⟨c, hc, hrest⟩
    · exact ⟨(depth, n), .inl rfl, (mem_of_node? hn).2⟩
    · have hroom' := ha.room_lt hc
      obtain ⟨entry, hentry, hhandle⟩ := ih (depth + 1) c (by omega) hrest
      obtain ⟨hmem, rfl⟩ := mem_of_node? hn
      exact ⟨entry, .inr ⟨c, (ha.mem_children n hmem c).mpr hc, hentry⟩, hhandle⟩

private theorem room_pos {h : Handle} {n : Node} (hn : o.node? h = some n) : 0 < room o h := by
  obtain ⟨hmem, rfl⟩ := mem_of_node? hn
  exact List.length_pos_of_mem (List.mem_filter.mpr ⟨hmem, decide_eq_true (Nat.le_refl _)⟩)

private theorem Arena.listing_eq_of_room_le (ha : o.Arena) {levels levels' : Nat} (depth : Nat)
    (h : Handle) (hroom : room o h ≤ levels) (hroom' : room o h ≤ levels') :
    o.listing levels depth h = o.listing levels' depth h := by
  induction levels generalizing levels' depth h with
  | zero =>
    cases hn : o.node? h with
    | none => cases levels' <;> simp [listing, hn]
    | some n => exact absurd hroom (Nat.not_le.mpr (room_pos hn))
  | succ levels ih =>
    cases hn : o.node? h with
    | none => cases levels' <;> simp [listing, hn]
    | some n =>
      cases levels' with
      | zero => exact absurd hroom' (Nat.not_le.mpr (room_pos hn))
      | succ levels' =>
        obtain ⟨hmem, rfl⟩ := mem_of_node? hn
        rw [listing, listing, hn]
        dsimp only
        congr 1
        refine List.flatMap_congr fun c hc => ?_
        have hlt := ha.room_lt ((ha.mem_children n hmem c).mp hc)
        exact ih (depth + 1) c (by omega) (by omega)

theorem Arena.listing_eq (ha : o.Arena) {levels levels' depth : Nat} {h : Handle}
    (hlevels : o.nodes.length ≤ levels) (hlevels' : o.nodes.length ≤ levels') :
    o.listing levels depth h = o.listing levels' depth h :=
  ha.listing_eq_of_room_le depth h (Nat.le_trans (List.length_filter_le _ _) hlevels)
    (Nat.le_trans (List.length_filter_le _ _) hlevels')

/-- A subtree is what lies below its top. -/
theorem Arena.mem_subtree (ha : o.Arena) {top x : Handle} :
    x ∈ (o.subtree top).map Node.handle ↔ o.isLive x = true ∧ o.Below top x := by
  rw [subtree, List.map_map, List.mem_map]
  constructor
  · rintro ⟨entry, hentry, rfl⟩
    obtain ⟨hmem, hbelow⟩ := ha.below_of_mem_listing _ 0 top entry hentry
    exact ⟨isLive_of_mem hmem, hbelow⟩
  · rintro ⟨hx, hbelow⟩
    exact ha.mem_listing_of_below hx _ 0 top (List.length_filter_le _ _) hbelow

end ContentConsole.Outline
