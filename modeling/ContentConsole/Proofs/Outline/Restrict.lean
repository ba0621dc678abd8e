import ContentConsole.Proofs.Outline.Arena

set_option autoImplicit false
set_option relaxedAutoImplicit false

/-!
Removal seen as restriction: an outline without some of its nodes, where no list names those any
more. Main statements: `Arena.restrict`, by which a restriction that keeps parents keeps the arena,
and `Arena.prune_eq_restrict`, by which removing a node is the restriction to what is not below it.
-/
namespace ContentConsole

/-- The node without the children that are not kept. -/
def Node.trim (keep : Handle → Bool) (n : Node) : Node :=
  { n with children := n.children.filter keep }

namespace Node

variable {keep : Handle → Bool} {n : Node}

@[simp] theorem trim_handle : (n.trim keep).handle = n.handle := rfl
@[simp] theorem trim_children : (n.trim keep).children = n.children.filter keep := rfl
@[simp] theorem trim_expansion : (n.trim keep).expansion = n.expansion := rfl
@[simp] theorem trim_key : (n.trim keep).key = n.key := rfl

theorem eq_of_trim_eq {m : Node} {keep' : Handle → Bool} (h : m.trim keep = n.trim keep') :
    m.handle = n.handle ∧ m.parent = n.parent ∧ m.key = n.key ∧ m.expansion = n.expansion := by
  have hhandle := congrArg Node.handle h
  have hparent := congrArg Node.parent h
  have hkey := congrArg Node.key h
  have hexpansion := congrArg Node.expansion h
  exact ⟨hhandle, hparent, hkey, hexpansion⟩

theorem trim_eq_self (h : ∀ c ∈ n.children, keep c = true) : n.trim keep = n := by
  rw [trim, List.filter_eq_self.mpr h]

theorem trim_congr {keep' : Handle → Bool} (h : ∀ c ∈ n.children, keep c = keep' c) :
    n.trim keep = n.trim keep' := by
  rw [trim, trim, List.filter_congr h]

theorem trim_trim (keep' : Handle → Bool) :
    (n.trim keep).trim keep' = n.trim fun h => keep h && keep' h := by
  rw [trim, trim, trim, List.filter_filter]
  simp only [Bool.and_comm]

end Node

namespace Outline

variable {o : Outline} {keep : Handle → Bool}

/-- The nodes that are kept, with everything else that names only kept nodes. -/
def restrict (o : Outline) (keep : Handle → Bool) : Outline :=
  { o with
    nodes := (o.nodes.filter fun n => keep n.handle).map (Node.trim keep)
    roots := o.roots.filter keep
    outbox := o.outbox.filter fun e => e.node?.all keep
    selected := o.selected.filter keep }

def KeepsParents (o : Outline) (keep : Handle → Bool) : Prop :=
  ∀ p c, o.IsChild p c → keep c = true → keep p = true

theorem mem_restrict_nodes {m : Node} :
    m ∈ (o.restrict keep).nodes ↔ ∃ n ∈ o.nodes, keep n.handle = true ∧ n.trim keep = m := by
  simp [restrict, and_assoc]

theorem isLive_restrict {h : Handle} :
    (o.restrict keep).isLive h = true ↔ o.isLive h = true ∧ keep h = true := by
  simp only [isLive_iff, mem_restrict_nodes]
  constructor
  · rintro ⟨m, ⟨n, hn, hkeep, rfl⟩, rfl⟩
    exact ⟨⟨n, hn, rfl⟩, hkeep⟩
  · rintro ⟨⟨n, hn, rfl⟩, hkeep⟩
    exact ⟨n.trim keep, ⟨n, hn, hkeep, rfl⟩, rfl⟩

theorem isChild_restrict {p c : Handle} :
    (o.restrict keep).IsChild p c ↔ o.IsChild p c ∧ keep c = true := by
  simp only [IsChild, mem_restrict_nodes]
  constructor
  · rintro ⟨m, ⟨n, hn, hkeep, rfl⟩, rfl, hp⟩
    exact ⟨⟨n, hn, rfl, hp⟩, hkeep⟩
  · rintro ⟨⟨n, hn, rfl, hp⟩, hkeep⟩
    exact ⟨n.trim keep, ⟨n, hn, hkeep, rfl⟩, rfl, hp⟩

theorem below_of_below_restrict {a b : Handle} (hab : (o.restrict keep).Below a b) : o.Below a b :=
  Relation.ReflTransGen.mono (fun _ _ hc => (isChild_restrict.mp hc).1) _ _ hab

theorem KeepsParents.below (hkeep : o.KeepsParents keep) {a b : Handle} (hab : o.Below a b)
    (hb : keep b = true) : keep a = true ∧ (o.restrict keep).Below a b := by
  induction hab with
  | refl => exact ⟨hb, .refl⟩
  | tail _ hc ih =>
    obtain ⟨ha, hab⟩ := ih (hkeep _ _ hc hb)
    exact ⟨ha, hab.tail (isChild_restrict.mpr ⟨hc, hb⟩)⟩

theorem KeepsParents.and {keep' : Handle → Bool} (hkeep : o.KeepsParents keep)
    (hkeep' : (o.restrict keep).KeepsParents keep') :
    o.KeepsParents fun h => keep h && keep' h := by
  intro p c hc hboth
  rw [Bool.and_eq_true] at hboth ⊢
  exact ⟨hkeep p c hc hboth.1, hkeep' p c (isChild_restrict.mpr ⟨hc, hboth.1⟩) hboth.2⟩

theorem restrict_restrict (keep' : Handle → Bool) :
    (o.restrict keep).restrict keep' = o.restrict fun h => keep h && keep' h := by
  have hnodes : (((o.nodes.filter fun n => keep n.handle).map (Node.trim keep)).filter
      fun n => keep' n.handle).map (Node.trim keep') =
      (o.nodes.filter fun n => keep n.handle && keep' n.handle).map
        (Node.trim fun h => keep h && keep' h) := by
    rw [List.filter_map, List.map_map, List.filter_filter]
    simp only [Function.comp_def, Node.trim_handle, Node.trim_trim, Bool.and_comm]
  have houtbox : ∀ e : Effect, (e.node?.all keep' && e.node?.all keep) =
      e.node?.all fun h => keep h && keep' h := by
    intro e
    cases e.node? <;> simp [Bool.and_comm]
  have hselected : (o.selected.filter keep).filter keep' =
      o.selected.filter fun h => keep h && keep' h := by
    cases o.selected with
    | none => rfl
    | some s => cases h : keep s <;> simp [Option.filter, h]
  simp only [restrict, hnodes, hselected, List.filter_filter, houtbox]
  simp only [Bool.and_comm]

namespace Arena

theorem restrict_congr (ha : o.Arena) {keep' : Handle → Bool}
    (h : ∀ x, o.isLive x = true → keep x = keep' x) : o.restrict keep = o.restrict keep' := by
  have hnodes : (o.nodes.filter fun n => keep n.handle) = o.nodes.filter fun n => keep' n.handle :=
    List.filter_congr fun n hn => h _ (isLive_of_mem hn)
  have htrim : (o.nodes.filter fun n => keep' n.handle).map (Node.trim keep) =
      (o.nodes.filter fun n => keep' n.handle).map (Node.trim keep') := by
    apply List.map_congr_left
    intro n hn
    apply Node.trim_congr
    intro c hc
    exact h c ((ha.mem_children n (List.mem_filter.mp hn).1 c).mp hc).isLive
  have hroots : o.roots.filter keep = o.roots.filter keep' := by
    apply List.filter_congr
    intro r hr
    obtain ⟨n, hn, hnr, -⟩ := (ha.mem_roots r).mp hr
    exact h r (isLive_iff.mpr ⟨n, hn, hnr⟩)
  have houtbox : (o.outbox.filter fun e => e.node?.all keep) =
      o.outbox.filter fun e => e.node?.all keep' := by
    apply List.filter_congr
    intro e he
    cases hnode : e.node? with
    | none => rfl
    | some x => simpa using h x (ha.outbox_live e he x hnode)
  have hselected : o.selected.filter keep = o.selected.filter keep' := by
    cases hs : o.selected with
    | none => rfl
    | some s => simp [Option.filter, h s (ha.selected_live s hs)]
  simp only [Outline.restrict, hnodes, htrim, hroots, houtbox, hselected]

theorem restrict_eq_self (ha : o.Arena)
    (h : ∀ x, o.isLive x = true → keep x = true) : o.restrict keep = o := by
  have hrestrict : o.restrict keep = o.restrict fun _ => true := ha.restrict_congr h
  rw [hrestrict]
  have hnodes : (o.nodes.map (Node.trim fun _ => true)) = o.nodes := by
    apply List.map_id''
    exact fun n => Node.trim_eq_self fun _ _ => rfl
  have houtbox : (o.outbox.filter fun e => e.node?.all fun _ => true) = o.outbox := by
    rw [List.filter_eq_self]
    intro e _
    cases e.node? <;> rfl
  have hselected : (o.selected.filter fun _ => true) = o.selected := by
    cases o.selected <;> rfl
  have hall : ∀ {α : Type} (xs : List α), xs.filter (fun _ => true) = xs := by
    intro α xs
    rw [List.filter_eq_self]
    exact fun _ _ => rfl
  rw [Outline.restrict, hall, hall, hnodes, houtbox, hselected]

theorem restrict_isLive (ha : o.Arena) (keep : Handle → Bool) :
    o.restrict (o.restrict keep).isLive = o.restrict keep := by
  refine ha.restrict_congr fun x hx => ?_
  rw [Bool.eq_iff_iff, isLive_restrict]
  exact and_iff_right hx

theorem restrict (ha : o.Arena) (hkeep : o.KeepsParents keep) : (o.restrict keep).Arena where
  ascending := by
    rw [Outline.restrict, List.pairwise_map]
    exact (ha.ascending.filter _).imp fun h => h
  handle_lt := by
    intro m hm
    obtain ⟨n, hn, -, rfl⟩ := mem_restrict_nodes.mp hm
    exact ha.handle_lt n hn
  mem_children := by
    intro m hm c
    obtain ⟨n, hn, -, rfl⟩ := mem_restrict_nodes.mp hm
    rw [isChild_restrict, Node.trim_children, List.mem_filter, ha.mem_children n hn c,
      Node.trim_handle]
  mem_roots := by
    intro r
    have hroots : (o.restrict keep).roots = o.roots.filter keep := rfl
    rw [hroots, List.mem_filter, ha.mem_roots r]
    constructor
    · rintro ⟨⟨n, hn, rfl, hp⟩, hr⟩
      exact ⟨n.trim keep, mem_restrict_nodes.mpr ⟨n, hn, hr, rfl⟩, rfl, hp⟩
    · rintro ⟨m, hm, rfl, hp⟩
      obtain ⟨n, hn, hr, rfl⟩ := mem_restrict_nodes.mp hm
      exact ⟨⟨n, hn, rfl, hp⟩, hr⟩
  children_ascending := by
    intro m hm
    obtain ⟨n, hn, -, rfl⟩ := mem_restrict_nodes.mp hm
    exact (ha.children_ascending n hn).filter keep
  roots_ascending := ha.roots_ascending.filter keep
  parent_live := by
    intro m hm p hp
    obtain ⟨n, hn, hlive, rfl⟩ := mem_restrict_nodes.mp hm
    exact isLive_restrict.mpr ⟨ha.parent_live n hn p hp, hkeep p n.handle ⟨n, hn, rfl, hp⟩ hlive⟩
  parent_lt := by
    intro m hm p hp
    obtain ⟨n, hn, -, rfl⟩ := mem_restrict_nodes.mp hm
    exact ha.parent_lt n hn p hp
  outbox_live := by
    intro e he h hnode
    obtain ⟨he, hall⟩ := List.mem_filter.mp he
    rw [hnode] at hall
    exact isLive_restrict.mpr ⟨ha.outbox_live e he h hnode, by simpa using hall⟩
  selected_live := by
    intro h hs
    obtain ⟨hs, hk⟩ := Option.filter_eq_some_iff.mp hs
    exact isLive_restrict.mpr ⟨ha.selected_live h hs, hk⟩

end Arena

/-! Removing a node. -/

def outside (o : Outline) (top h : Handle) : Bool := !((o.subtree top).map Node.handle).contains h

theorem Arena.outside_iff (ha : o.Arena) {top h : Handle} (hh : o.isLive h = true) :
    o.outside top h = true ↔ ¬o.Below top h := by
  rw [outside, Bool.not_eq_true', ← Bool.not_eq_true, List.contains_iff_mem, ha.mem_subtree]
  simp [hh]

theorem Arena.keepsParents_outside (ha : o.Arena) (top : Handle) :
    o.KeepsParents (o.outside top) := by
  intro p c hc hkeep
  rw [ha.outside_iff hc.isLive] at hkeep
  rw [ha.outside_iff (ha.isLive_of_isChild hc)]
  exact fun hp => hkeep (hp.tail hc)

theorem Arena.unlink_nodes (ha : o.Arena) {n : Node} (hn : n ∈ o.nodes) :
    (o.unlink n).nodes = o.nodes.map (Node.trim (· ≠ n.handle)) := by
  have hother : ∀ m ∈ o.nodes, n.parent ≠ some m.handle → m.trim (· ≠ n.handle) = m := by
    intro m hm hp
    apply Node.trim_eq_self
    intro c hc
    obtain ⟨k, hk, hkc, hkp⟩ := (ha.mem_children m hm c).mp hc
    have hne : c ≠ n.handle := by
      rintro rfl
      rw [ha.eq_of_handle hk hn hkc] at hkp
      exact hp hkp
    simpa using hne
  cases hp : n.parent with
  | none =>
    have hid : o.nodes.map (Node.trim (· ≠ n.handle)) = o.nodes.map id :=
      List.map_congr_left fun m hm => hother m hm (by simp [hp])
    rw [hid, List.map_id, unlink, hp]
    rfl
  | some p =>
    have hlive := ha.parent_live n hn p hp
    simp only [unlink, hp, Option.filter, hlive, if_true, update]
    apply List.map_congr_left
    intro m hm
    by_cases hmp : m.handle = p
    · simp [hmp, Node.trim]
    · rw [if_neg hmp, hother m hm]
      rw [hp]
      exact fun h => hmp (Option.some.inj h).symm

private theorem Arena.unlink_roots (ha : o.Arena) {n : Node} (hn : n ∈ o.nodes) :
    (o.unlink n).roots = o.roots.filter (· ≠ n.handle) := by
  cases hp : n.parent with
  | none =>
    rw [unlink, hp]
    rfl
  | some p =>
    have hlive := ha.parent_live n hn p hp
    have hroots : o.roots.filter (· ≠ n.handle) = o.roots := by
      rw [List.filter_eq_self]
      intro r hr
      obtain ⟨m, hm, hmr, hmp⟩ := (ha.mem_roots r).mp hr
      have hne : r ≠ n.handle := by
        rintro rfl
        rw [ha.eq_of_handle hm hn hmr, hp] at hmp
        simp at hmp
      simpa using hne
    rw [hroots, unlink, hp, Option.filter, hlive]
    rfl

private theorem unlink_outbox (n : Node) : (o.unlink n).outbox = o.outbox ∧
    (o.unlink n).selected = o.selected ∧ (o.unlink n).nextHandle = o.nextHandle ∧
      (o.unlink n).openKeys = o.openKeys := by
  unfold unlink
  split <;> exact ⟨rfl, rfl, rfl, rfl⟩

theorem Arena.ne_iff_outside (ha : o.Arena) {top p c : Handle} (hp : o.outside top p = true)
    (hc : o.IsChild p c) : decide (c ≠ top) = o.outside top c := by
  rw [ha.outside_iff (ha.isLive_of_isChild hc)] at hp
  rw [Bool.eq_iff_iff, decide_eq_true_iff, ha.outside_iff hc.isLive]
  constructor
  · intro hne hbelow
    rcases hbelow.cases_tail with rfl | ⟨q, hq, hqc⟩
    · exact hne rfl
    · exact hp (ha.isChild_inj hqc hc ▸ hq)
  · rintro hout rfl
    exact hout .refl

/-- Removing a node restricts to what is not below it. -/
theorem Arena.prune_eq_restrict (ha : o.Arena) (top : Handle) :
    o.prune top = o.restrict (o.outside top) := by
  cases htop : o.node? top with
  | none =>
    have hlive : ∀ x, o.isLive x = true → o.outside top x = true := by
      intro x hx
      rw [ha.outside_iff hx]
      intro hbelow
      have := ha.isLive_of_below hbelow hx
      simp [isLive, htop] at this
    rw [ha.restrict_eq_self hlive, prune, htop]
  | some n =>
    obtain ⟨hn, rfl⟩ := mem_of_node? htop
    obtain ⟨houtbox, hselected, hnext, hkeys⟩ := unlink_outbox (o := o) n
    have hnodes : (o.nodes.map (Node.trim (· ≠ n.handle))).filter
        (fun m => o.outside n.handle m.handle) =
        (o.nodes.filter fun m => o.outside n.handle m.handle).map
          (Node.trim (o.outside n.handle)) := by
      rw [List.filter_map]
      apply List.map_congr_left
      intro m hm
      obtain ⟨hm, hout⟩ := List.mem_filter.mp hm
      apply Node.trim_congr
      intro c hc
      exact ha.ne_iff_outside hout ((ha.mem_children m hm c).mp hc)
    have hroots : o.roots.filter (· ≠ n.handle) = o.roots.filter (o.outside n.handle) := by
      apply List.filter_congr
      intro r hr
      obtain ⟨m, hm, rfl, hp⟩ := (ha.mem_roots r).mp hr
      rw [Bool.eq_iff_iff, decide_eq_true_iff, ha.outside_iff (isLive_of_mem hm)]
      constructor
      · intro hne hbelow
        rcases hbelow.cases_tail with hr | ⟨q, -, k, hk, hkm, hkp⟩
        · exact hne hr
        · rw [ha.eq_of_handle hk hm hkm, hp] at hkp
          simp at hkp
      · intro hout heq
        exact hout (heq ▸ .refl)
    have hall : ∀ e : Effect, (!e.node?.any ((o.subtree n.handle).map Node.handle).contains) =
        e.node?.all (o.outside n.handle) := by
      intro e
      cases e.node? <;> simp [outside]
    simp only [Outline.prune, htop, drop, Outline.restrict, ha.unlink_nodes hn, ha.unlink_roots hn,
      houtbox, hselected, hnext, hkeys, hall]
    rw [← hroots, ← hnodes]
    rfl

@[simp] theorem prune_nextHandle (top : Handle) : (o.prune top).nextHandle = o.nextHandle := by
  unfold prune
  split
  · rfl
  · exact (unlink_outbox _).2.2.1

@[simp] theorem prune_openKeys (top : Handle) : (o.prune top).openKeys = o.openKeys := by
  unfold prune
  split
  · rfl
  · exact (unlink_outbox _).2.2.2

theorem Arena.prune (ha : o.Arena) (top : Handle) : (o.prune top).Arena := by
  rw [ha.prune_eq_restrict]
  exact ha.restrict (ha.keepsParents_outside top)

theorem Arena.foldl_prune (ha : o.Arena) (handles : List Handle) :
    ∃ keep, o.KeepsParents keep ∧ handles.foldl Outline.prune o = o.restrict keep ∧
      ∀ x, o.isLive x = true → (keep x = true ↔ ∀ h ∈ handles, ¬o.Below h x) := by
  induction handles generalizing o with
  | nil =>
    refine ⟨fun _ => true, fun _ _ _ _ => rfl, (ha.restrict_eq_self fun _ _ => rfl).symm, ?_⟩
    simp
  | cons h handles ih =>
    obtain ⟨keep, hkeep, hfold, hiff⟩ := ih (ha.prune h)
    rw [ha.prune_eq_restrict] at hkeep hfold hiff
    refine ⟨_, (ha.keepsParents_outside h).and hkeep, ?_, fun x hx => ?_⟩
    · rw [List.foldl_cons, ha.prune_eq_restrict, hfold, restrict_restrict]
    · rw [Bool.and_eq_true, List.forall_mem_cons, ha.outside_iff hx]
      refine and_congr_right fun hout => ?_
      have hkept := (ha.outside_iff hx).mpr hout
      rw [hiff x (isLive_restrict.mpr ⟨hx, hkept⟩)]
      refine forall₂_congr fun h' _ => not_congr ⟨below_of_below_restrict, fun hbelow => ?_⟩
      exact ((ha.keepsParents_outside h).below hbelow hkept).2

end Outline

end ContentConsole
