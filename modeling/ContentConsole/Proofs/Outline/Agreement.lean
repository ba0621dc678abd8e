import ContentConsole.Proofs.Outline.Action

set_option autoImplicit false
set_option relaxedAutoImplicit false

/-!
The agreement between the nodes and the keys remembered as open: a node that can be opened is open
exactly if its key is remembered. Nodes may share a key, and keys are dropped for entities that
nodes only stand below, so some actions break it. Main statement: `agrees_iff_never_severs`, by
which it holds all along a run exactly if no action of the run is one of these.
-/
namespace ContentConsole

namespace Outline

/-- Of the nodes that can be opened, those are open whose keys are remembered. -/
def Agrees (o : Outline) : Prop :=
  ∀ n ∈ o.nodes, n.expansion ≠ .leaf → (n.expansion.isOpen = true ↔ n.key ∈ o.openKeys)

instance (o : Outline) : Decidable o.Agrees :=
  inferInstanceAs (Decidable (∀ n ∈ o.nodes,
    n.expansion ≠ .leaf → (n.expansion.isOpen = true ↔ n.key ∈ o.openKeys)))

variable {o o' : Outline}

/-! What leaves keys and states alone. -/

theorem agrees_start (openKeys : OpenKeys) : (start openKeys).Agrees := by
  intro n hn
  simp [start] at hn

theorem Agrees.of_alike (hagrees : o.Agrees) (hkeys : o'.openKeys = o.openKeys)
    (halike : ∀ m ∈ o'.nodes, ∃ n ∈ o.nodes, m.Alike n) : o'.Agrees := by
  intro m hm hleaf
  obtain ⟨n, hn, -, hkey, hexpansion⟩ := halike m hm
  rw [hexpansion] at hleaf
  rw [hexpansion, hkey, hkeys]
  exact hagrees n hn hleaf

theorem Agrees.restrict (hagrees : o.Agrees) (keep : Handle → Bool) : (o.restrict keep).Agrees := by
  refine hagrees.of_alike rfl fun m hm => ?_
  obtain ⟨n, hn, -, rfl⟩ := mem_restrict_nodes.mp hm
  exact ⟨n, hn, rfl, rfl, rfl⟩

theorem Agrees.prune (hagrees : o.Agrees) (ha : o.Arena) (h : Handle) : (o.prune h).Agrees := by
  rw [ha.prune_eq_restrict]
  exact hagrees.restrict _

theorem Agrees.update (hagrees : o.Agrees) {f : Node → Node} (hf : ∀ n, (f n).Alike n)
    (h : Handle) : (o.update h f).Agrees := by
  refine hagrees.of_alike rfl fun m hm => ?_
  obtain ⟨n, hn, rfl⟩ := mem_update_nodes.mp hm
  refine ⟨n, hn, ?_⟩
  split
  · exact hf n
  · exact ⟨rfl, rfl, rfl⟩

theorem Agrees.cleared (hagrees : o.Agrees) (ha : o.Arena) (at' : Place) (e : Entity) :
    (o.cleared at' e).Agrees := by
  rw [Outline.cleared]
  split
  · rw [Outline.displace]
    split
    · exact hagrees.prune ha _
    · exact hagrees
  · exact hagrees

theorem Agrees.drawNode (hagrees : o.Agrees) (ha : o.Arena) (at' : Place) (e : Entity)
    (uploads : Bool) : (o.drawNode at' e uploads).Agrees := by
  intro m hm hleaf
  rw [ha.drawNode_openKeys at' e uploads]
  rcases ha.mem_drawNode_nodes hm with ⟨n, hn, -, hkey, hexpansion⟩ | ⟨-, hkey, hexpansion⟩
  · rw [hexpansion] at hleaf
    rw [hexpansion, hkey, hagrees.cleared ha at' e n hn hleaf, cleared_openKeys]
  · rw [hexpansion, firstExpansion_eq] at hleaf
    rw [hexpansion, hkey, firstExpansion_eq]
    cases hoffers : at'.isExpandable with
    | false => simp [hoffers] at hleaf
    | true => by_cases hmem : (freshNode at' e).key ∈ o.openKeys <;> simp [hmem, Expansion.isOpen]

theorem Agrees.drawPlan (hagrees : o.Agrees) (ha : o.Arena) (at' : Place) (plan : Plan) :
    (o.drawPlan at' plan).Agrees :=
  ha.drawPlan_induction (P := Agrees)
    (fun _ at' e uploads ha hagrees => hagrees.drawNode ha at' e uploads)
    hagrees at' plan

theorem Agrees.receive (hagrees : o.Agrees) (ha : o.Arena) (h : Handle) (children : List Entity) :
    (o.receive h children).2.Agrees := by
  rcases o.receive_snd h children with heq | ⟨n, hn, hf, heq⟩
  · rwa [heq]
  · have hdrawn : (o.receiveEach n children).2.Agrees := ha.receiveEach_induction (P := Agrees)
      (fun _ at' e uploads ha hagrees => hagrees.drawNode ha at' e uploads) hagrees n children
    have d := drawing_receiveEach ha n children
    obtain ⟨hmem, rfl⟩ := mem_of_node? hn
    rw [heq]
    intro m hm hleaf
    obtain ⟨k, hk, rfl⟩ := mem_update_nodes.mp hm
    split at hleaf
    · -- The node was open while it waited, and is open now.
      rename_i hhandle
      obtain ⟨n', hn', htrim⟩ := d.exists_mem ha hk (hhandle ▸ ha.handle_lt n hmem)
      obtain ⟨hkept, -, -, hstate⟩ := Node.eq_of_trim_eq htrim
      have hsame := ha.eq_of_handle hn' hmem (hkept.trans hhandle)
      have hwaits : k.expansion = .fetching := by
        rw [← hf, ← hsame]
        exact hstate.symm
      have hopen := hdrawn k hk (by simp [hwaits])
      rw [hwaits] at hopen
      rw [if_pos hhandle]
      exact hopen
    · rename_i hhandle
      rw [if_neg hhandle]
      exact hdrawn k hk hleaf

/-! What opens, closes and forgets. -/

def Twin (o : Outline) (n m : Node) : Prop :=
  m ∈ o.nodes ∧ m.handle ≠ n.handle ∧ m.key = n.key ∧ m.expansion ≠ .leaf

/--
The action breaks the agreement: it opens or closes a node and leaves another with the same key as
it was, or it forgets a key of an open node that stays.
-/
def Severs (o : Outline) : Action → Prop
  | .toggle h => ∃ n ∈ o.nodes, n.handle = h ∧ n.expansion ≠ .leaf ∧
      ∃ m, o.Twin n m ∧ (n.expansion.isOpen = true → ¬o.Below h m.handle)
  | .abandonFetch h => ∃ n ∈ o.nodes, n.handle = h ∧ n.expansion = .fetching ∧ ∃ m, o.Twin n m
  | .forget entityId => ∃ m ∈ o.nodes, m.expansion.isOpen = true ∧ m.key.mentions entityId = true ∧
      ∀ a ∈ o.nodes, o.Below a.handle m.handle → a.entityId ≠ entityId
  | _ => False

private theorem agrees_flip_iff (hagrees : o.Agrees) (ha : o.Arena) {n : Node} (hn : n ∈ o.nodes)
    (hleaf : n.expansion ≠ .leaf) {state : Expansion} (hflip : state.isOpen = !n.expansion.isOpen)
    {keep : Handle → Bool}
    (hnodes : o'.nodes = ((o.restrict keep).update n.handle (Node.inState state)).nodes)
    (hkeys : ∀ key, key ∈ o'.openKeys ↔ if key = n.key then state.isOpen = true
      else key ∈ o.openKeys) :
    o'.Agrees ↔ ¬∃ m, o.Twin n m ∧ keep m.handle = true := by
  constructor
  · rintro hafter ⟨m, ⟨hm, hne, hkey, hmleaf⟩, hkeep⟩
    have hstays : m.trim keep ∈ o'.nodes := by
      rw [hnodes]
      exact mem_update_nodes.mpr
        ⟨m.trim keep, mem_restrict_nodes.mpr ⟨m, hm, hkeep, rfl⟩, if_neg hne⟩
    have hnew := hafter _ hstays hmleaf
    have hold := hagrees m hm hmleaf
    rw [Node.trim_expansion, Node.trim_key, hkeys, if_pos hkey, hold, hkey, ← hagrees n hn hleaf,
      hflip] at hnew
    simp at hnew
  · intro hno m hm hmleaf
    rw [hnodes] at hm
    obtain ⟨k, hk, rfl⟩ := mem_update_nodes.mp hm
    obtain ⟨j, hj, hkeep, rfl⟩ := mem_restrict_nodes.mp hk
    rw [hkeys]
    by_cases hhandle : (j.trim keep).handle = n.handle
    · have hkey : j.key = n.key := congrArg Node.key (ha.eq_of_handle hj hn hhandle)
      rw [if_pos hhandle, Node.inState_expansion, Node.inState_key, Node.trim_key, if_pos hkey]
    · rw [if_neg hhandle] at hmleaf ⊢
      have hkey : j.key ≠ n.key := fun hkey => hno ⟨j, ⟨hj, hhandle, hkey, hmleaf⟩, hkeep⟩
      rw [Node.trim_key, if_neg hkey]
      exact hagrees j hj hmleaf

private theorem restrict_all (ha : o.Arena) : o.restrict (fun _ => true) = o :=
  ha.restrict_eq_self fun _ _ => rfl

private theorem agrees_openNode_iff (hagrees : o.Agrees) (ha : o.Arena) {n : Node}
    (hn : n ∈ o.nodes) (hclosed : n.expansion = .collapsed) :
    (o.openNode n.handle).Agrees ↔ ¬∃ m, o.Twin n m := by
  have hopened := ha.openNode_eq hn
  have hnodes : (o.openNode n.handle).nodes =
      ((o.restrict fun _ => true).update n.handle (Node.inState .fetching)).nodes := by
    rw [hopened, restrict_all ha]
    rfl
  have hkeys : ∀ key, key ∈ (o.openNode n.handle).openKeys ↔
      if key = n.key then Expansion.fetching.isOpen = true else key ∈ o.openKeys := by
    intro key
    have hinsert : key ∈ (o.openNode n.handle).openKeys ↔ key = n.key ∨ key ∈ o.openKeys := by
      rw [hopened]
      exact OpenKeys.mem_insert
    rw [hinsert]
    by_cases hkey : key = n.key <;> simp [hkey, Expansion.isOpen]
  have hleaf : n.expansion ≠ .leaf := by simp [hclosed]
  have hflip : Expansion.fetching.isOpen = !n.expansion.isOpen := by
    rw [hclosed]
    rfl
  rw [agrees_flip_iff hagrees ha hn hleaf hflip hnodes hkeys]
  simp

private theorem agrees_closed_iff (hagrees : o.Agrees) (ha : o.Arena) {n : Node} (hn : n ∈ o.nodes)
    (hopen : n.expansion.isOpen = true) {keep : Handle → Bool}
    (hnodes : o'.nodes = ((o.restrict keep).update n.handle (Node.inState .collapsed)).nodes)
    (herase : o'.openKeys = o.openKeys.erase n.key) :
    o'.Agrees ↔ ¬∃ m, o.Twin n m ∧ keep m.handle = true := by
  have hleaf : n.expansion ≠ .leaf := by
    intro hleaf
    rw [hleaf] at hopen
    cases hopen
  have hflip : Expansion.collapsed.isOpen = !n.expansion.isOpen := by
    rw [hopen]
    rfl
  refine agrees_flip_iff hagrees ha hn hleaf hflip hnodes fun key => ?_
  rw [herase, OpenKeys.mem_erase]
  by_cases hkey : key = n.key <;> simp [hkey, Expansion.isOpen]

private theorem agrees_toggle_iff (hagrees : o.Agrees) (ha : o.Arena) {n : Node}
    (hn : n ∈ o.nodes) :
    (o.perform (.toggle n.handle)).Agrees ↔ ¬(n.expansion ≠ .leaf ∧
      ∃ m, o.Twin n m ∧ (n.expansion.isOpen = true → ¬o.Below n.handle m.handle)) := by
  rw [ha.perform_toggle hn]
  cases hexpansion : n.expansion with
  | leaf => simpa using hagrees
  | collapsed => simpa [Expansion.isOpen] using agrees_openNode_iff hagrees ha hn hexpansion
  | fetching | expanded =>
    obtain ⟨keep, -, hfold, hiff⟩ := ha.foldl_prune_children hn
    have hnodes : (o.closed n).nodes =
        ((o.restrict keep).update n.handle (Node.inState .collapsed)).nodes := by
      rw [closed, hfold]
    have hopen : n.expansion.isOpen = true := by
      rw [hexpansion]
      rfl
    refine (agrees_closed_iff hagrees ha hn hopen hnodes rfl).trans (not_congr ?_)
    simp only [ne_eq, reduceCtorEq, not_false_eq_true, true_and, Expansion.isOpen, true_implies]
    refine exists_congr fun m => and_congr_right fun hm => ?_
    rw [hiff m.handle (isLive_of_mem hm.1)]
    exact or_iff_right hm.2.1

private theorem agrees_abandonFetch_iff (hagrees : o.Agrees) (ha : o.Arena) {n : Node}
    (hn : n ∈ o.nodes) :
    (o.perform (.abandonFetch n.handle)).Agrees ↔ ¬(n.expansion = .fetching ∧ ∃ m, o.Twin n m) := by
  by_cases hf : n.expansion = .fetching
  · have hperform : o.perform (.abandonFetch n.handle) =
        { (o.update n.handle (Node.inState .collapsed)) with
          openKeys := o.openKeys.erase n.key } := by
      rw [perform, abandonFetch, get_eq_ok_iff.mpr (ha.node?_handle hn)]
      simp only [hf, ne_eq, not_true, if_false]
      rfl
    have hnodes : (o.perform (.abandonFetch n.handle)).nodes =
        ((o.restrict fun _ => true).update n.handle (Node.inState .collapsed)).nodes := by
      rw [hperform, restrict_all ha]
    have hopen : n.expansion.isOpen = true := by
      rw [hf]
      rfl
    rw [agrees_closed_iff hagrees ha hn hopen hnodes (by rw [hperform])]
    simp [hf]
  · have hperform : o.perform (.abandonFetch n.handle) = o := by
      rw [perform, abandonFetch, get_eq_ok_iff.mpr (ha.node?_handle hn)]
      simp only [ne_eq, hf, not_false_eq_true, if_true]
      rfl
    rw [hperform]
    exact iff_of_true hagrees fun hsevers => hf hsevers.1

private theorem agrees_forget_iff (hagrees : o.Agrees) (ha : o.Arena) (entityId : String) :
    (o.perform (.forget entityId)).Agrees ↔ ¬o.Severs (.forget entityId) := by
  obtain ⟨keep, -, hforget, hkeep⟩ := ha.exists_forget_eq entityId
  rw [perform, hforget]
  constructor
  · rintro hafter ⟨m, hm, hopen, hmentions, hout⟩
    have hleaf : m.expansion ≠ .leaf := by
      intro hleaf
      rw [hleaf] at hopen
      cases hopen
    have hstays : m.trim keep ∈ (o.restrict keep).nodes :=
      mem_restrict_nodes.mpr ⟨m, hm, (hkeep m hm).mpr hout, rfl⟩
    have hkey := OpenKeys.mem_forget.mp ((hafter _ hstays hleaf).mp hopen)
    rw [Node.trim_key, hmentions] at hkey
    cases hkey.2
  · intro hno m hm hleaf
    obtain ⟨k, hk, hkeeps, rfl⟩ := mem_restrict_nodes.mp hm
    refine (hagrees k hk hleaf).trans (Iff.trans ?_ OpenKeys.mem_forget.symm)
    rw [Node.trim_key, iff_self_and]
    intro hkey
    by_contra hmentions
    rw [Bool.not_eq_false] at hmentions
    exact hno ⟨k, hk, (hagrees k hk hleaf).mpr hkey, hmentions, (hkeep k hk).mp hkeeps⟩

private theorem agrees_at_iff (hagrees : o.Agrees) (ha : o.Arena) {h : Handle} {P : Node → Prop}
    (hgone : o.node? h = none → o' = o) (hnode : ∀ n ∈ o.nodes, n.handle = h → (o'.Agrees ↔ ¬P n)) :
    o'.Agrees ↔ ¬∃ n ∈ o.nodes, n.handle = h ∧ P n := by
  cases hfound : o.node? h with
  | none =>
    rw [hgone hfound]
    refine iff_of_true hagrees ?_
    rintro ⟨n, hn, rfl, -⟩
    rw [ha.node?_handle hn] at hfound
    cases hfound
  | some n =>
    obtain ⟨hn, rfl⟩ := mem_of_node? hfound
    rw [hnode n hn rfl]
    refine not_congr ⟨fun hP => ⟨n, hn, rfl, hP⟩, ?_⟩
    rintro ⟨k, hk, hhandle, hP⟩
    rwa [ha.eq_of_handle hk hn hhandle] at hP

private theorem Agrees.settleUpload (hagrees : o.Agrees) (ha : o.Arena) (h : Handle)
    (outcome : Except Fault Unit) : (o.settleUpload h outcome).2.Agrees := by
  cases outcome with
  | error e => exact hagrees.prune ha h
  | ok confirmed =>
    rw [Outline.settleUpload]
    split
    · exact hagrees
    · refine hagrees.update ?_ h
      exact fun _ => ⟨rfl, rfl, rfl⟩

private theorem Agrees.click (hagrees : o.Agrees) {h : Handle} {handled : Bool}
    (hc : o.click h = .ok (handled, o')) : o'.Agrees := by
  rw [Outline.click] at hc
  split at hc
  · cases hc
  · split at hc <;> cases hc <;> exact hagrees

private theorem Agrees.renamed (hagrees : o.Agrees) {h : Handle}
    (hr : o.Renamed h o') : o'.Agrees := by
  rcases hr with rfl | ⟨f, effects, rfl, hf, -⟩
  · exact hagrees
  · exact hagrees.update hf.alike h

theorem agrees_perform_iff (hagrees : o.Agrees) (ha : o.Arena) (a : Action)
    (hedit : ∀ openKeys, a ≠ .retrack openKeys) : (o.perform a).Agrees ↔ ¬o.Severs a := by
  cases a with
  | draw e parentId resourceId replaces isExpandable =>
    refine iff_of_true ?_ id
    rw [perform, Outline.draw, drawAt_eq_drawPlan]
    exact hagrees.drawPlan ha _ _
  | drawTree e resourceId =>
    refine iff_of_true ?_ id
    rw [perform, Outline.drawTree, graft, graftAll_eq_drawPlan]
    exact hagrees.drawPlan ha _ _
  | receive h children => exact iff_of_true (hagrees.receive ha h children) id
  | toggle h =>
    refine agrees_at_iff hagrees ha (fun hgone => ?_) ?_
    · rw [perform, toggle, get, hgone]
      rfl
    · rintro n hn rfl
      exact agrees_toggle_iff hagrees ha hn
  | abandonFetch h =>
    refine agrees_at_iff hagrees ha (fun hgone => ?_) ?_
    · rw [perform, abandonFetch, get, hgone]
      rfl
    · rintro n hn rfl
      exact agrees_abandonFetch_iff hagrees ha hn
  | settleUpload h outcome => exact iff_of_true (hagrees.settleUpload ha h outcome) id
  | remove h =>
    exact iff_of_true
      (after_map_induction hagrees fun _ _ hr => remove_ok hr ▸ hagrees.prune ha h) id
  | forget entityId => exact agrees_forget_iff hagrees ha entityId
  | click h => exact iff_of_true (after_map_induction hagrees fun _ _ => hagrees.click) id
  | editName h =>
    exact iff_of_true
      (after_map_induction hagrees fun _ _ he => hagrees.renamed (renamed_editName he)) id
  | typeName h text =>
    exact iff_of_true (after_induction hagrees fun _ ht => hagrees.renamed (renamed_typeName ht)) id
  | commitName h =>
    exact iff_of_true
      (after_map_induction hagrees fun _ _ hc => hagrees.renamed (renamed_commitName hc)) id
  | pressKey h key =>
    cases key with
    | enter =>
      exact iff_of_true
        (after_map_induction hagrees fun _ _ hc => hagrees.renamed (renamed_commitName hc)) id
    | other => exact iff_of_true hagrees id
  | takeEffects => exact iff_of_true hagrees id
  | retrack openKeys => exact absurd rfl (hedit openKeys)

/--
All along a run without edits of the keys by hand, states and keys agree exactly if no
action opens or closes a node and leaves another of its key behind, and none forgets a
key of an open node that stays.
-/
theorem agrees_iff_never_severs (openKeys : OpenKeys) (actions : List Action)
    (hedit : ∀ keys, .retrack keys ∉ actions) :
    (∀ before rest, actions = before ++ rest → ((start openKeys).run before).Agrees) ↔
      ∀ before a rest, actions = before ++ a :: rest → ¬((start openKeys).run before).Severs a := by
  refine (arena_start openKeys).run_iff_never (agrees_start openKeys) fun o a ha hagrees hmem => ?_
  exact agrees_perform_iff hagrees ha a fun keys heq => hedit keys (heq ▸ hmem)

theorem agrees_iff_never_severs_toggle :
    let actions : List Action :=
      [.draw ⟨"a", "", none, .emptyElement, []⟩ none none true true, .toggle 0]
    ∀ before rest, actions = before ++ rest → ((start .empty).run before).Agrees := by
  intro actions
  have hedit : ∀ keys, .retrack keys ∉ actions := by simp [actions]
  refine (agrees_iff_never_severs .empty actions hedit).mpr fun before a rest heq => ?_
  match before with
  | [] =>
    obtain ⟨rfl, -⟩ := List.cons.inj heq
    exact id
  | [b] =>
    obtain ⟨rfl, htail⟩ := List.cons.inj heq
    obtain ⟨rfl, -⟩ := List.cons.inj htail
    rintro ⟨n, hn, -, -, m, ⟨hm, hne, -⟩, -⟩
    have honly : ∀ k ∈ ((start .empty).run
        [.draw ⟨"a", "", none, .emptyElement, []⟩ none none true true]).nodes,
        k.handle = 0 := by decide
    exact hne ((honly m hm).trans (honly n hn).symm)
  | b :: c :: before => simp [actions] at heq

/-- Forgetting a parent closes no node that is shown below it, and of two
nodes of one key one opens. -/
theorem agrees_fails :
    ¬((start .empty).run
      [.draw ⟨"n", "", none, .emptyElement, []⟩ (some "p") none true true, .toggle 0,
        .forget "p"]).Agrees ∧
      ¬((start .empty).run [.draw ⟨"p", "", none, .emptyElement, []⟩ none (some "r") true false,
        .draw ⟨"x", "", none, .emptyElement, []⟩ (some "p") (some "r") true true,
        .drawTree ⟨"p", "", none, .emptyElement, [⟨"x", "", none, .emptyElement, []⟩]⟩ (some "r"),
        .draw ⟨"x", "", none, .emptyElement, []⟩ (some "p") (some "r") true true,
        .draw ⟨"x", "", none, .emptyElement, []⟩ (some "p") (some "r") true true,
        .toggle 3]).Agrees := by
  decide +kernel

end Outline

end ContentConsole
