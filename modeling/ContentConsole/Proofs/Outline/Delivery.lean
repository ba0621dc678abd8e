import ContentConsole.Proofs.Outline.Action

set_option autoImplicit false
set_option relaxedAutoImplicit false

/-!
What the arrival of fetched children does to an outline. Main statements: `receive_elsewhere` says
what becomes of everything that is not below the node that waits, and `receive_ok_iff` when the node
itself is still there to be opened.
-/
namespace ContentConsole

namespace Outline

variable {o : Outline}

section

variable {h : Handle} {n : Node} {children : List Entity} {answer : Except Fault (List Drawn)}
  {o' : Outline}

private theorem receive_outcome (ha : o.Arena) (hn : o.node? h = some n)
    (hf : n.expansion = .fetching) (hr : o.receive h children = (answer, o')) :
    ∃ o₁ drawn, o.Drawing (some h) (receivedKeys n children) o₁ ∧
      (ClearChildren n children → o₁.isLive h = true → Under h o o₁) ∧
        answer = (if o₁.isLive h then .ok drawn else .error (.unknownNode h)) ∧
          o' = o₁.update h (arrived children.isEmpty) := by
  obtain ⟨hmem, rfl⟩ := mem_of_node? hn
  rw [receive_eq hn hf] at hr
  obtain ⟨hanswer, ho'⟩ := Prod.mk.inj hr
  exact ⟨_, _, drawing_receiveEach ha n children,
    fun hclear hstays => under_receiveEach ha hclear (isLive_of_mem hmem) hstays,
    hanswer.symm, ho'.symm⟩

/--
Elsewhere, exactly the first nodes of the keys that are drawn go, each with what is below it; what
stays loses the children that went and nothing else. What is new stands below the node, if the node
is still there and none of the children has the key of one that it is drawn below.
-/
theorem receive_elsewhere (ho : o.Reachable) (hn : o.node? h = some n)
    (hf : n.expansion = .fetching) (hr : o.receive h children = (answer, o')) :
    (∀ m ∈ o.nodes, ¬o.Below h m.handle →
      o'.isLive m.handle = (o.evict (receivedKeys n children)).isLive m.handle ∧
        (o'.isLive m.handle = true → o'.node? m.handle = some (m.trim o'.isLive)) ∧
          ((∀ key ∈ receivedKeys n children, ¬o.KeyAbove m.handle key) →
            o'.isLive m.handle = true)) ∧
      o'.roots.filter (fun r => decide (r < o.nextHandle)) = o.roots.filter o'.isLive ∧
        ((∃ drawn, answer = .ok drawn) → ClearChildren n children →
          o'.roots = o.roots.filter o'.isLive ∧
            ∀ c, o'.isLive c = true → o.nextHandle ≤ c → o'.Below h c) := by
  have ha := ho.arena
  have hplace := keepsPlace_arrived children.isEmpty
  have hh := isLive_of_node? hn
  obtain ⟨o₁, drawn, d, hunder, rfl, rfl⟩ := receive_outcome ha hn hf hr
  have hlive : (o₁.update h (arrived children.isEmpty)).isLive = o₁.isLive :=
    funext (isLive_update hplace h)
  rw [hlive]
  refine ⟨fun m hm hbelow => ?_, d.roots_eq ha, fun ⟨drawn', hok⟩ hclear => ?_⟩
  · have hlt := ha.handle_lt m hm
    have hne : m.handle ≠ h := fun heq => hbelow (heq ▸ .refl)
    refine ⟨?_, fun hm' => ?_, fun hkeys => ?_⟩
    · rw [Bool.eq_iff_iff]
      exact d.isLive_iff hlt
    · rw [d.arena.node?_update_of_ne hplace hne]
      exact d.node?_eq ha hm (fun heq => hne (Option.some.inj heq).symm) hm'
    · exact (d.isLive_iff hlt).mpr (ha.isLive_evict (isLive_of_mem hm) hkeys)
  · have hstays : o₁.isLive h = true := by
      by_contra hgone
      rw [if_neg hgone] at hok
      cases hok
    have hnew := hunder hclear hstays
    refine ⟨d.roots_of_under ha hh hnew, fun c hc hnext => ?_⟩
    exact (below_update hplace h).mpr (hnew c hc hnext)

end

def shownTwice : Outline :=
  let p : Entity := ⟨"p", "", none, .emptyElement, []⟩
  let q : Entity := ⟨"q", "", none, .emptyElement, []⟩
  (start .empty).run [.draw p none (some "r") true true, .draw q none (some "r") true true,
    .draw p (some "q") (some "r") true true, .toggle 0,
    .receive 0 [⟨"c", "", none, .content, []⟩], .toggle 2]

theorem reachable_shownTwice : shownTwice.Reachable := ⟨_, _, rfl⟩

theorem receive_elsewhere_shownTwice :
    let o' := (shownTwice.receive 2 [⟨"c", "", none, .content, []⟩]).2
    (∀ m ∈ shownTwice.nodes, m.handle = 0 → o'.node? 0 = some (m.trim o'.isLive)) ∧
      ∀ c, o'.isLive c = true → 4 ≤ c → o'.Below 2 c := by
  have hwaits : (shownTwice.node? 2).map Node.expansion = some .fetching := by decide
  obtain ⟨n, hn, hf⟩ := Option.map_eq_some_iff.mp hwaits
  obtain ⟨helse, -, hnew⟩ := receive_elsewhere reachable_shownTwice hn hf
    (Prod.eta (shownTwice.receive 2 [⟨"c", "", none, .content, []⟩])).symm
  constructor
  · intro m hm hzero
    have hbelow : ¬shownTwice.Below 2 m.handle := by
      intro hbelow
      have hle := reachable_shownTwice.arena.le_of_below hbelow
      rw [hzero] at hle
      cases hle
    have hlive :
        (shownTwice.receive 2 [⟨"c", "", none, .content, []⟩]).2.isLive m.handle = true := by
      rw [hzero]
      decide
    exact hzero ▸ (helse m hm hbelow).2.1 hlive
  · refine (hnew ⟨[.flat 4], by rfl⟩ ?_).2
    simp [ClearChildren, Plan.ofEntity, Plan.Clear]

def selfContained : Outline :=
  (start .empty).run [.draw ⟨"f", "", none, .emptyFolder, []⟩ none (some "r") true true, .toggle 0]

theorem reachable_selfContained : selfContained.Reachable := ⟨_, _, rfl⟩

/--
The content below the one node of `p` is lost to the same content below the other, and a folder that
replaces the node it is drawn below becomes a root.
-/
theorem receive_reaches_elsewhere :
    (shownTwice.Reachable ∧ (∃ n, shownTwice.node? 2 = some n ∧ n.expansion = .fetching) ∧
      ¬shownTwice.Below 2 3 ∧ shownTwice.isLive 3 = true ∧
        (shownTwice.receive 2 [⟨"c", "", none, .content, []⟩]).2.isLive 3 = false) ∧
      selfContained.Reachable ∧ (∃ n, selfContained.node? 0 = some n ∧ n.expansion = .fetching) ∧
        selfContained.roots = [0] ∧ (selfContained.receive 0
          [⟨"f", "", none, .folder [⟨"f", "", none, .emptyFolder, []⟩] [] [], []⟩]).2.roots =
            [0, 2] := by
  have hwaits : (shownTwice.node? 2).map Node.expansion = some .fetching := by decide
  have hwaits' : (selfContained.node? 0).map Node.expansion = some .fetching := by decide
  refine ⟨⟨reachable_shownTwice, Option.map_eq_some_iff.mp hwaits, ?_, by decide, by decide⟩,
    reachable_selfContained, Option.map_eq_some_iff.mp hwaits', by decide, by decide⟩
  intro hbelow
  have hlisted := reachable_shownTwice.arena.mem_subtree.mpr ⟨by decide, hbelow⟩
  revert hlisted
  decide

/-- The list that names a node: the children of its parent, or the roots. -/
def siblings (o : Outline) (n : Node) : List Handle :=
  match n.parent with
  | some p => (o.node? p).elim [] Node.children
  | none => o.roots

theorem Arena.mem_siblings (ha : o.Arena) {n : Node} (hn : n ∈ o.nodes) :
    n.handle ∈ o.siblings n := by
  unfold siblings
  split
  · rename_i p hp
    obtain ⟨m, hm⟩ := exists_node?_of_isLive (ha.parent_live n hn p hp)
    obtain ⟨hmem, rfl⟩ := mem_of_node? hm
    rw [hm]
    exact (ha.mem_children m hmem n.handle).mpr ⟨n, hn, rfl, hp⟩
  · rename_i hp
    exact (ha.mem_roots n.handle).mpr ⟨n, hn, rfl, hp⟩

theorem Arena.siblings_update (ha : o.Arena) {f : Node → Node} (hf : KeepsPlace f) {n : Node}
    (hn : n ∈ o.nodes) : (o.update n.handle f).siblings (f n) = o.siblings n := by
  rw [siblings, siblings, (hf n).2.1]
  cases hp : n.parent with
  | none => rfl
  | some p =>
    have hne : p ≠ n.handle := Nat.ne_of_lt (ha.parent_lt n hn p hp)
    simp only [ha.node?_update_of_ne hf hne]

theorem Drawing.siblings_eq {o' : Outline} {h : Handle} {keys : List OpenKey} {n n' : Node}
    (d : o.Drawing (some h) keys o') (ha : o.Arena) (hn : n ∈ o.nodes) (hn' : n' ∈ o'.nodes)
    (hh : n.handle = h) (hh' : n'.handle = h) : n'.parent = n.parent ∧
      (o'.siblings n').filter (fun c => decide (c < o.nextHandle)) =
        (o.siblings n).filter o'.isLive := by
  have hlt : n'.handle < o.nextHandle := hh' ▸ hh ▸ ha.handle_lt n hn
  obtain ⟨k, hk, htrim⟩ := d.exists_mem ha hn' hlt
  obtain ⟨hhandle, hparents, -, -⟩ := Node.eq_of_trim_eq htrim
  have hkn := ha.eq_of_handle hk hn (hhandle.trans (hh'.trans hh.symm))
  have hparent : n'.parent = n.parent := hkn ▸ hparents.symm
  refine ⟨hparent, ?_⟩
  cases hp : n.parent with
  | none =>
    rw [siblings, siblings, hparent, hp]
    exact d.roots_eq ha
  | some p =>
    obtain ⟨m, hm⟩ := exists_node?_of_isLive (ha.parent_live n hn p hp)
    obtain ⟨hmem, rfl⟩ := mem_of_node? hm
    have hne : m.handle ≠ h := hh ▸ Nat.ne_of_lt (ha.parent_lt n hn m.handle hp)
    have hlive := d.arena.parent_live n' hn' m.handle (hparent.trans hp)
    have hm' := d.node?_eq ha hmem (fun heq => hne (Option.some.inj heq).symm) hlive
    rw [siblings, siblings, hparent, hp]
    simp only [hm, hm', Option.elim_some, Node.trim_children]
    refine List.filter_eq_self.mpr fun c hc => ?_
    rw [decide_eq_true_iff]
    exact ha.isLive_lt ((ha.mem_children m hmem c).mp (List.mem_filter.mp hc).1).isLive

section

variable {h : Handle} {n : Node} {children : List Entity} {answer : Except Fault (List Drawn)}
  {o' : Outline}

/--
The children are accepted exactly if the keys that are drawn for them leave the node there, which
they do when none is its own key or that of a node above it. Then the node is expanded in its old
place; otherwise it is gone and reported as unknown.
-/
theorem receive_ok_iff (ho : o.Reachable) (hn : o.node? h = some n) (hf : n.expansion = .fetching)
    (hr : o.receive h children = (answer, o')) :
    ((∃ drawn, answer = .ok drawn) ↔ (o.evict (receivedKeys n children)).isLive h = true) ∧
      ((∀ key ∈ receivedKeys n children, ¬o.KeyAbove h key) → ∃ drawn, answer = .ok drawn) ∧
        ((∃ drawn, answer = .ok drawn) → ∃ n', o'.node? h = some n' ∧ n'.expansion = .expanded ∧
          n'.parent = n.parent ∧ h ∈ o'.siblings n' ∧
            (o'.siblings n').filter (fun c => decide (c < o.nextHandle)) =
              (o.siblings n).filter o'.isLive) ∧
          ((¬∃ drawn, answer = .ok drawn) →
            answer = .error (.unknownNode h) ∧ o'.isLive h = false) := by
  have ha := ho.arena
  have hplace := keepsPlace_arrived children.isEmpty
  have hh := isLive_of_node? hn
  obtain ⟨o₁, drawn, d, -, rfl, rfl⟩ := receive_outcome ha hn hf hr
  obtain ⟨hmem, rfl⟩ := mem_of_node? hn
  have hlive : (o₁.update n.handle (arrived children.isEmpty)).isLive = o₁.isLive :=
    funext (isLive_update hplace n.handle)
  have hold := d.isLive_iff (ha.handle_lt n hmem)
  cases hstays : o₁.isLive n.handle with
  | false =>
    rw [hstays] at hold
    refine ⟨by simp [← hold], fun hkeys => ?_, by simp, fun _ => ⟨rfl, ?_⟩⟩
    · cases hold.mpr (ha.isLive_evict hh hkeys)
    · rw [hlive, hstays]
  | true =>
    refine ⟨by simp [← hold, hstays], by simp, fun _ => ?_, by simp⟩
    obtain ⟨n₁, hn₁⟩ := exists_node?_of_isLive hstays
    obtain ⟨hmem₁, hhandle⟩ := mem_of_node? hn₁
    obtain ⟨hparent, hsiblings⟩ := d.siblings_eq ha hmem hmem₁ rfl hhandle
    have hnode := d.arena.node?_update_self hplace hmem₁
    have hsame := d.arena.siblings_update hplace hmem₁
    rw [hhandle] at hnode hsame
    refine ⟨_, hnode, rfl, hparent, ?_, ?_⟩
    · rw [hsame, ← hhandle]
      exact d.arena.mem_siblings hmem₁
    · rw [hsame, hlive]
      exact hsiblings

end

def nested : Outline :=
  let i : Entity := ⟨"i", "", none, .image, []⟩
  (start .empty).run [.draw ⟨"a", "", none, .emptyElement, []⟩ none (some "r") true true, .toggle 0,
    .receive 0 [⟨"a", "", none, .folder [] [] [i], []⟩], .toggle 1]

theorem reachable_nested : nested.Reachable := ⟨_, _, rfl⟩

theorem receive_ok_iff_nested :
    (∃ drawn, (nested.receive 1 [⟨"b", "", none, .content, []⟩]).1 = .ok drawn) ∧
      ∃ n', (nested.receive 1 [⟨"b", "", none, .content, []⟩]).2.node? 1 = some n' ∧
        n'.expansion = .expanded ∧
        1 ∈ (nested.receive 1 [⟨"b", "", none, .content, []⟩]).2.siblings n' := by
  have hwaits : (nested.node? 1).map (fun n => (n.expansion, n.entityId, n.resourceId)) =
      some (.fetching, "a", some "r") := by decide
  obtain ⟨n, hn, hparts⟩ := Option.map_eq_some_iff.mp hwaits
  simp only [Prod.mk.injEq] at hparts
  obtain ⟨hf, hid, hresource⟩ := hparts
  have hkeys : receivedKeys n [⟨"b", "", none, .content, []⟩] = [⟨"b", some "a", some "r"⟩] := by
    rw [receivedKeys, hid, hresource]
    rfl
  obtain ⟨hiff, -, hplace, -⟩ := receive_ok_iff reachable_nested hn hf
    (Prod.eta (nested.receive 1 [⟨"b", "", none, .content, []⟩])).symm
  have hok := hiff.mpr (hkeys ▸ by decide)
  obtain ⟨n', hn', hexpanded, -, hlisted, -⟩ := hplace hok
  exact ⟨hok, n', hn', hexpanded, hlisted⟩

/-- A content `a` below the folder `a` has the folder's own key: the folder
is replaced while it waits. -/
theorem receive_replaces_waiting :
    nested.Reachable ∧ (∃ n, nested.node? 1 = some n ∧ n.expansion = .fetching) ∧
      (nested.receive 1 [⟨"a", "", none, .content, []⟩]).1 = .error (.unknownNode 1) ∧
        (nested.receive 1 [⟨"a", "", none, .content, []⟩]).2.isLive 1 = false := by
  have hwaits : (nested.node? 1).map Node.expansion = some .fetching := by decide
  exact ⟨reachable_nested, Option.map_eq_some_iff.mp hwaits, by rfl, by decide⟩

end Outline

end ContentConsole
