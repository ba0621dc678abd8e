import ContentConsole.Proofs.Outline.Edit
import ContentConsole.Proofs.Outline.Layout

set_option autoImplicit false
set_option relaxedAutoImplicit false

/-!
The rule that an entity is deleted only when no node of it has children. Each node keeps whether it
may be deleted, as that was when it was drawn or when its children arrived, and children come to it
in other ways too. Main statement: `guarded_iff_never_exposes`, by which the rule holds all along a
run exactly if no drawing of the run puts a child below an entity whose deletion is offered, or
offers the deletion of one that has a child.
-/
namespace ContentConsole

namespace Outline

variable {o o' o'' : Outline}

/-- Deletion is offered only for an entity of which no node has a child. -/
def Guarded (o : Outline) : Prop :=
  ∀ h prompt n, o.deletionPrompt h = .ok (some prompt) → o.node? h = some n →
    ∀ m ∈ o.nodes, m.entityId = n.entityId → m.children = []

/-- The deletion of `n` is offered, though `m` shows the same entity and has the child `c`. -/
def Exposed (o : Outline) (n m : Node) (c : Handle) : Prop :=
  n ∈ o.nodes ∧ n.isDeletable = true ∧ m ∈ o.nodes ∧ m.entityId = n.entityId ∧ c ∈ m.children

theorem exists_deletionPrompt_iff {h : Handle} {n : Node} (hn : o.node? h = some n) :
    (∃ prompt, o.deletionPrompt h = .ok (some prompt)) ↔ n.isDeletable = true := by
  rw [deletionPrompt, get_eq_ok_iff.mpr hn]
  cases hdeletable : n.isDeletable <;> simp [hdeletable]

theorem Arena.guarded_iff (ha : o.Arena) : o.Guarded ↔ ∀ n m c, ¬o.Exposed n m c := by
  constructor
  · rintro hguarded n m c ⟨hn, hdeletable, hm, hentity, hc⟩
    have hnode := ha.node?_handle hn
    obtain ⟨prompt, hprompt⟩ := (exists_deletionPrompt_iff hnode).mpr hdeletable
    have hnone := hguarded n.handle prompt n hprompt hnode m hm hentity
    rw [hnone] at hc
    cases hc
  · intro hnone h prompt n hprompt hnode m hm hentity
    have hdeletable := (exists_deletionPrompt_iff hnode).mp ⟨prompt, hprompt⟩
    refine List.eq_nil_iff_forall_not_mem.mpr fun c hc => ?_
    exact hnone n m c ⟨(mem_of_node? hnode).1, hdeletable, hm, hentity, hc⟩

end Outline

/-! What edits do. -/

def Node.Within (m n : Node) : Prop :=
  m.handle = n.handle ∧ m.entityId = n.entityId ∧ (m.isDeletable = true → n.isDeletable = true) ∧
    m.children ⊆ n.children

namespace Node

variable {n : Node}

theorem Within.refl (n : Node) : n.Within n := ⟨rfl, rfl, id, List.Subset.refl _⟩

theorem trim_within (keep : Handle → Bool) : (n.trim keep).Within n :=
  ⟨rfl, rfl, id, List.filter_subset_self _⟩

theorem inState_within (state : Expansion) : (n.inState state).Within n :=
  ⟨rfl, rfl, id, List.Subset.refl _⟩

theorem commit_within : n.commit.Within n := ⟨rfl, rfl, id, List.Subset.refl _⟩

end Node

namespace Outline

variable {o o' o'' : Outline}

theorem Restyles.within {f : Node → Node} (hf : Restyles f) (n : Node) : (f n).Within n := by
  rw [hf n]
  exact ⟨rfl, rfl, id, List.Subset.refl _⟩

theorem exists_within_of_mem_update {f : Node → Node} (hf : ∀ n, (f n).Within n) {h : Handle}
    {m : Node} (hm : m ∈ (o.update h f).nodes) : ∃ n ∈ o.nodes, m.Within n := by
  obtain ⟨n, hn, rfl⟩ := mem_update_nodes.mp hm
  refine ⟨n, hn, ?_⟩
  split
  · exact hf n
  · exact .refl n

theorem Edited.exists_within (hedit : o.Edited o') (ha : o.Arena) {m : Node} (hm : m ∈ o'.nodes) :
    ∃ n ∈ o.nodes, m.Within n := by
  cases hedit with
  | marked openKeys selected => exact ⟨m, hm, .refl m⟩
  | pruned keep openKeys hkeep =>
    obtain ⟨n, hn, -, rfl⟩ := mem_restrict_nodes.mp hm
    exact ⟨n, hn, Node.trim_within keep⟩
  | opened n hn =>
    rw [ha.openNode_eq hn] at hm
    exact exists_within_of_mem_update (fun _ => Node.inState_within _) hm
  | closed n keep openKeys hkeep =>
    obtain ⟨k, hk, hwithin⟩ := exists_within_of_mem_update (fun _ => Node.inState_within _) hm
    obtain ⟨j, hj, -, rfl⟩ := mem_restrict_nodes.mp hk
    obtain ⟨hhandle, hentity, hdeletable, hchildren⟩ := hwithin
    exact ⟨j, hj, hhandle, hentity, hdeletable, fun c hc => (List.mem_filter.mp (hchildren hc)).1⟩
  | committed h => exact exists_within_of_mem_update (fun _ => Node.commit_within) hm
  | renamed h _ hr =>
    rcases hr with rfl | ⟨f, effects, rfl, hf, -⟩
    · exact ⟨m, hm, .refl m⟩
    · exact exists_within_of_mem_update hf.within hm

theorem Exposed.of_within (hwithin : ∀ m ∈ o'.nodes, ∃ n ∈ o.nodes, m.Within n) {n' m' : Node}
    {c : Handle} (hexposed : o'.Exposed n' m' c) :
    ∃ n m, o.Exposed n m c ∧ n.handle = n'.handle ∧ m.handle = m'.handle := by
  obtain ⟨hn', hdeletable, hm', hentity, hc⟩ := hexposed
  obtain ⟨n, hn, hhandle, hentityn, hless, -⟩ := hwithin n' hn'
  obtain ⟨m, hm, hhandlem, hentitym, -, hchildren⟩ := hwithin m' hm'
  refine ⟨n, m, ⟨hn, hless hdeletable, hm, ?_, hchildren hc⟩, hhandle.symm, hhandlem.symm⟩
  rw [← hentitym, hentity, hentityn]

/-! What drawing does. -/

/-- Of the nodes from `next` on, none with children may be deleted. -/
def Upheld (next : Handle) (o : Outline) : Prop :=
  ∀ n ∈ o.nodes, next ≤ n.handle → n.children ≠ [] → n.isDeletable = false

variable {anchor : Option Handle} {keys : List OpenKey} {next : Handle}

theorem Drawing.exists_old (d : o.Drawing anchor keys o') (ha : o.Arena) {m : Node}
    (hm : m ∈ o'.nodes) (hlt : m.handle < o.nextHandle) :
    ∃ n ∈ o.nodes, n.handle = m.handle ∧ n.entityId = m.entityId ∧ n.isDeletable = m.isDeletable ∧
      ∀ c ∈ m.children, c < o.nextHandle → c ∈ n.children := by
  obtain ⟨n, hn, htrim⟩ := d.exists_mem ha hm hlt
  have hentity := congrArg Node.entityId htrim
  have hdeletable := congrArg Node.isDeletable htrim
  have hchildren := congrArg Node.children htrim
  refine ⟨n, hn, (Node.eq_of_trim_eq htrim).1, hentity, hdeletable, fun c hc hclt => ?_⟩
  have hmem : c ∈ (m.trim fun h => decide (h < o.nextHandle)).children :=
    List.mem_filter.mpr ⟨hc, decide_eq_true hclt⟩
  rw [← hchildren] at hmem
  exact (List.mem_filter.mp hmem).1

theorem Drawing.exposed_new (d : o.Drawing anchor keys o') (ha : o.Arena)
    (hnone : ∀ n m c, ¬o.Exposed n m c) {n m : Node} {c : Handle} (hexposed : o'.Exposed n m c) :
    o.nextHandle ≤ c ∨ o.nextHandle ≤ n.handle := by
  by_contra hold
  obtain ⟨hcold, hnold⟩ := not_or.mp hold
  have hclt : c < o.nextHandle := Nat.lt_of_not_le hcold
  have hnlt : n.handle < o.nextHandle := Nat.lt_of_not_le hnold
  obtain ⟨hn, hdeletable, hm, hentity, hc⟩ := hexposed
  have hmc := d.arena.lt_of_isChild ((d.arena.mem_children m hm c).mp hc)
  obtain ⟨n₀, hn₀, -, hentityn, hsame, -⟩ := d.exists_old ha hn hnlt
  obtain ⟨m₀, hm₀, -, hentitym, -, hchildren⟩ := d.exists_old ha hm (by lia)
  refine hnone n₀ m₀ c ⟨hn₀, hsame.trans hdeletable, hm₀, ?_, hchildren c hc hclt⟩
  rw [hentitym, hentity, hentityn]

theorem Upheld.trans (hupheld : Upheld next o) (ha : o.Arena) (d : o.Drawing anchor keys o')
    (hnew : Upheld o.nextHandle o')
    (hanchor : ∀ p, anchor = some p → next ≤ p → ∀ n ∈ o.nodes, n.handle = p →
      n.isDeletable = false) :
    Upheld next o' := by
  intro m hm hnext hchildren
  by_cases hlt : m.handle < o.nextHandle
  · obtain ⟨n, hn, hhandle, -, hdeletable, hold⟩ := d.exists_old ha hm hlt
    obtain ⟨c, hc⟩ := List.exists_mem_of_ne_nil _ hchildren
    rw [← hdeletable]
    by_cases hclt : c < o.nextHandle
    · exact hupheld n hn (hhandle ▸ hnext) (List.ne_nil_of_mem (hold c hc hclt))
    · have hchild := (d.arena.mem_children m hm c).mp hc
      rcases d.anchored _ _ hchild (by lia) with hp | hp
      · exact hanchor _ hp hnext n hn hhandle
      · lia
  · exact hnew m hm (by lia) hchildren

theorem Arena.upheld_self (ha : o.Arena) : Upheld o.nextHandle o := by
  intro n hn hnext
  have hlt := ha.handle_lt n hn
  lia

theorem Arena.upheld_drawNode (ha : o.Arena) (at' : Place) (e : Entity) (uploads : Bool) :
    Upheld o.nextHandle (o.drawNode at' e uploads) := by
  intro n hn hnext hchildren
  rcases ha.mem_drawNode hn with ⟨k, hk, rfl⟩ | rfl
  · have hlt := ha.lt_of_mem_cleared hk
    rw [Node.adopt_handle] at hnext
    lia
  · exact absurd rfl hchildren

theorem Arena.isDeletable_drawNode (ha : o.Arena) {at' : Place} {e : Entity} {uploads : Bool}
    {n : Node} (hn : n ∈ (o.drawNode at' e uploads).nodes) (hhandle : n.handle = o.nextHandle) :
    n.isDeletable = !(e.hasMembers || !e.children.isEmpty) := by
  rcases ha.mem_drawNode hn with ⟨k, hk, rfl⟩ | rfl
  · have hlt := ha.lt_of_mem_cleared hk
    rw [Node.adopt_handle] at hhandle
    lia
  · rfl

end Outline

/-! Plans draw nothing below an entity that has neither members nor children. -/

namespace Plan

/-- Whatever is drawn below an entity, the entity has members or children in the tree. -/
def Fair : Plan → Prop
  | .done => True
  | .node e _ below rest =>
    (below ≠ .done → (e.hasMembers || !e.children.isEmpty) = true) ∧ below.Fair ∧ rest.Fair

theorem Fair.append {plan plan' : Plan} (h : plan.Fair) (h' : plan'.Fair) :
    (plan.append plan').Fair := by
  induction plan with
  | done => exact h'
  | node e uploads below rest _ ihRest => exact ⟨h.1, h.2.1, ihRest h.2.2⟩

theorem fair_flat (es : List Entity) : (flat es).Fair := by
  induction es with
  | nil => exact trivial
  | cons e es ih => exact ⟨fun h => absurd rfl h, trivial, ih⟩

mutual

theorem fair_ofEntity : ∀ e : Entity, (ofEntity e).Fair
  | ⟨id, name, resourceId, kind, children⟩ => by
    cases kind with
    | folder folders images files =>
      rw [ofEntity]
      refine ⟨fun hbelow => ?_,
        (fair_ofFolders folders).append ((fair_flat _).append (fair_flat _)), trivial⟩
      by_contra hbare
      simp only [Entity.hasMembers, Kind.members, Bool.or_eq_true, not_or, Bool.not_eq_true,
        Bool.not_eq_false', List.isEmpty_iff, List.append_eq_nil_iff] at hbare
      obtain ⟨⟨⟨rfl, rfl⟩, rfl⟩, -⟩ := hbare
      exact hbelow rfl
    | group users =>
      rw [ofEntity]
      refine ⟨fun hbelow => ?_, fair_flat users, trivial⟩
      cases users with
      | nil => exact absurd rfl hbelow
      | cons user users => rfl
    | element typeName elements =>
      rw [ofEntity]
      refine ⟨fun hbelow => ?_, fair_ofElements elements, trivial⟩
      cases elements with
      | nil => exact absurd (by rw [ofElements]) hbelow
      | cons e elements => rfl
    | resource | component | content | image | file | user =>
      rw [ofEntity]
      exact ⟨fun h => absurd rfl h, trivial, trivial⟩

theorem fair_ofFolders : ∀ es : List Entity, (ofFolders es).Fair
  | [] => by rw [ofFolders]; exact trivial
  | e :: es => by
    rw [ofFolders]
    exact (fair_ofEntity e).append (fair_ofFolders es)

theorem fair_ofElements : ∀ es : List Entity, (ofElements es).Fair
  | [] => by rw [ofElements]; exact trivial
  | e :: es => by
    have hrest := fair_ofElements es
    rw [ofElements]
    cases e.type with
    | element => exact (fair_ofEntity e).append hrest
    | content => exact ⟨fun h => absurd rfl h, trivial, hrest⟩
    | resource | component | folder | image | file | user | group => exact hrest

end

mutual

theorem fair_ofTree : ∀ e : Entity, (ofTree e).Fair
  | ⟨id, name, resourceId, kind, children⟩ => by
    have hchildren := fair_ofTrees children
    cases kind with
    | folder folders images files =>
      rw [ofTree]
      refine ⟨fun hbelow => ?_, (fair_flat files).append hchildren, trivial⟩
      by_contra hbare
      simp only [Entity.hasMembers, Kind.members, Bool.or_eq_true, not_or, Bool.not_eq_true,
        Bool.not_eq_false', List.isEmpty_iff, List.append_eq_nil_iff] at hbare
      obtain ⟨⟨-, rfl⟩, rfl⟩ := hbare
      exact hbelow (by rw [ofTrees]; rfl)
    | resource | component | content | image | file | user | group | element =>
      simp only [ofTree]
      refine ⟨fun hbelow => ?_, hchildren, trivial⟩
      cases children with
      | nil => exact absurd (by rw [ofTrees]; rfl) hbelow
      | cons child children => simp

theorem fair_ofTrees : ∀ es : List Entity, (ofTrees es).Fair
  | [] => by rw [ofTrees]; exact trivial
  | e :: es => by
    rw [ofTrees]
    exact (fair_ofTree e).append (fair_ofTrees es)

end

end Plan

namespace Outline

variable {o o' : Outline} {anchor : Option Handle} {keys : List OpenKey}

theorem Arena.upheld_drawPlan (ha : o.Arena) (at' : Place) (plan : Plan) (hfair : plan.Fair)
    (hparent : ∀ p, at'.parent = some p → p < o.nextHandle) :
    Upheld o.nextHandle (o.drawPlan at' plan) := by
  induction plan generalizing o at' with
  | done => exact ha.upheld_self
  | node e uploads below rest ihBelow ihRest =>
    obtain ⟨hmembers, hfairBelow, hfairRest⟩ := hfair
    have d₁ := drawing_drawNode ha at' e uploads
    have d₂ := drawing_drawPlan d₁.arena (at'.below o.nextHandle e.id) below
    have d₃ := drawing_drawPlan d₂.arena at' rest
    have hnext := ha.drawNode_nextHandle at' e uploads
    have h₁ := ha.upheld_drawNode at' e uploads
    have h₂ : Upheld o.nextHandle
        ((o.drawNode at' e uploads).drawPlan (at'.below o.nextHandle e.id) below) := by
      by_cases hnone : below = .done
      · rw [hnone]
        exact h₁
      · have hbelow := ihBelow d₁.arena (at'.below o.nextHandle e.id) hfairBelow fun p hp => by
          have heq : o.nextHandle = p := Option.some.inj hp
          lia
        refine h₁.trans d₁.arena d₂ hbelow fun p hp _ n hn hhandle => ?_
        have heq : o.nextHandle = p := Option.some.inj hp
        rw [ha.isDeletable_drawNode hn (by lia), hmembers hnone]
        rfl
    have hrest := ihRest d₂.arena at' hfairRest fun p hp => by
      have hlt := hparent p hp
      have hle := d₂.nextHandle_le
      lia
    refine h₂.trans d₂.arena d₃ hrest fun p hp hle => ?_
    have hlt := hparent p hp
    lia

theorem Arena.upheld_receiveOne (ha : o.Arena) {parent : Node}
    (hlive : parent.handle < o.nextHandle) (e : Entity) :
    Upheld o.nextHandle (o.receiveOne parent e).2 := by
  obtain ⟨uploads, below, hplan⟩ := ofEntity_eq e
  have d := drawing_drawPlan ha (receivedPlace parent e) (.ofEntity e)
  have d' := drawing_drawPlan d.arena (graftPlace parent e o.nextHandle) (.ofTrees e.children)
  have hdrawn := ha.upheld_drawPlan (receivedPlace parent e) (.ofEntity e) (Plan.fair_ofEntity e)
    fun p hp => (Option.some.inj hp : parent.handle = p) ▸ hlive
  rw [receiveOne_eq]
  by_cases hchildren : e.children = []
  · rw [hchildren, Plan.ofTrees]
    exact hdrawn
  · have d₁ := drawing_drawNode ha (receivedPlace parent e) e uploads
    have d₂ := drawing_drawPlan d₁.arena ((receivedPlace parent e).below o.nextHandle e.id) below
    have hnext := ha.drawNode_nextHandle (receivedPlace parent e) e uploads
    have hnew : o.nextHandle < (o.drawPlan (receivedPlace parent e) (.ofEntity e)).nextHandle := by
      have hle := d₂.nextHandle_le
      rw [hplan]
      change _ < ((o.drawNode _ e uploads).drawPlan _ below).nextHandle
      lia
    have htrees := d.arena.upheld_drawPlan (graftPlace parent e o.nextHandle) (.ofTrees e.children)
      (Plan.fair_ofTrees e.children) fun p hp => (Option.some.inj hp : o.nextHandle = p) ▸ hnew
    refine hdrawn.trans d.arena d' htrees fun p hp _ n hn hhandle => ?_
    -- The trees are drawn below the node of the child itself, which is not deletable
    -- as it has them.
    have heq : o.nextHandle = p := Option.some.inj hp
    rw [hplan] at hn
    obtain ⟨k, hk, hkn, -, hsame, -⟩ := d₂.exists_old d₁.arena hn (by lia)
    rw [← hsame, ha.isDeletable_drawNode hk (by lia)]
    simp [hchildren]

theorem Arena.upheld_receiveEach (ha : o.Arena) {parent : Node}
    (hlive : parent.handle < o.nextHandle) (children : List Entity) :
    Upheld o.nextHandle (o.receiveEach parent children).2 := by
  induction children generalizing o with
  | nil => exact ha.upheld_self
  | cons e children ih =>
    have d := drawing_receiveOne ha parent e
    have d' := drawing_receiveEach d.arena parent children
    have hrest := ih d.arena (Nat.lt_of_lt_of_le hlive d.nextHandle_le)
    refine (ha.upheld_receiveOne hlive e).trans d.arena d' hrest fun p hp hle => ?_
    have heq : parent.handle = p := Option.some.inj hp
    lia

/-! Which actions break the rule. -/

/--
The action breaks the rule: it draws a child below an entity whose deletion is offered,
or a node that offers the deletion of an entity that has a child. Drawing offers the
deletion of no new node that has children itself, and what has arrived below a node ends
the offer of the node's own deletion.
-/
def Exposes (o : Outline) (a : Action) : Prop :=
  match a with
  | .draw .. | .drawTree .. => ∃ n m c, (o.perform a).Exposed n m c ∧
      (o.nextHandle ≤ c ∨ o.nextHandle ≤ n.handle) ∧ (m = n → n.handle < o.nextHandle)
  | .receive .. => ∃ n m c, (o.perform a).Exposed n m c ∧
      (o.nextHandle ≤ c ∨ o.nextHandle ≤ n.handle) ∧ m ≠ n
  | _ => False

private theorem Drawing.breaks (d : o.Drawing anchor keys o') (ha : o.Arena)
    (hnone : ∀ n m c, ¬o.Exposed n m c) (hupheld : Upheld o.nextHandle o') {n m : Node} {c : Handle}
    (hexposed : o'.Exposed n m c) :
    (o.nextHandle ≤ c ∨ o.nextHandle ≤ n.handle) ∧ (m = n → n.handle < o.nextHandle) := by
  refine ⟨d.exposed_new ha hnone hexposed, ?_⟩
  rintro rfl
  obtain ⟨hm, hdeletable, -, -, hc⟩ := hexposed
  by_contra hnew
  have hnot := hupheld m hm (Nat.not_lt.mp hnew) (List.ne_nil_of_mem hc)
  rw [hdeletable] at hnot
  cases hnot

theorem arrived_within (isEmpty : Bool) (n : Node) : (arrived isEmpty n).Within n :=
  ⟨rfl, rfl, fun h => (Bool.and_eq_true_iff.mp h).1, List.Subset.refl _⟩

private theorem Arena.receive_breaks (ha : o.Arena) (hnone : ∀ n m c, ¬o.Exposed n m c)
    {h : Handle} {children : List Entity} {n m : Node} {c : Handle}
    (hexposed : (o.receive h children).2.Exposed n m c) :
    (o.nextHandle ≤ c ∨ o.nextHandle ≤ n.handle) ∧ m ≠ n := by
  cases hnode : o.node? h with
  | none =>
    rw [Outline.receive, get, hnode] at hexposed
    exact absurd hexposed (hnone n m c)
  | some k =>
    obtain ⟨hk, rfl⟩ := mem_of_node? hnode
    by_cases hf : k.expansion = .fetching
    · have d := drawing_receiveEach ha k children
      have hupheld := ha.upheld_receiveEach (ha.handle_lt k hk) children
      rw [receive_eq hnode hf] at hexposed
      obtain ⟨n₁, m₁, hexposed₁, hn₁, hm₁⟩ :=
        hexposed.of_within fun _ hm => exists_within_of_mem_update (arrived_within _) hm
      obtain ⟨hnew, hself⟩ := d.breaks ha hnone hupheld hexposed₁
      refine ⟨hn₁ ▸ hnew, ?_⟩
      rintro rfl
      have hsame := d.arena.eq_of_handle hexposed₁.2.2.1 hexposed₁.1 (hm₁.trans hn₁.symm)
      have hold := hself hsame
      have hchild := (d.arena.mem_children m₁ hexposed₁.2.2.1 c).mp hexposed₁.2.2.2.2
      have hc : o.nextHandle ≤ c := hnew.resolve_right (Nat.not_le.mpr hold)
      rcases d.anchored _ c hchild hc with hwaits | hp
      · -- The new child hangs below the node that waited, and that is no longer deletable.
        obtain ⟨j, -, rfl⟩ := mem_update_nodes.mp hexposed.1
        have hdeletable := hexposed.2.1
        have hjk : j.handle = k.handle := by
          have hhandle : (if j.handle = k.handle then arrived children.isEmpty j else j).handle =
              j.handle := by
            split <;> rfl
          rw [← hhandle, ← hm₁, Option.some.inj hwaits]
        rw [if_pos hjk] at hdeletable
        have hempty := (Bool.and_eq_true_iff.mp hdeletable).2
        rw [List.isEmpty_iff] at hempty
        rw [hempty] at hchild
        exact absurd (ha.isLive_lt hchild.isLive) (Nat.not_lt.mpr hc)
      · rw [hsame] at hp
        exact absurd hold (Nat.not_lt.mpr hp)
    · rw [Outline.receive, get_eq_ok_iff.mpr hnode] at hexposed
      simp only [ne_eq, hf, not_false_eq_true, if_true] at hexposed
      exact absurd hexposed (hnone n m c)

theorem guarded_perform_iff (hguarded : o.Guarded) (ha : o.Arena) (a : Action) :
    (o.perform a).Guarded ↔ ¬o.Exposes a := by
  have hnone := ha.guarded_iff.mp hguarded
  rw [(ha.perform a).guarded_iff]
  constructor
  · intro hafter hexposes
    cases a with
    | draw | drawTree | receive =>
      obtain ⟨n, m, c, hexposed, -⟩ := hexposes
      exact hafter n m c hexposed
    | toggle | abandonFetch | settleUpload | remove | forget | click | editName
        | typeName | commitName
      | pressKey | takeEffects | retrack => exact hexposes
  · intro hkeeps n m c hexposed
    have hedited : a.IsEdit → False := by
      intro hedit
      obtain ⟨n₀, m₀, hexposed₀, -⟩ :=
        hexposed.of_within fun _ => (ha.edited_perform hedit).exists_within ha
      exact hnone n₀ m₀ c hexposed₀
    cases a with
    | draw e parentId resourceId replaces isExpandable =>
      refine hkeeps ⟨n, m, c, hexposed, ?_⟩
      rw [perform, Outline.draw, drawAt_eq_drawPlan] at hexposed
      refine (drawing_drawPlan ha _ _).breaks ha hnone ?_ hexposed
      refine ha.upheld_drawPlan _ _ (Plan.fair_ofEntity e) fun p hp => ?_
      obtain ⟨id, -, hparent⟩ := Option.bind_eq_some_iff.mp hp
      obtain ⟨k, hk, rfl, -⟩ := ha.parentFor_eq_some_iff.mp hparent
      exact ha.handle_lt k hk
    | drawTree e resourceId =>
      refine hkeeps ⟨n, m, c, hexposed, ?_⟩
      rw [perform, Outline.drawTree, graft, graftAll_eq_drawPlan] at hexposed
      refine (drawing_drawPlan ha _ _).breaks ha hnone ?_ hexposed
      refine ha.upheld_drawPlan _ _ (Plan.fair_ofTrees e.children) fun p hp => ?_
      obtain ⟨k, hk, rfl, -⟩ := ha.parentFor_eq_some_iff.mp hp
      exact ha.handle_lt k hk
    | receive h children => exact hkeeps ⟨n, m, c, hexposed, ha.receive_breaks hnone hexposed⟩
    | takeEffects => exact hnone n m c hexposed
    | toggle | abandonFetch | settleUpload | remove | forget | click | editName
        | typeName | commitName
      | pressKey | retrack => exact hedited trivial

theorem guarded_start (openKeys : OpenKeys) : (start openKeys).Guarded := by
  intro h prompt n _ hn
  cases hn

/--
All along a run, deletion is offered only for entities without children, exactly if no
drawing of the run puts a child below an entity whose deletion is offered or offers the
deletion of one that has a child.
-/
theorem guarded_iff_never_exposes (openKeys : OpenKeys) (actions : List Action) :
    (∀ before rest, actions = before ++ rest → ((start openKeys).run before).Guarded) ↔
      ∀ before a rest, actions = before ++ a :: rest → ¬((start openKeys).run before).Exposes a :=
  (arena_start openKeys).run_iff_never (guarded_start openKeys) fun _ a ha hguarded _ =>
    guarded_perform_iff hguarded ha a

def contentBelow : Outline :=
  (start .empty).run [.draw ⟨"a", "", none, .content, []⟩ none none true false,
    .draw ⟨"b", "", none, .content, []⟩ (some "a") none true false]

/-- What is drawn below a content by its id leaves the deletion of the content on offer. -/
theorem guarded_fails_below : contentBelow.Reachable ∧ ¬contentBelow.Guarded := by
  have hreachable : contentBelow.Reachable := ⟨_, _, rfl⟩
  have hoffered : ∃ n ∈ contentBelow.nodes, n.isDeletable = true ∧ 1 ∈ n.children := by decide
  obtain ⟨n, hn, hdeletable, hchild⟩ := hoffered
  refine ⟨hreachable, fun hguarded => ?_⟩
  exact hreachable.arena.guarded_iff.mp hguarded n n 1 ⟨hn, hdeletable, hn, rfl, hchild⟩

end Outline

end ContentConsole
