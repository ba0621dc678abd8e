import ContentConsole.Outline.Expand
import ContentConsole.Proofs.Outline.Drawing

set_option autoImplicit false
set_option relaxedAutoImplicit false

/-!
Fetched children, drawn one after the other below the node that waits for them. Main statements:
`drawing_receiveEach`, by which they evict the keys that are drawn for them, and
`under_receiveEach`, by which everything new stands below the node.
-/
namespace ContentConsole

namespace Outline

/-- The keys that are drawn for the fetched children of a node, in the order they are drawn. -/
def receivedKeys (parent : Node) (children : List Entity) : List OpenKey :=
  children.flatMap fun e => (Plan.ofEntity e).keys (some parent.entityId) parent.resourceId

/-- Where a fetched child is drawn: below the node, in the place of the same child drawn before. -/
def receivedPlace (parent : Node) (e : Entity) : Place :=
  ⟨some parent.handle, some parent.entityId, parent.resourceId, true,
    e.hasMembers && e.children.isEmpty⟩

def graftPlace (parent : Node) (e : Entity) (h : Handle) : Place :=
  ⟨some h, some e.id, parent.resourceId, false, false⟩

variable {o : Outline}

theorem receiveOne_eq (parent : Node) (e : Entity) : (o.receiveOne parent e).2 =
    (o.drawPlan (receivedPlace parent e) (.ofEntity e)).drawPlan (graftPlace parent e o.nextHandle)
      (.ofTrees e.children) := by
  have hwhole : (!!e.children.isEmpty) = e.children.isEmpty := Bool.not_not _
  rw [receiveOne]
  simp only [hwhole, drawAt_eq_drawPlan, drawAt_handle, graft, graftAll_eq_drawPlan]
  cases hchildren : e.children with
  | nil => simp [receivedPlace, hchildren, Plan.ofTrees, drawPlan]
  | cons child children => simp [receivedPlace, graftPlace, hchildren]

theorem drawing_receiveOne (ha : o.Arena) (parent : Node) (e : Entity) :
    o.Drawing (some parent.handle) ((Plan.ofEntity e).keys (some parent.entityId) parent.resourceId)
      (o.receiveOne parent e).2 := by
  have d := drawing_drawPlan ha (receivedPlace parent e) (.ofEntity e)
  have d' := drawing_drawPlan d.arena (graftPlace parent e o.nextHandle) (.ofTrees e.children)
  have hboth := d.trans d' fun p hp => .inr (Option.some.inj hp ▸ Nat.le_refl _)
  rw [receiveOne_eq]
  simpa [evicted, receivedPlace, graftPlace] using hboth

theorem drawing_receiveEach (ha : o.Arena) (parent : Node) (children : List Entity) :
    o.Drawing (some parent.handle) (receivedKeys parent children)
      (o.receiveEach parent children).2 := by
  induction children generalizing o with
  | nil => exact Drawing.refl ha _
  | cons e children ih =>
    have d := drawing_receiveOne ha parent e
    rw [receivedKeys, List.flatMap_cons]
    exact d.trans (ih d.arena) fun p hp => .inl hp

theorem ofEntity_eq (e : Entity) :
    ∃ uploads below, Plan.ofEntity e = .node e uploads below .done := by
  obtain ⟨id, name, resourceId, kind, children⟩ := e
  cases kind <;> rw [Plan.ofEntity] <;> exact ⟨_, _, rfl⟩

/-- No entity among the children has the key of one that it is drawn below. -/
def ClearChildren (parent : Node) (children : List Entity) : Prop :=
  ∀ e ∈ children, (Plan.ofEntity e).Clear (some parent.entityId) parent.resourceId []

theorem under_receiveOne (ha : o.Arena) {parent : Node} {e : Entity}
    (hclear : (Plan.ofEntity e).Clear (some parent.entityId) parent.resourceId [])
    (hlive : o.isLive parent.handle = true)
    (hh : (o.receiveOne parent e).2.isLive parent.handle = true) :
    Under parent.handle o (o.receiveOne parent e).2 := by
  obtain ⟨uploads, below, hplan⟩ := ofEntity_eq e
  rw [receiveOne_eq, hplan] at hh ⊢
  rw [hplan] at hclear
  have hlt := ha.isLive_lt hlive
  have d₁ := drawing_drawNode ha (receivedPlace parent e) e uploads
  have d₂ := drawing_drawPlan d₁.arena ((receivedPlace parent e).below o.nextHandle e.id) below
  have d₃ := drawing_drawPlan d₂.arena (graftPlace parent e o.nextHandle) (.ofTrees e.children)
  have hlt₁ := Nat.lt_of_lt_of_le hlt d₁.nextHandle_le
  have hh₂ := d₃.isLive_of_isLive d₂.arena (Nat.lt_of_lt_of_le hlt₁ d₂.nextHandle_le) hh
  have hh₁ := d₂.isLive_of_isLive d₁.arena hlt₁ hh₂
  have hchild :=
    ha.isChild_drawNode_new e uploads rfl .refl hlive (fun _ => ha.not_keyBetween_self) hh₁
  have hunder₁ := ha.under_drawNode e uploads hchild .refl hlive
  have hq := hunder₁ _ hchild.isLive (Nat.le_refl _)
  obtain ⟨hq₂, hunder₂⟩ := d₁.arena.under_drawPlan
    ((receivedPlace parent e).below o.nextHandle e.id) below rfl hq hchild.isLive
      (fun _ => hclear.2.1)
    (fun key hbetween => by
      rcases ha.keyBetween_drawNode hchild hlive hbetween with hkey | hself
      · exact hkey ▸ List.mem_cons_self ..
      · exact absurd hself ha.not_keyBetween_self) hh₂
  have hq' := d₂.below d₁.arena hq hchild.isLive hq₂
  obtain ⟨-, hunder₃⟩ := d₂.arena.under_drawPlan (graftPlace parent e o.nextHandle)
    (.ofTrees e.children) rfl hq' hq₂ (fun hr => by cases hr)
    (fun key ⟨m, hm, hkey, _⟩ => List.mem_map.mpr ⟨m, hm, hkey⟩) hh
  exact (hunder₁.trans d₂ d₁.arena hunder₂).trans d₃ d₂.arena hunder₃

theorem under_receiveEach (ha : o.Arena) {parent : Node} {children : List Entity}
    (hclear : ClearChildren parent children) (hlive : o.isLive parent.handle = true)
    (hh : (o.receiveEach parent children).2.isLive parent.handle = true) :
    Under parent.handle o (o.receiveEach parent children).2 := by
  induction children generalizing o with
  | nil =>
    intro c hc hnext
    exact absurd (ha.isLive_lt hc) (Nat.not_lt.mpr hnext)
  | cons e children ih =>
    have d := drawing_receiveOne ha parent e
    have d' := drawing_receiveEach d.arena parent children
    have hmid :=
      d'.isLive_of_isLive d.arena (Nat.lt_of_lt_of_le (ha.isLive_lt hlive) d.nextHandle_le) hh
    have hunder := under_receiveOne ha (hclear e (List.mem_cons_self ..)) hlive hmid
    exact hunder.trans d' d.arena
      (ih d.arena (fun e he => hclear e (List.mem_cons_of_mem _ he)) hmid hh)

theorem Arena.receiveEach_induction {P : Outline → Prop} (ha : o.Arena)
    (h : ∀ o at' e uploads, o.Arena → P o → P (o.drawNode at' e uploads)) (ho : P o) (parent : Node)
    (children : List Entity) : P (o.receiveEach parent children).2 := by
  induction children generalizing o with
  | nil => exact ho
  | cons e children ih =>
    have hone : P (o.receiveOne parent e).2 := by
      rw [receiveOne_eq]
      exact (ha.drawPlan _ _).drawPlan_induction h (ha.drawPlan_induction h ho _ _) _ _
    exact ih (drawing_receiveOne ha parent e).arena hone

/-! The outcome for the node itself. -/

def arrived (isEmpty : Bool) (n : Node) : Node :=
  { n with expansion := .expanded, isDeletable := n.isDeletable && isEmpty }

theorem keepsPlace_arrived (isEmpty : Bool) : KeepsPlace (arrived isEmpty) :=
  fun _ => ⟨rfl, rfl, rfl⟩

theorem receive_eq {h : Handle} {n : Node} (hn : o.node? h = some n) (hf : n.expansion = .fetching)
    (children : List Entity) : o.receive h children =
      (if (o.receiveEach n children).2.isLive h then .ok (o.receiveEach n children).1
        else .error (.unknownNode h),
      (o.receiveEach n children).2.update h (arrived children.isEmpty)) := by
  rw [receive, get_eq_ok_iff.mpr hn]
  simp only [hf, ne_eq, not_true, if_false]
  cases hnode : (o.receiveEach n children).2.node? h with
  | none =>
    have hgone : (o.receiveEach n children).2.isLive h = false := by
      rw [isLive, hnode]
      rfl
    rw [get, hnode, update_eq_self hgone (arrived children.isEmpty), hgone]
    rfl
  | some n₁ =>
    rw [get_eq_ok_iff.mpr hnode, isLive_of_node? hnode]
    rfl

theorem receive_of_not_fetching {h : Handle} {children : List Entity}
    (hf : ∀ n, o.node? h = some n → n.expansion ≠ .fetching) : (o.receive h children).2 = o := by
  cases hn : o.node? h with
  | none => rw [receive, get, hn]
  | some n =>
    rw [receive, get_eq_ok_iff.mpr hn]
    simp only [ne_eq, hf n hn, not_false_eq_true, if_true]

theorem receive_snd (o : Outline) (h : Handle) (children : List Entity) :
    (o.receive h children).2 = o ∨
    ∃ n, o.node? h = some n ∧ n.expansion = .fetching ∧
      (o.receive h children).2 = (o.receiveEach n children).2.update h
        (arrived children.isEmpty) := by
  by_cases hwaits : ∃ n, o.node? h = some n ∧ n.expansion = .fetching
  · obtain ⟨n, hn, hf⟩ := hwaits
    exact .inr ⟨n, hn, hf, by rw [receive_eq hn hf]⟩
  · exact .inl (receive_of_not_fetching fun n hn hf => hwaits ⟨n, hn, hf⟩)

end Outline

end ContentConsole
