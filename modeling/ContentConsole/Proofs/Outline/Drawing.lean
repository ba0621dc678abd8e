import ContentConsole.Proofs.Outline.Eviction
import ContentConsole.Proofs.Outline.Plan

set_option autoImplicit false
set_option relaxedAutoImplicit false

/-!
What drawing below a node does to an outline as a whole. Main statements: `drawing_drawPlan`, by
which a plan that is drawn evicts its own keys from what was there before and changes nothing else
there, and `Arena.under_drawPlan`, by which all that is new stands below the node, as long as the
node itself stays and the plan has no entity with the key of one that it is drawn below.
-/
namespace ContentConsole

namespace Outline

/-- The key of the node that is drawn for an entity below the node that shows `parentId`. -/
def drawnKey (parentId resourceId : Option String) (e : Entity) : OpenKey :=
  (freshNode ⟨none, parentId, resourceId, true, false⟩ e).key

end Outline

def Plan.keys (parentId resourceId : Option String) : Plan → List OpenKey
  | .done => []
  | .node e _ below rest =>
    Outline.drawnKey parentId resourceId e ::
      (below.keys (some e.id) resourceId ++ rest.keys parentId resourceId)

namespace Outline

def evicted (at' : Place) (plan : Plan) : List OpenKey :=
  if at'.replaces then plan.keys at'.parentId at'.resourceId else []

/-- The outline `o'` comes of `o` by drawing below `anchor`, with the
nodes of some keys replaced. -/
structure Drawing (o : Outline) (anchor : Option Handle) (keys : List OpenKey)
    (o' : Outline) : Prop where
  arena : o'.Arena
  nextHandle_le : o.nextHandle ≤ o'.nextHandle
  past : o'.past o.nextHandle = o.evict keys
  anchored : ∀ p c, o'.IsChild p c → o.nextHandle ≤ c → anchor = some p ∨ o.nextHandle ≤ p

variable {o o' o'' : Outline} {anchor anchor' : Option Handle} {keys keys' : List OpenKey}

namespace Drawing

theorem refl (ha : o.Arena) (anchor : Option Handle) : o.Drawing anchor [] o where
  arena := ha
  nextHandle_le := Nat.le_refl _
  past := ha.past_self
  anchored := by
    intro p c hc hnext
    exact absurd (ha.isLive_lt hc.isLive) (Nat.not_lt.mpr hnext)

theorem isLive_iff (d : o.Drawing anchor keys o') {x : Handle} (hx : x < o.nextHandle) :
    o'.isLive x = true ↔ (o.evict keys).isLive x = true := by
  rw [← d.past, isLive_past]
  simp [hx]

theorem isLive_of_isLive (d : o.Drawing anchor keys o') (ha : o.Arena) {x : Handle}
    (hx : x < o.nextHandle) (hlive : o'.isLive x = true) : o.isLive x = true := by
  rw [d.isLive_iff hx, (ha.evict_eq_restrict keys).2, isLive_restrict] at hlive
  exact hlive.1

theorem below (d : o.Drawing anchor keys o') (ha : o.Arena) {a b : Handle} (hab : o.Below a b)
    (hb : o.isLive b = true) (hlive : o'.isLive b = true) : o'.Below a b := by
  have hlt := ha.isLive_lt hb
  obtain ⟨hkeep, hevict⟩ := ha.evict_eq_restrict keys
  have hkept := (hkeep.below hab ((d.isLive_iff hlt).mp hlive)).2
  rw [← hevict, ← d.past] at hkept
  exact (d.arena.below_past hlt).mp hkept

theorem below_of_below (d : o.Drawing anchor keys o') (ha : o.Arena) {a b : Handle}
    (hb : b < o.nextHandle) (hab : o'.Below a b) : o.Below a b := by
  rw [← d.arena.below_past hb, d.past, (ha.evict_eq_restrict keys).2] at hab
  exact below_of_below_restrict hab

theorem exists_mem (d : o.Drawing anchor keys o') (ha : o.Arena) {n' : Node} (hn' : n' ∈ o'.nodes)
    (hlt : n'.handle < o.nextHandle) :
    ∃ n ∈ o.nodes, n.trim o'.isLive = n'.trim fun h => decide (h < o.nextHandle) := by
  have hmem := mem_past_nodes.mpr ⟨n', hn', hlt, rfl⟩
  rw [d.past, (ha.evict_eq_restrict keys).2] at hmem
  obtain ⟨n, hn, -, htrim⟩ := mem_restrict_nodes.mp hmem
  refine ⟨n, hn, ?_⟩
  rw [← htrim]
  apply Node.trim_congr
  intro c hc
  have hchild := (ha.mem_children n hn c).mp hc
  rw [Bool.eq_iff_iff]
  exact d.isLive_iff (ha.isLive_lt hchild.isLive)

theorem exists_before (d : o.Drawing anchor keys o') (ha : o.Arena) {n' : Node}
    (hn' : n' ∈ o'.nodes) (hlt : n'.handle < o.nextHandle) :
    ∃ n ∈ o.nodes, n.handle = n'.handle ∧ n.key = n'.key ∧ n.expansion = n'.expansion := by
  obtain ⟨n, hn, htrim⟩ := d.exists_mem ha hn' hlt
  obtain ⟨hhandle, -, hkey, hexpansion⟩ := Node.eq_of_trim_eq htrim
  exact ⟨n, hn, hhandle, hkey, hexpansion⟩

theorem node?_eq (d : o.Drawing anchor keys o') (ha : o.Arena) {m : Node} (hm : m ∈ o.nodes)
    (hanchor : anchor ≠ some m.handle) (hlive : o'.isLive m.handle = true) :
    o'.node? m.handle = some (m.trim o'.isLive) := by
  obtain ⟨m', hm'⟩ := exists_node?_of_isLive hlive
  obtain ⟨hmem, hhandle⟩ := mem_of_node? hm'
  have hlt := ha.handle_lt m hm
  obtain ⟨k, hk, htrim⟩ := d.exists_mem ha hmem (hhandle ▸ hlt)
  have hold : m'.trim (fun h => decide (h < o.nextHandle)) = m' := by
    apply Node.trim_eq_self
    intro c hc
    rw [decide_eq_true_iff]
    have hchild := (d.arena.mem_children m' hmem c).mp hc
    refine Nat.lt_of_not_le fun hnext => ?_
    rcases d.anchored _ c hchild hnext with hp | hp
    · exact hanchor (hhandle ▸ hp)
    · exact absurd hlt (Nat.not_lt.mpr (hhandle ▸ hp))
  have hkm : k = m := ha.eq_of_handle hk hm ((Node.eq_of_trim_eq htrim).1.trans hhandle)
  rw [hm', ← hold, ← htrim, hkm]

theorem roots_eq (d : o.Drawing anchor keys o') (ha : o.Arena) :
    o'.roots.filter (fun r => decide (r < o.nextHandle)) = o.roots.filter o'.isLive := by
  have hroots : (o'.past o.nextHandle).roots = (o.evict keys).roots := by rw [d.past]
  rw [(ha.evict_eq_restrict keys).2] at hroots
  refine hroots.trans (List.filter_congr fun r hr => ?_)
  obtain ⟨n, hn, rfl, -⟩ := (ha.mem_roots r).mp hr
  rw [Bool.eq_iff_iff]
  exact (d.isLive_iff (ha.handle_lt n hn)).symm

theorem trans (d : o.Drawing anchor keys o') (d' : o'.Drawing anchor' keys' o'')
    (hanchor : ∀ p, anchor' = some p → anchor = some p ∨ o.nextHandle ≤ p) :
    o.Drawing anchor (keys ++ keys') o'' where
  arena := d'.arena
  nextHandle_le := Nat.le_trans d.nextHandle_le d'.nextHandle_le
  past := by
    rw [← past_past d.nextHandle_le, d'.past, d.arena.evict_past, d.past, evict_append]
  anchored := by
    intro p c hc hnext
    by_cases hold : c < o'.nextHandle
    · have hpast := isChild_past.mpr ⟨hc, hold⟩
      rw [d'.past, (d.arena.evict_eq_restrict keys').2, isChild_restrict] at hpast
      exact d.anchored p c hpast.1 hnext
    · rcases d'.anchored p c hc (Nat.not_lt.mp hold) with hp | hp
      · exact hanchor p hp
      · exact .inr (Nat.le_trans d.nextHandle_le hp)

end Drawing

/-! Drawing a plan. -/

theorem Arena.drawNode_nextHandle (ha : o.Arena) (at' : Place) (e : Entity) (uploads : Bool) :
    (o.drawNode at' e uploads).nextHandle = o.nextHandle + 1 := by
  rw [Outline.drawNode, Outline.stageUpload]
  split
  · split <;> exact ha.append_nextHandle at' e
  · exact ha.append_nextHandle at' e

theorem Arena.drawNode_past (ha : o.Arena) (at' : Place) (e : Entity) (uploads : Bool) :
    (o.drawNode at' e uploads).past o.nextHandle = o.cleared at' e := by
  have happend := ha.append_past at' e (Nat.le_refl _)
  rw [ha.past_self] at happend
  rw [Outline.drawNode]
  split
  · rw [stageUpload_past e (Nat.le_refl _), happend]
  · exact happend

theorem drawing_drawNode (ha : o.Arena) (at' : Place) (e : Entity) (uploads : Bool) :
    o.Drawing at'.parent (evicted at' (.node e uploads .done .done))
      (o.drawNode at' e uploads) where
  arena := ha.drawNode at' e uploads
  nextHandle_le := by
    rw [ha.drawNode_nextHandle at' e uploads]
    exact Nat.le_succ _
  past := by
    rw [ha.drawNode_past at' e uploads, cleared, evicted]
    split <;> rfl
  anchored := by
    intro p c hc hnext
    rcases (isChild_drawNode at' e uploads).mp hc with hc | ⟨-, hp, -⟩
    · have hlt := (ha.cleared at' e).isLive_lt hc.isLive
      rw [cleared_nextHandle] at hlt
      exact absurd hlt (Nat.not_lt.mpr hnext)
    · exact .inl hp

theorem evicted_node (at' : Place) (e : Entity) (uploads : Bool) (below rest : Plan) (h : Handle) :
    evicted at' (.node e uploads below rest) = evicted at' (.node e uploads .done .done) ++
      evicted (at'.below h e.id) below ++ evicted at' rest := by
  unfold evicted Place.below
  dsimp only
  split
  · simp [Plan.keys]
  · rfl

theorem drawing_drawPlan (ha : o.Arena) (at' : Place) (plan : Plan) :
    o.Drawing at'.parent (evicted at' plan) (o.drawPlan at' plan) := by
  induction plan generalizing o at' with
  | done =>
    have hnone : evicted at' .done = [] := by
      unfold evicted
      split <;> rfl
    rw [hnone]
    exact Drawing.refl ha _
  | node e uploads below rest ihBelow ihRest =>
    have hnode := drawing_drawNode ha at' e uploads
    have hbelow := ihBelow hnode.arena (at'.below o.nextHandle e.id)
    have hdrawn := hnode.trans hbelow fun p hp => .inr (Option.some.inj hp ▸ Nat.le_refl _)
    rw [evicted_node at' e uploads below rest o.nextHandle]
    exact hdrawn.trans (ihRest hbelow.arena at') fun p hp => .inl hp

/-! What is new. -/

def Under (h : Handle) (o o' : Outline) : Prop :=
  ∀ c, o'.isLive c = true → o.nextHandle ≤ c → o'.Below h c

theorem Under.trans {h : Handle} (hu : Under h o o') (d : o'.Drawing anchor keys o'')
    (ha : o'.Arena) (hu' : Under h o' o'') : Under h o o'' := by
  intro c hc hnext
  by_cases hold : c < o'.nextHandle
  · have hlive := d.isLive_of_isLive ha hold hc
    exact d.below ha (hu c hlive hnext) hlive hc
  · exact hu' c hc (Nat.not_lt.mp hold)

theorem Drawing.roots_of_under (d : o.Drawing anchor keys o') (ha : o.Arena) {h : Handle}
    (hh : o.isLive h = true) (hu : Under h o o') : o'.roots = o.roots.filter o'.isLive := by
  rw [← d.roots_eq ha]
  refine (List.filter_eq_self.mpr fun r hroot => ?_).symm
  obtain ⟨m, hm, rfl, hparent⟩ := (d.arena.mem_roots r).mp hroot
  rw [decide_eq_true_iff]
  refine Nat.lt_of_not_le fun hnext => ?_
  rcases (hu m.handle (isLive_of_mem hm) hnext).cases_tail with heq | ⟨q, -, k, hk, hkm, hkq⟩
  · exact absurd (ha.isLive_lt hh) (Nat.not_lt.mpr (heq ▸ hnext))
  · rw [d.arena.eq_of_handle hk hm hkm, hparent] at hkq
    cases hkq

def KeyBetween (o : Outline) (h p : Handle) (key : OpenKey) : Prop :=
  ∃ n ∈ o.nodes, n.key = key ∧ n.handle ≠ h ∧ o.Below h n.handle ∧ o.Below n.handle p

theorem Drawing.keyBetween (d : o.Drawing anchor keys o') (ha : o.Arena) {h p : Handle}
    {key : OpenKey} (hp : p < o.nextHandle) (hbetween : o'.KeyBetween h p key) :
    o.KeyBetween h p key := by
  obtain ⟨m, hm, rfl, hmh, hhm, hmp⟩ := hbetween
  have hlt := Nat.lt_of_le_of_lt (d.arena.le_of_below hmp) hp
  obtain ⟨n, hn, htrim⟩ := d.exists_mem ha hm hlt
  obtain ⟨hhandle, -, hkey, -⟩ := Node.eq_of_trim_eq htrim
  refine ⟨n, hn, hkey, hhandle ▸ hmh, ?_, ?_⟩
  · exact hhandle ▸ d.below_of_below ha hlt hhm
  · exact hhandle ▸ d.below_of_below ha hp hmp

theorem Arena.not_keyBetween_self (ha : o.Arena) {h : Handle} {key : OpenKey} :
    ¬o.KeyBetween h h key := by
  rintro ⟨m, -, -, hmh, hhm, hmh'⟩
  exact hmh (Nat.le_antisymm (ha.le_of_below hmh') (ha.le_of_below hhm))

theorem Arena.isLive_cleared_of_below (ha : o.Arena) {at' : Place} {e : Entity} {h p : Handle}
    (hbelow : o.Below h p) (hp : o.isLive p = true)
    (hkey : at'.replaces = true → ¬o.KeyBetween h p (freshNode at' e).key)
    (hh : (o.cleared at' e).isLive h = true) : (o.cleared at' e).isLive p = true := by
  rw [Outline.cleared] at hh ⊢
  split at hh
  · rename_i hreplaces
    rw [if_pos hreplaces]
    rw [Outline.displace] at hh ⊢
    split at hh
    · rename_i old hold
      obtain ⟨m, hm, rfl⟩ := Option.map_eq_some_iff.mp hold
      have hmkey := List.find?_some hm
      rw [ha.prune_eq_restrict, isLive_restrict] at hh ⊢
      rw [ha.outside_iff hh.1] at hh
      rw [ha.outside_iff hp]
      refine ⟨hp, fun hmp => ?_⟩
      rcases ha.below_total hmp hbelow with hmh | hhm
      · exact hh.2 hmh
      · refine hkey hreplaces ⟨m, List.mem_of_find?_eq_some hm, by simpa using hmkey, ?_, hhm, hmp⟩
        exact fun heq => hh.2 (heq ▸ .refl)
    · exact hp
  · rename_i hreplaces
    rw [if_neg hreplaces]
    exact hp

end Outline

/-- No entity of the plan has a key of `around`, nor that of an entity that it is drawn below. -/
def Plan.Clear (parentId resourceId : Option String) (around : List OpenKey) : Plan → Prop
  | .done => True
  | .node e _ below rest =>
    Outline.drawnKey parentId resourceId e ∉ around ∧
      below.Clear (some e.id) resourceId (Outline.drawnKey parentId resourceId e :: around) ∧
        rest.Clear parentId resourceId around

namespace Outline

variable {o : Outline} {h p : Handle} {at' : Place} {around : List OpenKey}

theorem Arena.isChild_drawNode_new (ha : o.Arena) (e : Entity) (uploads : Bool)
    (hparent : at'.parent = some p) (hbelow : o.Below h p) (hp : o.isLive p = true)
    (hkey : at'.replaces = true → ¬o.KeyBetween h p (freshNode at' e).key)
    (hh : (o.drawNode at' e uploads).isLive h = true) :
    (o.drawNode at' e uploads).IsChild p o.nextHandle := by
  have hold : (o.cleared at' e).isLive h = true := by
    have hlt := ha.isLive_lt (ha.isLive_of_below hbelow hp)
    rcases (isLive_drawNode at' e uploads).mp hh with hh | rfl
    · exact hh
    · exact absurd hlt (Nat.lt_irrefl _)
  exact (isChild_drawNode at' e uploads).mpr
    (.inr ⟨rfl, hparent, ha.isLive_cleared_of_below hbelow hp hkey hold⟩)

theorem Arena.under_drawNode (ha : o.Arena) (e : Entity) (uploads : Bool)
    (hchild : (o.drawNode at' e uploads).IsChild p o.nextHandle) (hbelow : o.Below h p)
    (hp : o.isLive p = true) : Under h o (o.drawNode at' e uploads) := by
  have d := drawing_drawNode ha at' e uploads
  intro c hc hnext
  have hlast := d.arena.isLive_lt hc
  rw [ha.drawNode_nextHandle at' e uploads] at hlast
  rw [Nat.le_antisymm (Nat.le_of_lt_succ hlast) hnext]
  exact (d.below ha hbelow hp (d.arena.isLive_of_isChild hchild)).tail hchild

theorem Arena.keyBetween_drawNode (ha : o.Arena) {e : Entity} {uploads : Bool} {key : OpenKey}
    (hchild : (o.drawNode at' e uploads).IsChild p o.nextHandle) (hp : o.isLive p = true)
    (hbetween : (o.drawNode at' e uploads).KeyBetween h o.nextHandle key) :
    key = drawnKey at'.parentId at'.resourceId e ∨ o.KeyBetween h p key := by
  have d := drawing_drawNode ha at' e uploads
  obtain ⟨m, hm, rfl, hmh, hhm, hmq⟩ := hbetween
  rcases hmq.cases_tail with hnew | ⟨p', hmp, hc⟩
  · rcases ha.mem_drawNode_nodes hm with ⟨n, hn, hhandle, -⟩ | ⟨-, hkey, -⟩
    · have hlt := (ha.cleared at' e).handle_lt n hn
      rw [cleared_nextHandle, ← hhandle, ← hnew] at hlt
      exact absurd hlt (Nat.lt_irrefl _)
    · exact .inl hkey
  · rw [d.arena.isChild_inj hc hchild] at hmp
    exact .inr (d.keyBetween ha (ha.isLive_lt hp) ⟨m, hm, rfl, hmh, hhm, hmp⟩)

/--
Drawing below a node `p` that stands below `h` puts everything below `h` and leaves `p`
where it is, as long as `h` stays.
-/
theorem Arena.under_drawPlan (ha : o.Arena) (at' : Place) (plan : Plan)
    (hparent : at'.parent = some p) (hbelow : o.Below h p) (hp : o.isLive p = true)
    (hclear : at'.replaces = true → plan.Clear at'.parentId at'.resourceId around)
    (haround : ∀ key, o.KeyBetween h p key → key ∈ around)
    (hh : (o.drawPlan at' plan).isLive h = true) :
    (o.drawPlan at' plan).isLive p = true ∧ Under h o (o.drawPlan at' plan) := by
  induction plan generalizing o at' p around with
  | done =>
    refine ⟨hp, fun c hc hnext => ?_⟩
    exact absurd (ha.isLive_lt hc) (Nat.not_lt.mpr hnext)
  | node e uploads below rest ihBelow ihRest =>
    have d₁ := drawing_drawNode ha at' e uploads
    have d₂ := drawing_drawPlan d₁.arena (at'.below o.nextHandle e.id) below
    have d₃ := drawing_drawPlan d₂.arena at' rest
    have hlt := ha.isLive_lt (ha.isLive_of_below hbelow hp)
    have hlt₁ := Nat.lt_of_lt_of_le hlt d₁.nextHandle_le
    have hh₂ := d₃.isLive_of_isLive d₂.arena (Nat.lt_of_lt_of_le hlt₁ d₂.nextHandle_le) hh
    have hh₁ := d₂.isLive_of_isLive d₁.arena hlt₁ hh₂
    -- The node of the entity itself.
    have hchild := ha.isChild_drawNode_new e uploads hparent hbelow hp
      (fun hr hbetween => (hclear hr).1 (haround _ hbetween)) hh₁
    have hunder₁ := ha.under_drawNode e uploads hchild hbelow hp
    have hq := hunder₁ _ hchild.isLive (Nat.le_refl _)
    -- What is drawn below it.
    obtain ⟨hq₂, hunder₂⟩ := ihBelow d₁.arena (at'.below o.nextHandle e.id) rfl hq hchild.isLive
      (fun hr => (hclear hr).2.1)
      (fun key hbetween => List.mem_cons.mpr <|
        (ha.keyBetween_drawNode hchild hp hbetween).imp_right (haround key)) hh₂
    have hchild₂ := d₂.below d₁.arena (.single hchild) hchild.isLive hq₂
    have hp₂ := d₂.arena.isLive_of_below hchild₂ hq₂
    have hbelow₂ := d₂.below d₁.arena (d₁.below ha hbelow hp (d₁.arena.isLive_of_isChild hchild))
      (d₁.arena.isLive_of_isChild hchild) hp₂
    -- What is drawn after it.
    have hplt := ha.isLive_lt hp
    obtain ⟨hp₃, hunder₃⟩ := ihRest d₂.arena at' hparent hbelow₂ hp₂ (fun hr => (hclear hr).2.2)
      (fun key hbetween => haround key <| d₁.keyBetween ha hplt <|
        d₂.keyBetween d₁.arena (Nat.lt_of_lt_of_le hplt d₁.nextHandle_le) hbetween) hh
    exact ⟨hp₃, (hunder₁.trans d₂ d₁.arena hunder₂).trans d₃ d₂.arena hunder₃⟩

end Outline

end ContentConsole
