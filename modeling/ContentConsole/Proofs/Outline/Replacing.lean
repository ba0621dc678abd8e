import ContentConsole.Proofs.Outline.Members

set_option autoImplicit false
set_option relaxedAutoImplicit false

/-!
Drawing an entity in the place of the node drawn for it before. Main statement: `draw_replacing`, by
which the node that is handed out is there and the only one with its key, as far as what is nested
in the entity does not reach for it and no node drawn before it is left with its key.
-/
namespace ContentConsole

namespace Outline

/-- The keys of the nodes that an entity draws below its own. -/
def nestedKeys (resourceId : Option String) (e : Entity) : List OpenKey :=
  (Plan.ofEntity e).inner.keys (some e.id) resourceId

def replacingPlace (o : Outline) (parentId resourceId : Option String)
    (isExpandable : Bool) : Place :=
  ⟨parentId.bind fun id => o.parentFor id resourceId, parentId, resourceId, true, isExpandable⟩

variable {o : Outline} {at' : Place}

private theorem inner_of_uploads {e : Entity} {below : Plan}
    (hplan : Plan.ofEntity e = .node e true below .done) : below = .done := by
  obtain ⟨id, name, resourceId, kind, children⟩ := e
  cases kind <;> simp [Plan.ofEntity] at hplan <;> exact hplan.symm

theorem keys_ofEntity (parentId resourceId : Option String) (e : Entity) :
    (Plan.ofEntity e).keys parentId resourceId = drawnKey parentId resourceId e ::
      nestedKeys resourceId e := by
  obtain ⟨uploads, hplan⟩ := Plan.ofEntity_eq_node e
  rw [hplan, Plan.keys, Plan.keys, List.append_nil, nestedKeys]

namespace Arena

theorem key_mem_of_mem_drawPlan (ha : o.Arena) (at' : Place) (plan : Plan) {m : Node}
    (hm : m ∈ (o.drawPlan at' plan).nodes) (hnew : o.nextHandle ≤ m.handle) :
    m.key ∈ plan.keys at'.parentId at'.resourceId := by
  induction plan generalizing o at' m with
  | done => exact absurd (ha.handle_lt m hm) (Nat.not_lt.mpr hnew)
  | node e uploads below rest ihBelow ihRest =>
    have d₁ := drawing_drawNode ha at' e uploads
    have d₂ := drawing_drawPlan d₁.arena (at'.below o.nextHandle e.id) below
    have d₃ := drawing_drawPlan d₂.arena at' rest
    rw [Plan.keys, List.mem_cons, List.mem_append]
    rcases Nat.lt_or_ge m.handle
      ((o.drawNode at' e uploads).drawPlan (at'.below o.nextHandle e.id) below).nextHandle
      with hlt | hge
    · obtain ⟨m₂, hm₂, hhandle₂, hkey₂, -⟩ := d₃.exists_before d₂.arena hm hlt
      rw [← hhandle₂] at hnew
      rw [← hkey₂]
      rcases Nat.lt_or_ge m₂.handle (o.drawNode at' e uploads).nextHandle with hlt | hge
      · obtain ⟨m₁, hm₁, hhandle₁, hkey₁, -⟩ := d₂.exists_before d₁.arena hm₂ hlt
        rw [← hhandle₁] at hnew
        rcases ha.mem_drawNode_nodes hm₁ with ⟨n, hn, hhandle, -⟩ | ⟨-, hkey, -⟩
        · have hold := (ha.cleared at' e).handle_lt n hn
          rw [cleared_nextHandle, ← hhandle] at hold
          exact absurd hold (Nat.not_lt.mpr hnew)
        · exact .inl (hkey₁.symm.trans hkey)
      · exact .inr (.inl (ihBelow d₁.arena _ hm₂ hge))
    · exact .inr (.inr (ihRest d₂.arena at' hm hge))

theorem key_mem_nestedKeys (ha : o.Arena) (e : Entity) {m : Node}
    (hm : m ∈ (o.drawPlan at' (.ofEntity e)).nodes) (hnew : o.nextHandle < m.handle) :
    m.key ∈ nestedKeys at'.resourceId e := by
  obtain ⟨uploads, hplan⟩ := Plan.ofEntity_eq_node e
  rw [hplan, Outline.drawPlan, Outline.drawPlan] at hm
  refine (ha.drawNode at' e uploads).key_mem_of_mem_drawPlan (at'.below o.nextHandle e.id) _ hm ?_
  rw [ha.drawNode_nextHandle]
  exact hnew

theorem exists_node?_drawPlan (ha : o.Arena) (hreplaces : at'.replaces = true) (e : Entity)
    (hstays : ((o.append at' e).2.evict (nestedKeys at'.resourceId e)).isLive o.nextHandle = true) :
    ∃ n, (o.drawPlan at' (.ofEntity e)).node? o.nextHandle = some n ∧
      n.key = drawnKey at'.parentId at'.resourceId e := by
  obtain ⟨uploads, hplan⟩ := Plan.ofEntity_eq_node e
  rw [nestedKeys] at hstays
  generalize (Plan.ofEntity e).inner = below at hplan hstays
  rw [hplan, Outline.drawPlan, Outline.drawPlan]
  have d₁ := drawing_drawNode ha at' e uploads
  have d₂ := drawing_drawPlan d₁.arena (at'.below o.nextHandle e.id) below
  have hlt : o.nextHandle < (o.drawNode at' e uploads).nextHandle := by
    rw [ha.drawNode_nextHandle]
    exact Nat.lt_succ_self _
  have hlive :
      ((o.drawNode at' e uploads).drawPlan (at'.below o.nextHandle e.id) below).isLive
        o.nextHandle = true := by
    cases uploads with
    | true =>
      rw [inner_of_uploads hplan, Outline.drawPlan]
      exact (isLive_drawNode at' e true).mpr (.inr rfl)
    | false =>
      have hkeys : evicted (at'.below o.nextHandle e.id) below =
          below.keys (some e.id) at'.resourceId :=
        if_pos hreplaces
      rw [d₂.isLive_iff hlt, hkeys]
      exact hstays
  obtain ⟨n, hn⟩ := exists_node?_of_isLive hlive
  obtain ⟨hmem, hhandle⟩ := mem_of_node? hn
  obtain ⟨m, hm, hsame, hkey, -⟩ := d₂.exists_before d₁.arena hmem (hhandle ▸ hlt)
  refine ⟨n, hn, hkey.symm.trans ?_⟩
  rcases ha.mem_drawNode_nodes hm with ⟨k, hk, hold, -⟩ | ⟨-, hnew, -⟩
  · have hklt := (ha.cleared at' e).handle_lt k hk
    rw [cleared_nextHandle, ← hold, hsame, hhandle] at hklt
    exact absurd hklt (Nat.lt_irrefl _)
  · exact hnew

theorem unique_drawPlan_iff (ha : o.Arena) (hreplaces : at'.replaces = true) (e : Entity)
    (hown : drawnKey at'.parentId at'.resourceId e ∉ nestedKeys at'.resourceId e) :
    (∀ m ∈ (o.drawPlan at' (.ofEntity e)).nodes,
        m.key = drawnKey at'.parentId at'.resourceId e → m.handle = o.nextHandle) ↔
      ∀ m ∈ o.nodes, m.key = drawnKey at'.parentId at'.resourceId e →
        (o.evict ((Plan.ofEntity e).keys at'.parentId at'.resourceId)).isLive m.handle = false := by
  have d := drawing_drawPlan ha at' (.ofEntity e)
  rw [evicted, if_pos hreplaces] at d
  constructor
  · intro honly m hm hkey
    have hlt := ha.handle_lt m hm
    refine Bool.eq_false_iff.mpr fun hstays => ?_
    obtain ⟨m', hm', hhandle⟩ := isLive_iff.mp ((d.isLive_iff hlt).mpr hstays)
    obtain ⟨k, hk, hsame, hkey', -⟩ := d.exists_before ha hm' (hhandle ▸ hlt)
    have hkm := ha.eq_of_handle hk hm (hsame.trans hhandle)
    have hnext := honly m' hm' (hkey'.symm.trans (hkm ▸ hkey))
    exact Nat.ne_of_lt hlt (hhandle.symm.trans hnext)
  · intro hgone m hm hkey
    by_contra hne
    rcases Nat.lt_or_ge m.handle o.nextHandle with hlt | hge
    · obtain ⟨k, hk, hsame, hkey', -⟩ := d.exists_before ha hm hlt
      have hstays := (d.isLive_iff hlt).mp (isLive_of_mem hm)
      rw [← hsame, hgone k hk (hkey'.trans hkey)] at hstays
      cases hstays
    · exact hown (hkey ▸ ha.key_mem_nestedKeys e hm (Nat.lt_of_le_of_ne hge (Ne.symm hne)))

theorem isLive_evict_cons (ha : o.Arena) {m : Node} {keys : List OpenKey} (hm : m ∈ o.nodes)
    (honly : ∀ n ∈ o.nodes, n.key = m.key → n = m) :
    (o.evict (m.key :: keys)).isLive m.handle = false := by
  have hfind : o.find? m.key = some m.handle := by
    cases hfound : o.nodes.find? fun n => n.key == m.key with
    | none => simpa using List.find?_eq_none.mp hfound m hm
    | some n =>
      have hkey := List.find?_some hfound
      have hnm := honly n (List.mem_of_find?_eq_some hfound) (by simpa using hkey)
      rw [Outline.find?, hfound, hnm]
      rfl
  have hdisplace : o.displace m.key = o.prune m.handle := by rw [Outline.displace, hfind]
  refine Bool.eq_false_iff.mpr fun hstays => ?_
  rw [evict_cons, ((ha.displace m.key).evict_eq_restrict keys).2, isLive_restrict, hdisplace,
    ha.prune_eq_restrict, isLive_restrict, ha.outside_iff (isLive_of_mem hm)] at hstays
  exact hstays.1.2 .refl

end Arena

/--
Drawing with replacement hands out a new node with the key of the entity. The node is there if the
replacements for what is nested in the entity leave it, which they do if no nested key is its own or
that of a node above it. If no nested key is its own, it is the only node with its key exactly if of
the nodes that had the key before none is left, and so whenever at most one had it.
-/
theorem draw_replacing (ho : o.Reachable) (e : Entity) (parentId resourceId : Option String)
    (isExpandable : Bool) :
    let key := drawnKey parentId resourceId e
    let nested := nestedKeys resourceId e
    let appended := (o.append (o.replacingPlace parentId resourceId isExpandable) e).2
    let answer := o.draw e parentId resourceId true isExpandable
    let h := answer.1.handle
    o.isLive h = false ∧
      ((∀ k ∈ nested, ¬appended.KeyAbove h k) → (appended.evict nested).isLive h = true) ∧
      ((appended.evict nested).isLive h = true → ∃ n, answer.2.node? h = some n ∧ n.key = key) ∧
      (key ∉ nested →
        ((∀ m ∈ answer.2.nodes, m.key = key → m.handle = h) ↔
          ∀ m ∈ o.nodes, m.key = key → (o.evict (key :: nested)).isLive m.handle = false) ∧
        ((∀ m ∈ o.nodes, ∀ n ∈ o.nodes, m.key = key → n.key = key → n = m) →
          ∀ m ∈ answer.2.nodes, m.key = key → m.handle = h)) := by
  have ha := ho.arena
  intro key nested appended answer h
  have hh : h = o.nextHandle := drawAt_handle _ e
  have hdrawn : answer.2 = o.drawPlan (o.replacingPlace parentId resourceId isExpandable)
      (.ofEntity e) :=
    drawAt_eq_drawPlan ..
  have hlive : appended.isLive h = true := (isLive_append _ e).mpr (.inr hh)
  have hreplaces : (o.replacingPlace parentId resourceId isExpandable).replaces = true := rfl
  rw [hh, hdrawn]
  refine ⟨?_, fun hclear => ?_, fun hstays => ?_, fun hown => ?_⟩
  · exact Bool.eq_false_iff.mpr fun hold => Nat.lt_irrefl _ (ha.isLive_lt hold)
  · exact (ha.append _ e).isLive_evict (hh ▸ hlive) hclear
  · exact ha.exists_node?_drawPlan hreplaces e hstays
  · have hiff := ha.unique_drawPlan_iff hreplaces e hown
    have hkeys : (Plan.ofEntity e).keys parentId resourceId = key :: nested := keys_ofEntity ..
    change _ ↔ ∀ m ∈ o.nodes, m.key = key →
      (o.evict ((Plan.ofEntity e).keys parentId resourceId)).isLive m.handle = false at hiff
    rw [hkeys] at hiff
    refine ⟨hiff, fun hone => hiff.mpr fun m hm hkey => ?_⟩
    rw [← hkey]
    exact ha.isLive_evict_cons hm fun n hn hnm => hone m hm n hn hkey (hnm.trans hkey)

def shownGroup : Outline :=
  (start .empty).run
    [.draw ⟨"g", "", none, .group [⟨"u", "", none, .user, []⟩], []⟩ none none true false]

theorem draw_replacing_group :
    let g : Entity := ⟨"g", "", none, .group [⟨"u", "", none, .user, []⟩], []⟩
    let answer := shownGroup.draw g none none true false
    shownGroup.Reachable ∧ shownGroup.find? ⟨"g", none, none⟩ = some 0 ∧
      (∃ n, answer.2.node? answer.1.handle = some n ∧ n.key = ⟨"g", none, none⟩) ∧
      ∀ m ∈ answer.2.nodes, m.key = ⟨"g", none, none⟩ → m.handle = answer.1.handle := by
  intro g answer
  have ho : shownGroup.Reachable := ⟨_, _, rfl⟩
  have hnested : nestedKeys none g = [⟨"u", some "g", none⟩] := by rfl
  obtain ⟨-, hclear, hthere, hunique⟩ := draw_replacing ho g none none false
  refine ⟨ho, by rfl, hthere (hclear ?_), (hunique (hnested ▸ by decide)).2 ?_⟩
  · rw [hnested]
    rintro k hk ⟨n, hn, hkey, -⟩
    have hother : ∀ n ∈ (shownGroup.append (shownGroup.replacingPlace none none false) g).2.nodes,
        n.key ≠ ⟨"u", some "g", none⟩ := by decide
    exact hother n hn (hkey.trans (List.mem_singleton.mp hk))
  · decide

/--
Of two nodes with the key of the entity the second stays. An element whose nested element
has the key of the node that it is drawn below goes with that node, so that the handle
handed out is that of no node.
-/
theorem draw_replacing_fails :
    (let x : Entity := ⟨"x", "", none, .content, []⟩
      let o := (start .empty).run [.draw x none none false false, .draw x none none false false]
      let answer := o.draw x none none true false
      o.Reachable ∧ answer.1.handle = 2 ∧ drawnKey none none x = ⟨"x", none, none⟩ ∧
        (answer.2.nodes.filter fun n => n.key == ⟨"x", none, none⟩).map Node.handle = [1, 2]) ∧
      let x : Entity := ⟨"x", "", none, .element "Element" [], []⟩
      let e : Entity := ⟨"e", "", none, .element "Element" [x], []⟩
      let o := (start .empty).run [.draw x (some "e") (some "r") true false]
      let answer := o.draw e (some "x") (some "r") true false
      o.Reachable ∧ answer.1.handle = 1 ∧ answer.2.isLive 1 = false :=
  ⟨⟨⟨_, _, rfl⟩, by rfl, by rfl, by rfl⟩, ⟨_, _, rfl⟩, by rfl, by rfl⟩

end Outline

end ContentConsole
