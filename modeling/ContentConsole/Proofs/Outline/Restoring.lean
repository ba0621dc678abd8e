import ContentConsole.Proofs.Outline.Queue

set_option autoImplicit false
set_option relaxedAutoImplicit false

/-!
Nodes that are remembered as open and drawn again. Main statement: `restores_perform`, by which what
is drawn opens exactly where it offers expansion and its key is remembered, and the children of each
node that opened are asked for once.
-/
namespace ContentConsole

def Node.fetch? (n : Node) : Option (Handle × String × Option String) :=
  if n.expansion = .fetching then some (n.handle, n.entityId, n.resourceId) else none

def Action.Draws : Action → Prop
  | .draw .. | .drawTree .. | .receive .. => True
  | _ => False

def Entity.offers (e : Entity) : List Bool :=
  List.replicate (Plan.ofEntity e).size (e.hasMembers && e.children.isEmpty) ++
    List.replicate (Plan.ofTrees e.children).size false

namespace Outline

/-- Whether expansion is offered, for each node that an action draws, in the
order in which they are drawn. -/
def offers (o : Outline) : Action → List Bool
  | .draw e _ _ _ isExpandable => List.replicate (Plan.ofEntity e).size isExpandable
  | .drawTree e _ => List.replicate (Plan.ofTrees e.children).size false
  | .receive h children =>
    if (o.node? h).any fun n => n.expansion = .fetching then children.flatMap Entity.offers else []
  | _ => []

def restored (o : Outline) (isExpandable : Bool) (key : OpenKey) : Expansion :=
  if isExpandable then if key ∈ o.openKeys then .fetching else .collapsed else .leaf

def asks (next : Handle) (nodes : List Node) : List (Handle × String × Option String) :=
  (nodes.filter fun n => next ≤ n.handle).filterMap Node.fetch?

/--
From `o` to `o'` nodes were drawn that offer expansion as listed. They open as far as
they are remembered, and what is asked for beside what was asked for before is the
children of those that opened.
-/
structure Restores (o : Outline) (offers : List Bool) (o' : Outline) : Prop where
  openKeys : o'.openKeys = o.openKeys
  nextHandle : o'.nextHandle = o.nextHandle + offers.length
  expansion : ∀ n ∈ o'.nodes, o.nextHandle ≤ n.handle →
    ∃ offer, offers[n.handle - o.nextHandle]? = some offer ∧ n.expansion = o.restored offer n.key
  outbox : ∃ asked, o'.outbox = (o.outbox.filter fun e => e.node?.all o'.isLive) ++ asked ∧
    asked.filterMap Effect.fetch? = asks o.nextHandle o'.nodes

variable {o o' o'' : Outline} {offers offers' : List Bool} {next : Handle} {nodes : List Node}

/-! What is asked for. -/

theorem asks_map_trim (keep : Handle → Bool) :
    asks next (nodes.map (Node.trim keep)) = asks next nodes := by
  rw [asks, List.filter_map, List.filterMap_map]
  rfl

theorem asks_filter (keep : Handle → Bool) :
    asks next (nodes.filter fun n => keep n.handle) = (asks next nodes).filter fun w =>
      keep w.1 := by
  rw [asks, asks, List.filter_comm, List.filterMap_filter, List.filter_filterMap]
  refine List.filterMap_congr fun n _ => ?_
  by_cases hfetching : n.expansion = .fetching
  · cases hkeep : keep n.handle <;> simp [Node.fetch?, hfetching, Option.filter, hkeep]
  · simp [Node.fetch?, hfetching]

theorem fetch?_filter (effects : List Effect) (keep : Handle → Bool) :
    (effects.filter fun e => e.node?.all keep).filterMap Effect.fetch? =
      (effects.filterMap Effect.fetch?).filter fun w => keep w.1 := by
  rw [List.filterMap_filter, List.filter_filterMap]
  refine List.filterMap_congr fun e _ => ?_
  cases e with
  | fetchChildren node | upload node =>
    cases hkeep : keep node <;> simp [Effect.node?, Effect.fetch?, Option.filter, hkeep]
  | setProperty | reloadPreviews => rfl

theorem filter_lt_append_filter_le (hsorted : nodes.Pairwise fun m n => m.handle < n.handle)
    (next : Handle) :
    (nodes.filter fun n => n.handle < next) ++ (nodes.filter fun n => next ≤ n.handle) = nodes := by
  induction nodes with
  | nil => rfl
  | cons m rest ih =>
    obtain ⟨hrise, hrest⟩ := List.pairwise_cons.mp hsorted
    by_cases hm : m.handle < next
    · have hnot : ¬next ≤ m.handle := Nat.not_le.mpr hm
      simp only [List.filter_cons, hm, hnot, decide_true, decide_false, if_true,
        Bool.false_eq_true, if_false, List.cons_append, ih hrest]
    · have hle : next ≤ m.handle := Nat.not_lt.mp hm
      have hall : ∀ n ∈ m :: rest, next ≤ n.handle := by
        intro n hn
        rcases List.mem_cons.mp hn with rfl | hn
        · exact hle
        · exact Nat.le_trans hle (Nat.le_of_lt (hrise n hn))
      have hnone : (m :: rest).filter (fun n => n.handle < next) = [] :=
        List.filter_eq_nil_iff.mpr fun n hn => by simpa using hall n hn
      have hself : (m :: rest).filter (fun n => next ≤ n.handle) = m :: rest :=
        List.filter_eq_self.mpr fun n hn => by simpa using hall n hn
      rw [hnone, hself, List.nil_append]

theorem Drawing.asks_eq {anchor : Option Handle} {keys : List OpenKey}
    (d : o'.Drawing anchor keys o'') (ha : o'.Arena) (hnext : next ≤ o'.nextHandle) :
    asks next o''.nodes = ((asks next o'.nodes).filter fun w => o''.isLive w.1) ++
      asks o'.nextHandle o''.nodes := by
  have hold : asks next (o''.nodes.filter fun n => n.handle < o'.nextHandle) =
      (asks next o'.nodes).filter fun w => o''.isLive w.1 := by
    have hpast := congrArg (fun o => asks next o.nodes) (d.past.trans (ha.evict_eq_restrict keys).2)
    have hasks :
        asks next ((o''.nodes.filter fun n => n.handle < o'.nextHandle).map (Node.trim _)) =
        asks next ((o'.nodes.filter fun n => (o'.evict keys).isLive n.handle).map (Node.trim _)) :=
          hpast
    have hkept : (o'.nodes.filter fun n => (o'.evict keys).isLive n.handle) =
        o'.nodes.filter fun n => o''.isLive n.handle := by
      refine List.filter_congr fun n hn => ?_
      rw [Bool.eq_iff_iff]
      exact (d.isLive_iff (ha.handle_lt n hn)).symm
    rw [asks_map_trim, asks_map_trim, hkept] at hasks
    rw [hasks, asks_filter]
  have hnew : asks next (o''.nodes.filter fun n => o'.nextHandle ≤ n.handle) =
      asks o'.nextHandle o''.nodes := by
    rw [asks, asks, List.filter_filter]
    congr 1
    refine List.filter_congr fun n _ => ?_
    rw [Bool.eq_iff_iff, Bool.and_eq_true, decide_eq_true_iff, decide_eq_true_iff]
    exact and_iff_right_of_imp (Nat.le_trans hnext)
  rw [← hold, ← hnew, asks, asks, asks, ← List.filterMap_append, ← List.filter_append,
    filter_lt_append_filter_le d.arena.ascending]

namespace Restores

theorem refl (ha : o.Arena) : o.Restores [] o where
  openKeys := rfl
  nextHandle := rfl
  expansion := by
    intro n hn hnext
    exact absurd (ha.handle_lt n hn) (Nat.not_lt.mpr hnext)
  outbox := by
    have hkept : (o.outbox.filter fun e => e.node?.all o.isLive) = o.outbox := by
      refine List.filter_eq_self.mpr fun e he => ?_
      rw [Option.all_eq_true]
      exact ha.outbox_live e he
    have hnone : (o.nodes.filter fun n => o.nextHandle ≤ n.handle) = [] := by
      refine List.filter_eq_nil_iff.mpr fun n hn => ?_
      rw [decide_eq_true_iff]
      exact Nat.not_le.mpr (ha.handle_lt n hn)
    exact ⟨[], by rw [hkept, List.append_nil], by rw [asks, hnone]; rfl⟩

theorem trans {anchor : Option Handle} {keys : List OpenKey} (r : o.Restores offers o')
    (r' : o'.Restores offers' o'') (ha : o.Arena) (ha' : o'.Arena)
    (d : o'.Drawing anchor keys o'') : o.Restores (offers ++ offers') o'' where
  openKeys := r'.openKeys.trans r.openKeys
  nextHandle := by rw [r'.nextHandle, r.nextHandle, List.length_append, Nat.add_assoc]
  expansion := by
    intro n hn hnext
    by_cases hlt : n.handle < o'.nextHandle
    · obtain ⟨m, hm, htrim⟩ := d.exists_mem ha' hn hlt
      obtain ⟨hhandle, -, hkey, hexpansion⟩ := Node.eq_of_trim_eq htrim
      obtain ⟨offer, hoffer, hfirst⟩ := r.expansion m hm (hhandle ▸ hnext)
      refine ⟨offer, ?_, by rw [← hexpansion, ← hkey, hfirst]⟩
      rw [hhandle] at hoffer
      exact List.getElem?_append_left (List.getElem?_eq_some_iff.mp hoffer).1 ▸ hoffer
    · have hle : o'.nextHandle ≤ n.handle := Nat.not_lt.mp hlt
      obtain ⟨offer, hoffer, hfirst⟩ := r'.expansion n hn hle
      refine ⟨offer, ?_, by rw [hfirst, restored, restored, r.openKeys]⟩
      rw [r.nextHandle] at hle hoffer
      rw [List.getElem?_append_right (Nat.le_sub_of_add_le' hle), Nat.sub_sub]
      exact hoffer
  outbox := by
    obtain ⟨asked, houtbox, hasked⟩ := r.outbox
    obtain ⟨asked', houtbox', hasked'⟩ := r'.outbox
    have hle : o.nextHandle ≤ o'.nextHandle := by
      rw [r.nextHandle]
      exact Nat.le_add_right _ _
    have hback : ∀ e ∈ o.outbox, ∀ x, e.node? = some x → o''.isLive x = true →
        o'.isLive x = true := by
      intro e he x hx
      have hlt := ha.isLive_lt (ha.outbox_live e he x hx)
      exact d.isLive_of_isLive ha' (Nat.lt_of_lt_of_le hlt hle)
    refine ⟨(asked.filter fun e => e.node?.all o''.isLive) ++ asked', ?_, ?_⟩
    · rw [houtbox', houtbox, List.filter_append, filter_all_filter_all hback, List.append_assoc]
    · rw [List.filterMap_append, fetch?_filter, hasked, hasked', d.asks_eq ha' hle]

end Restores

/-! Drawing. -/

namespace Arena

theorem asks_last (ha : o.Arena) {n : Node} (hn : n ∈ o.nodes)
    (hlast : o.nextHandle = n.handle + 1) : asks n.handle o.nodes = n.fetch?.toList := by
  have hsingle : (o.nodes.filter fun m => n.handle ≤ m.handle) = [n] := by
    refine ha.filter_eq_singleton hn fun m hm => ?_
    rw [decide_eq_true_iff]
    constructor
    · intro hle
      have hlt := ha.handle_lt m hm
      rw [hlast] at hlt
      exact ha.eq_of_handle hm hn (Nat.le_antisymm (Nat.le_of_lt_succ hlt) hle)
    · rintro rfl
      exact Nat.le_refl _
  rw [asks, hsingle]
  cases hfetch : n.fetch? <;> simp [hfetch]

theorem restores_drawNode (ha : o.Arena) (at' : Place) (e : Entity) (uploads : Bool) :
    o.Restores [at'.isExpandable] (o.drawNode at' e uploads) := by
  have ha' := ha.drawNode at' e uploads
  have hlive : (o.drawNode at' e uploads).isLive o.nextHandle = true :=
    (isLive_drawNode at' e uploads).mpr (.inr rfl)
  obtain ⟨n, hn⟩ := exists_node?_of_isLive hlive
  obtain ⟨hmem, hhandle⟩ := mem_of_node? hn
  have hnew : ∀ m ∈ (o.drawNode at' e uploads).nodes, o.nextHandle ≤ m.handle →
      m.handle = o.nextHandle ∧ m.key = (freshNode at' e).key ∧
      m.expansion = o.firstExpansion at' e := by
    intro m hm hle
    rcases ha.mem_drawNode_nodes hm with ⟨k, hk, halike⟩ | hself
    · have hlt := (ha.cleared at' e).handle_lt k hk
      rw [cleared_nextHandle, ← halike.1] at hlt
      exact absurd hlt (Nat.not_lt.mpr hle)
    · exact hself
  constructor
  · exact ha.drawNode_openKeys at' e uploads
  · exact ha.drawNode_nextHandle at' e uploads
  · intro m hm hle
    obtain ⟨hself, hkey, hexpansion⟩ := hnew m hm hle
    refine ⟨at'.isExpandable, by rw [hself, Nat.sub_self]; rfl, ?_⟩
    rw [hexpansion, firstExpansion_eq, restored, hkey]
  · have hqueues := (ha.queues_drawNode at' e uploads).outbox
    rw [List.filter_append] at hqueues
    refine ⟨_, hqueues, ?_⟩
    obtain ⟨-, hkey, hexpansion⟩ := hnew n hmem (Nat.le_of_eq hhandle.symm)
    have hlast := ha'.asks_last hmem (by rw [ha.drawNode_nextHandle, hhandle])
    rw [hhandle] at hlast
    have hid : n.entityId = e.id := congrArg OpenKey.entityId hkey
    have hresource : n.resourceId = effectiveResource at' e := congrArg OpenKey.resourceId hkey
    rw [hlast, fetch?_filter, Plan.effectsFor, Node.fetch?, hhandle, hid, hresource, hexpansion,
      firstExpansion]
    have hopens : at'.opens o.openKeys e = o.opens at' e := rfl
    rw [hopens]
    cases o.opens at' e with
    | true => cases uploads <;> simp [Effect.fetch?, hlive]
    | false =>
      have hclosed : (freshNode at' e).expansion ≠ .fetching := by
        unfold freshNode
        split <;> simp
      cases uploads <;> simp [Effect.fetch?, hclosed]

theorem restores_drawPlan (ha : o.Arena) (at' : Place) (plan : Plan) :
    o.Restores (List.replicate plan.size at'.isExpandable) (o.drawPlan at' plan) := by
  induction plan generalizing o at' with
  | done => exact .refl ha
  | node e uploads below rest ihBelow ihRest =>
    have ha₁ := ha.drawNode at' e uploads
    have ha₂ := ha₁.drawPlan (at'.below o.nextHandle e.id) below
    have hnode := ha.restores_drawNode at' e uploads
    have hbelow :=
      hnode.trans (ihBelow ha₁ (at'.below o.nextHandle e.id)) ha ha₁ (drawing_drawPlan ha₁ _ below)
    have hrest := hbelow.trans (ihRest ha₂ at') ha ha₂ (drawing_drawPlan ha₂ at' rest)
    have hall : List.replicate (Plan.node e uploads below rest).size at'.isExpandable =
        [at'.isExpandable] ++ List.replicate below.size at'.isExpandable ++
          List.replicate rest.size at'.isExpandable := by
      rw [Plan.size, List.replicate_add, List.replicate_add, List.replicate_one]
    rw [hall]
    exact hrest

theorem restores_receiveOne (ha : o.Arena) (parent : Node) (e : Entity) :
    o.Restores e.offers (o.receiveOne parent e).2 := by
  have ha₁ := ha.drawPlan (receivedPlace parent e) (.ofEntity e)
  have hown := ha.restores_drawPlan (receivedPlace parent e) (.ofEntity e)
  have htree := ha₁.restores_drawPlan (graftPlace parent e o.nextHandle) (.ofTrees e.children)
  rw [receiveOne_eq]
  exact hown.trans htree ha ha₁ (drawing_drawPlan ha₁ _ _)

theorem restores_receiveEach (ha : o.Arena) (parent : Node) (children : List Entity) :
    o.Restores (children.flatMap Entity.offers) (o.receiveEach parent children).2 := by
  induction children generalizing o with
  | nil => exact .refl ha
  | cons e children ih =>
    have ha₁ : (o.receiveOne parent e).2.Arena := (drawing_receiveOne ha parent e).arena
    have hfirst := ha.restores_receiveOne parent e
    exact hfirst.trans (ih ha₁) ha ha₁ (drawing_receiveEach ha₁ parent children)

end Arena

theorem Restores.update (r : o.Restores offers o') {f : Node → Node} (hf : KeepsPlace f)
    {h : Handle} (hh : h < o.nextHandle) : o.Restores offers (o'.update h f) := by
  have hnew : ∀ m : Node, o.nextHandle ≤ m.handle → (if m.handle = h then f m else m) = m := by
    intro m hle
    refine if_neg ?_
    rintro rfl
    exact Nat.not_lt.mpr hle hh
  have hhandle : ∀ m : Node, (if m.handle = h then f m else m).handle = m.handle := by
    intro m
    split
    · exact (hf m).1
    · rfl
  constructor
  · exact r.openKeys
  · exact r.nextHandle
  · intro n hn hle
    obtain ⟨m, hm, rfl⟩ := mem_update_nodes.mp hn
    rw [hhandle] at hle
    rw [hnew m hle]
    exact r.expansion m hm hle
  · obtain ⟨asked, houtbox, hasked⟩ := r.outbox
    refine ⟨asked, ?_, ?_⟩
    · have hlive : (o'.update h f).isLive = o'.isLive := funext (isLive_update hf h)
      rw [hlive]
      exact houtbox
    · have hsame : asks o.nextHandle (o'.update h f).nodes = asks o.nextHandle o'.nodes := by
        rw [asks, asks, Outline.update, List.filter_map, List.filterMap_map]
        simp only [Function.comp_def, hhandle]
        refine List.filterMap_congr fun m hm => ?_
        rw [hnew m (of_decide_eq_true (List.mem_filter.mp hm).2)]
      rw [hasked, hsame]

theorem Arena.restores_receive (ha : o.Arena) (h : Handle) (children : List Entity) :
    o.Restores (o.offers (.receive h children)) (o.receive h children).2 := by
  by_cases hwaits : ∃ n, o.node? h = some n ∧ n.expansion = .fetching
  · obtain ⟨n, hn, hfetching⟩ := hwaits
    have hlt : h < o.nextHandle := ha.isLive_lt (isLive_of_node? hn)
    have hoffers : o.offers (.receive h children) = children.flatMap Entity.offers := by
      simp [Outline.offers, hn, hfetching]
    rw [hoffers, receive_eq hn hfetching]
    exact (ha.restores_receiveEach n children).update (keepsPlace_arrived _) hlt
  · have hidle : ∀ n, o.node? h = some n → n.expansion ≠ .fetching :=
      fun n hn hf => hwaits ⟨n, hn, hf⟩
    have hoffers : o.offers (.receive h children) = [] := by
      cases hn : o.node? h with
      | none => simp [Outline.offers, hn]
      | some n => simp [Outline.offers, hn, hidle n hn]
    rw [hoffers, receive_of_not_fetching hidle]
    exact .refl ha

/--
Whatever draws nodes, a failure included, keeps the keys. Of the new nodes that are left those are
open whose keys are remembered and that offer expansion; their children are asked for once each, in
the order in which they were drawn, behind what was asked for before of nodes that are left.
-/
theorem restores_perform (ho : o.Reachable) {a : Action} (hdraws : a.Draws) :
    o.Restores (o.offers a) (o.perform a) ∧
      (o.perform a).nodes.Pairwise (fun m n => m.handle < n.handle) ∧
      ∀ e ∈ o.outbox, ∀ h, e.node? = some h → h < o.nextHandle := by
  have ha := ho.arena
  refine ⟨?_, (ha.perform a).ascending,
    fun e he h hnode => ha.isLive_lt (ha.outbox_live e he h hnode)⟩
  cases a with
  | draw e parentId resourceId replaces isExpandable =>
    rw [perform, draw, drawAt_eq_drawPlan, Outline.offers]
    exact ha.restores_drawPlan ⟨_, parentId, resourceId, replaces, isExpandable⟩ (.ofEntity e)
  | drawTree e resourceId =>
    rw [perform, drawTree, graft, graftAll_eq_drawPlan, Outline.offers]
    exact ha.restores_drawPlan ⟨_, some e.id, resourceId, false, false⟩ (.ofTrees e.children)
  | receive h children => exact ha.restores_receive h children
  | _ => cases hdraws

theorem restores_perform_remembered :
    let a : Entity := ⟨"a", "", none, .content, []⟩
    let o := start (OpenKeys.insert .empty ⟨"a", none, none⟩)
    let o' := o.perform (.draw a none none false true)
    o.Reachable ∧ (Action.draw a none none false true).Draws ∧
      o'.nodes.map Node.expansion = [.fetching] ∧
      o'.outbox.filterMap Effect.fetch? = [(0, "a", none)] := by
  intro a o o'
  have ho : o.Reachable := ⟨_, [], rfl⟩
  have hdraws : (Action.draw a none none false true).Draws := trivial
  obtain ⟨asked, houtbox, hasked⟩ := (restores_perform ho hdraws).1.outbox
  refine ⟨ho, hdraws, ?_, ?_⟩
  · rfl
  · rw [houtbox, List.filterMap_append, hasked]
    rfl

end Outline

end ContentConsole
