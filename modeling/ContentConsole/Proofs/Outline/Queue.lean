import ContentConsole.Proofs.Outline.Layout

set_option autoImplicit false
set_option relaxedAutoImplicit false

/-!
What is put into the outbox while nodes come and go. Main statements: `queues_drawPlan` and
`queues_receive`, by which drawing a plan and taking in children queue the effects of the plans
drawn, and the outbox loses exactly the effects whose node is gone by the end.
-/
namespace ContentConsole

namespace Outline

variable {o o' o'' : Outline} {effects effects' : List Effect}

/-- From `o` to `o'` the effects were queued, and what is left of all
is what is for no gone node. -/
structure Queues (o : Outline) (effects : List Effect) (o' : Outline) : Prop where
  arena : o'.Arena
  nextHandle_le : o.nextHandle ≤ o'.nextHandle
  /-- No node comes back. -/
  isLive_old : ∀ x < o.nextHandle, o'.isLive x = true → o.isLive x = true
  named : ∀ e ∈ effects, ∀ x, e.node? = some x → x < o'.nextHandle
  outbox : o'.outbox = (o.outbox ++ effects).filter fun e => e.node?.all o'.isLive

theorem filter_all_filter_all {keep keep' : Handle → Bool}
    (hback : ∀ e ∈ effects, ∀ x, e.node? = some x → keep' x = true → keep x = true) :
    ((effects.filter fun e => e.node?.all keep).filter fun e => e.node?.all keep') =
      effects.filter fun e => e.node?.all keep' := by
  rw [List.filter_filter]
  refine List.filter_congr fun e he => ?_
  cases hnode : e.node? with
  | none => rfl
  | some x =>
    simp only [Option.all_some]
    rw [Bool.eq_iff_iff, Bool.and_eq_true]
    exact and_iff_left_of_imp (hback e he x hnode)

namespace Queues

theorem of_push (ha' : o'.Arena) (hnext : o.nextHandle ≤ o'.nextHandle)
    (hold : ∀ x < o.nextHandle, o'.isLive x = true → o.isLive x = true)
    (houtbox : o'.outbox = o.outbox ++ effects) : o.Queues effects o' where
  arena := ha'
  nextHandle_le := hnext
  isLive_old := hold
  named := by
    intro e he x hx
    have hmem : e ∈ o'.outbox := by
      rw [houtbox]
      exact List.mem_append_right _ he
    exact ha'.isLive_lt (ha'.outbox_live e hmem x hx)
  outbox := by
    rw [← houtbox, eq_comm, List.filter_eq_self]
    intro e he
    cases hnode : e.node? with
    | none => rfl
    | some x => exact ha'.outbox_live e he x hnode

theorem refl (ha : o.Arena) : o.Queues [] o :=
  of_push ha (Nat.le_refl _) (fun _ _ => id) (List.append_nil _).symm

theorem trans (q : o.Queues effects o') (q' : o'.Queues effects' o'') (ha : o.Arena) :
    o.Queues (effects ++ effects') o'' where
  arena := q'.arena
  nextHandle_le := Nat.le_trans q.nextHandle_le q'.nextHandle_le
  isLive_old := by
    intro x hx hlive
    exact q.isLive_old x hx (q'.isLive_old x (Nat.lt_of_lt_of_le hx q.nextHandle_le) hlive)
  named := by
    intro e he x hx
    rcases List.mem_append.mp he with he | he
    · exact Nat.lt_of_lt_of_le (q.named e he x hx) q'.nextHandle_le
    · exact q'.named e he x hx
  outbox := by
    have hnamed : ∀ e ∈ o.outbox ++ effects, ∀ x, e.node? = some x → x < o'.nextHandle := by
      intro e he x hx
      rcases List.mem_append.mp he with he | he
      · exact Nat.lt_of_lt_of_le (ha.isLive_lt (ha.outbox_live e he x hx)) q.nextHandle_le
      · exact q.named e he x hx
    have hgone : (o'.outbox).filter (fun e => e.node?.all o''.isLive) =
        (o.outbox ++ effects).filter fun e => e.node?.all o''.isLive := by
      rw [q.outbox, filter_all_filter_all fun e he x hx => q'.isLive_old x (hnamed e he x hx)]
    rw [q'.outbox, List.filter_append, hgone, ← List.filter_append, List.append_assoc]

end Queues

namespace Arena

theorem queues_restrict (ha : o.Arena) {keep : Handle → Bool} (hkeep : o.KeepsParents keep) :
    o.Queues [] (o.restrict keep) where
  arena := ha.restrict hkeep
  nextHandle_le := Nat.le_refl _
  isLive_old := fun _ _ hlive => (isLive_restrict.mp hlive).1
  named := nofun
  outbox := by
    have hrestrict := congrArg Outline.outbox (ha.restrict_isLive keep)
    rw [List.append_nil]
    exact hrestrict.symm

theorem queues_prune (ha : o.Arena) (h : Handle) : o.Queues [] (o.prune h) := by
  rw [ha.prune_eq_restrict]
  exact ha.queues_restrict (ha.keepsParents_outside h)

theorem queues_update (ha : o.Arena) {f : Node → Node} (hf : KeepsPlace f) (h : Handle) :
    o.Queues [] (o.update h f) := by
  refine .of_push (ha.update hf h) (Nat.le_refl _) (fun x _ hlive => ?_) (List.append_nil _).symm
  rwa [isLive_update hf] at hlive

theorem queues_cleared (ha : o.Arena) (at' : Place) (e : Entity) :
    o.Queues [] (o.cleared at' e) := by
  obtain ⟨hkeep, hevict⟩ := ha.evict_eq_restrict [(freshNode at' e).key]
  rw [Outline.cleared]
  split
  · change o.Queues [] (o.evict [(freshNode at' e).key])
    rw [hevict]
    exact ha.queues_restrict hkeep
  · exact .refl ha

/-! Drawing. -/

theorem drawNode_outbox (ha : o.Arena) (at' : Place) (e : Entity) (uploads : Bool) :
    (o.drawNode at' e uploads).outbox = (o.cleared at' e).outbox ++
      Plan.effectsFor at' o.openKeys o.nextHandle e uploads := by
  have hplaced : (o.placed at' e).outbox = (o.cleared at' e).outbox := by rw [placed, insert_eq]
  have hopens : at'.opens o.openKeys e = o.opens at' e := rfl
  have happend : (o.append at' e).2.outbox = (o.cleared at' e).outbox ++
      if o.opens at' e then [.fetchChildren o.nextHandle e.id (effectiveResource at' e)]
      else [] := by
    rw [ha.append_snd, ← hplaced]
    split
    · rfl
    · rw [List.append_nil]
  rw [Plan.effectsFor, hopens, ← List.append_assoc, ← happend]
  cases uploads with
  | false => exact (List.append_nil _).symm
  | true =>
    have hlive : (o.append at' e).2.isLive o.nextHandle = true :=
      (isLive_append at' e).mpr (.inr rfl)
    rw [drawNode_true, Outline.stageUpload, if_pos hlive]
    rfl

theorem queues_drawNode (ha : o.Arena) (at' : Place) (e : Entity) (uploads : Bool) :
    o.Queues (Plan.effectsFor at' o.openKeys o.nextHandle e uploads)
      (o.drawNode at' e uploads) := by
  have hdrawn : (o.cleared at' e).Queues (Plan.effectsFor at' o.openKeys o.nextHandle e uploads)
      (o.drawNode at' e uploads) := by
    refine .of_push (ha.drawNode at' e uploads) ?_ (fun x hx hlive => ?_)
      (ha.drawNode_outbox at' e uploads)
    · rw [ha.drawNode_nextHandle, cleared_nextHandle]
      exact Nat.le_succ _
    · rw [cleared_nextHandle] at hx
      rcases (isLive_drawNode at' e uploads).mp hlive with hold | hnew
      · exact hold
      · exact absurd hx (Nat.not_lt.mpr (Nat.le_of_eq hnew.symm))
  exact (ha.queues_cleared at' e).trans hdrawn ha

theorem drawPlan_nextHandle (ha : o.Arena) (at' : Place) (plan : Plan) :
    (o.drawPlan at' plan).nextHandle = o.nextHandle + plan.size := by
  induction plan generalizing o at' with
  | done => rfl
  | node e uploads below rest ihBelow ihRest =>
    have ha₁ := ha.drawNode at' e uploads
    have ha₂ := ha₁.drawPlan (at'.below o.nextHandle e.id) below
    rw [Outline.drawPlan, ihRest ha₂, ihBelow ha₁, ha.drawNode_nextHandle, Plan.size]
    simp only [Nat.add_assoc]

/-- Drawing a plan queues what its nodes ask for, whatever it replaces on the way. -/
theorem queues_drawPlan (ha : o.Arena) (at' : Place) (plan : Plan) :
    o.Queues (plan.effects at' o.openKeys o.nextHandle) (o.drawPlan at' plan) := by
  induction plan generalizing o at' with
  | done => exact .refl ha
  | node e uploads below rest ihBelow ihRest =>
    have ha₁ := ha.drawNode at' e uploads
    have ha₂ := ha₁.drawPlan (at'.below o.nextHandle e.id) below
    have hnode := ha.queues_drawNode at' e uploads
    have hbelow := ihBelow ha₁ (at'.below o.nextHandle e.id)
    have hrest := ihRest ha₂ at'
    rw [ha₁.drawPlan_openKeys, ha₁.drawPlan_nextHandle, ha.drawNode_openKeys,
      ha.drawNode_nextHandle] at hrest
    rw [ha.drawNode_openKeys, ha.drawNode_nextHandle] at hbelow
    exact (hnode.trans hbelow ha).trans hrest ha

end Arena

end Outline

namespace Plan

theorem effects_eq_nil {at' : Place} (hexpandable : at'.isExpandable = false) {plan : Plan}
    (huploaded : plan.uploaded = []) (keys : OpenKeys) (next : Handle) :
    plan.effects at' keys next = [] := by
  induction plan generalizing at' next with
  | done => rfl
  | node e uploads below rest ihBelow ihRest =>
    rw [uploaded, List.append_eq_nil_iff, List.append_eq_nil_iff] at huploaded
    obtain ⟨⟨huploads, hbelow⟩, hrest⟩ := huploaded
    have hself : effectsFor at' keys next e uploads = [] := by
      cases uploads with
      | false => simp [effectsFor, Place.opens, hexpandable]
      | true => cases huploads
    have hoffers : (at'.below next e.id).isExpandable = false := hexpandable
    have hinner := ihBelow hoffers hbelow (next + 1)
    rw [effects, hself, hinner, ihRest hexpandable hrest]
    rfl

mutual

private theorem uploaded_ofTree : ∀ e : Entity, (ofTree e).uploaded = []
  | ⟨id, name, resourceId, kind, children⟩ => by
    cases kind
      <;> simp [ofTree, uploaded, uploaded_append, uploaded_flat, uploaded_ofTrees children]

theorem uploaded_ofTrees : ∀ es : List Entity, (ofTrees es).uploaded = []
  | [] => by rw [ofTrees, uploaded]
  | e :: es => by
    rw [ofTrees, uploaded_append, uploaded_ofTree e, uploaded_ofTrees es, List.append_nil]

end

end Plan

namespace Outline

variable {o : Outline}

def askedFor (parent : Node) (keys : OpenKeys) : Handle → List Entity → List Effect
  | _, [] => []
  | next, e :: es =>
    (Plan.ofEntity e).effects (receivedPlace parent e) keys next ++
      askedFor parent keys (next + (Plan.ofEntity e).size + (Plan.ofTrees e.children).size) es

def askedOn (o : Outline) (h : Handle) (children : List Entity) : List Effect :=
  match o.node? h with
  | none => []
  | some n => if n.expansion = .fetching then askedFor n o.openKeys o.nextHandle children else []

namespace Arena

theorem receiveOne_openKeys (ha : o.Arena) (parent : Node) (e : Entity) :
    (o.receiveOne parent e).2.openKeys = o.openKeys := by
  rw [receiveOne_eq, (ha.drawPlan _ _).drawPlan_openKeys, ha.drawPlan_openKeys]

theorem receiveOne_nextHandle (ha : o.Arena) (parent : Node) (e : Entity) :
    (o.receiveOne parent e).2.nextHandle =
    o.nextHandle + (Plan.ofEntity e).size + (Plan.ofTrees e.children).size := by
  rw [receiveOne_eq, (ha.drawPlan _ _).drawPlan_nextHandle, ha.drawPlan_nextHandle]

theorem queues_receiveOne (ha : o.Arena) (parent : Node) (e : Entity) :
    o.Queues ((Plan.ofEntity e).effects (receivedPlace parent e) o.openKeys o.nextHandle)
      (o.receiveOne parent e).2 := by
  have hown := ha.queues_drawPlan (receivedPlace parent e) (.ofEntity e)
  have htree := hown.arena.queues_drawPlan (graftPlace parent e o.nextHandle) (.ofTrees e.children)
  rw [Plan.effects_eq_nil rfl (Plan.uploaded_ofTrees e.children)] at htree
  have hboth := hown.trans htree ha
  rw [receiveOne_eq]
  rwa [List.append_nil] at hboth

theorem queues_receiveEach (ha : o.Arena) (parent : Node) (children : List Entity) :
    o.Queues (askedFor parent o.openKeys o.nextHandle children)
      (o.receiveEach parent children).2 := by
  induction children generalizing o with
  | nil => exact .refl ha
  | cons e children ih =>
    have hfirst := ha.queues_receiveOne parent e
    have hrest := ih hfirst.arena
    rw [ha.receiveOne_openKeys, ha.receiveOne_nextHandle] at hrest
    exact hfirst.trans hrest ha

/-- Taking in children queues what their plans ask for. -/
theorem queues_receive (ha : o.Arena) (h : Handle) (children : List Entity) :
    o.Queues (o.askedOn h children) (o.receive h children).2 := by
  rw [askedOn]
  cases hn : o.node? h with
  | none =>
    rw [receive_of_not_fetching fun n hsome => absurd (hn.symm.trans hsome) nofun]
    exact .refl ha
  | some n =>
    dsimp only
    split
    · rename_i hfetching
      have hdrawn := ha.queues_receiveEach n children
      have harrived := hdrawn.arena.queues_update (keepsPlace_arrived children.isEmpty) h
      have hboth := hdrawn.trans harrived ha
      rw [receive_eq hn hfetching]
      rwa [List.append_nil] at hboth
    · rename_i hfetching
      rw [receive_of_not_fetching fun m hm => Option.some.inj (hn.symm.trans hm) ▸ hfetching]
      exact .refl ha

theorem queues_abandonFetch (ha : o.Arena) {h : Handle} {o' : Outline}
    (hf : o.abandonFetch h = .ok o') : o.Queues [] o' := by
  have ha' := ha.abandonFetch hf
  rw [Outline.abandonFetch] at hf
  split at hf
  · cases hf
  · split at hf
    · cases hf
      exact .refl ha
    · cases hf
      refine .of_push ha' (Nat.le_refl _) (fun x _ hlive => ?_) (List.append_nil _).symm
      rwa [← isLive_update (f := fun n => { n with expansion := .collapsed })
        (fun _ => ⟨rfl, rfl, rfl⟩) h x]

theorem queues_settleUpload (ha : o.Arena) (h : Handle) (outcome : Except Fault Unit) :
    o.Queues [] (o.settleUpload h outcome).2 := by
  cases outcome with
  | error e => exact ha.queues_prune h
  | ok confirmed =>
    rw [Outline.settleUpload]
    split
    · exact .refl ha
    · refine ha.queues_update ?_ h
      exact fun _ => ⟨rfl, rfl, rfl⟩

end Arena

end Outline

end ContentConsole
