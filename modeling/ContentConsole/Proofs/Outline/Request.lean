import ContentConsole.Proofs.Outline.Renaming
import ContentConsole.Proofs.Outline.Restoring

set_option autoImplicit false
set_option relaxedAutoImplicit false

/-!
Requests for children. Main statement: `Arena.opens_perform`, by which each node that
starts to wait for its children asks for them once, no other node asks, and an older node
starts to wait only when it is toggled.
-/
namespace ContentConsole

def Effect.asksFor (h : Handle) (e : Effect) : Bool := e.fetch?.any fun w => w.1 == h

namespace Outline

def waits (o : Outline) (h : Handle) : Bool := (o.node? h).any fun n => n.expansion = .fetching

def requests (o : Outline) (h : Handle) : Nat := o.outbox.countP (Effect.asksFor h)

def starts (o : Outline) (h : Handle) (o' : Outline) : Bool := !o.waits h && o'.waits h

variable {o o' o'' : Outline} {h : Handle}

theorem waits_iff : o.waits h = true ↔ ∃ n, o.node? h = some n ∧ n.expansion = .fetching := by
  rw [waits, Option.any_eq_true]
  simp

theorem isLive_of_waits (hwaits : o.waits h = true) : o.isLive h = true := by
  obtain ⟨n, hn, -⟩ := waits_iff.mp hwaits
  exact isLive_of_node? hn

theorem Arena.waits_iff_mem (ha : o.Arena) :
    o.waits h = true ↔ ∃ n ∈ o.nodes, n.handle = h ∧ n.expansion = .fetching := by
  simp only [waits_iff, ha.node?_eq_some_iff, and_assoc]

theorem node?_of_asksFor {e : Effect} (he : e.asksFor h = true) : e.node? = some h := by
  cases e with
  | fetchChildren node => simpa [Effect.asksFor, Effect.fetch?, Effect.node?] using he
  | upload | setProperty | reloadPreviews => cases he

theorem Arena.requests_of_not_isLive (ha : o.Arena)
    (hh : o.isLive h = false) : o.requests h = 0 := by
  refine List.countP_eq_zero.mpr fun e he hasks => ?_
  rw [ha.outbox_live e he h (node?_of_asksFor hasks)] at hh
  cases hh

theorem requests_filter (effects : List Effect) {keep : Handle → Bool} (hh : keep h = true) :
    (effects.filter fun e => e.node?.all keep).countP (Effect.asksFor h) =
      effects.countP (Effect.asksFor h) := by
  rw [List.countP_filter]
  refine List.countP_congr fun e _ => ?_
  rw [Bool.and_eq_true]
  refine and_iff_left_of_imp fun hasks => ?_
  rw [node?_of_asksFor hasks]
  exact hh

/-- From `o` to `o'` no node starts to wait, and the nodes that stay ask for as much as before. -/
structure Steady (o o' : Outline) : Prop where
  isLive : ∀ h, o'.isLive h = true → o.isLive h = true
  waits : ∀ h, o'.waits h = true → o.waits h = true
  requests : ∀ h, o'.isLive h = true → o'.requests h = o.requests h

namespace Steady

theorem refl (o : Outline) : o.Steady o := ⟨fun _ => id, fun _ => id, fun _ _ => rfl⟩

theorem trans (s : o.Steady o') (s' : o'.Steady o'') : o.Steady o'' where
  isLive h hlive := s.isLive h (s'.isLive h hlive)
  waits h hwaits := s.waits h (s'.waits h hwaits)
  requests h hlive := (s'.requests h hlive).trans (s.requests h (s'.isLive h hlive))

theorem withKeys (s : o.Steady o') (openKeys : OpenKeys) : o.Steady { o' with openKeys } :=
  ⟨s.isLive, s.waits, s.requests⟩

end Steady

namespace Arena

theorem steady_restrict (ha : o.Arena) {keep : Handle → Bool} (hkeep : o.KeepsParents keep) :
    o.Steady (o.restrict keep) where
  isLive h hlive := (isLive_restrict.mp hlive).1
  waits h hwaits := by
    obtain ⟨m, hm, hhandle, hfetching⟩ := (ha.restrict hkeep).waits_iff_mem.mp hwaits
    obtain ⟨n, hn, -, rfl⟩ := mem_restrict_nodes.mp hm
    exact ha.waits_iff_mem.mpr ⟨n, hn, hhandle, hfetching⟩
  requests h hlive := requests_filter o.outbox (isLive_restrict.mp hlive).2

theorem steady_prune (ha : o.Arena) (top : Handle) : o.Steady (o.prune top) := by
  rw [ha.prune_eq_restrict]
  exact ha.steady_restrict (ha.keepsParents_outside top)

theorem steady_update (ha : o.Arena) {f : Node → Node} (hf : KeepsPlace f)
    (hfetching : ∀ n, (f n).expansion = .fetching → n.expansion = .fetching) (top : Handle) :
    o.Steady (o.update top f) where
  isLive h hlive := by rwa [isLive_update hf] at hlive
  waits h hwaits := by
    obtain ⟨m, hm, hhandle, hwaiting⟩ := (ha.update hf top).waits_iff_mem.mp hwaits
    obtain ⟨n, hn, rfl⟩ := mem_update_nodes.mp hm
    refine ha.waits_iff_mem.mpr ⟨n, hn, ?_⟩
    split at hhandle
    · rename_i hself
      rw [if_pos hself] at hwaiting
      exact ⟨(hf n).1.symm.trans hhandle, hfetching n hwaiting⟩
    · rename_i hother
      rw [if_neg hother] at hwaiting
      exact ⟨hhandle, hwaiting⟩
  requests _ _ := rfl

theorem steady_renamed (ha : o.Arena) {top : Handle} (hr : o.Renamed top o') : o.Steady o' := by
  rcases hr with rfl | ⟨f, effects, rfl, hf, hnone⟩
  · exact .refl _
  · have hupdated := ha.steady_update hf.keepsPlace (fun n hn => (hf.alike n).2.2 ▸ hn) top
    refine ⟨hupdated.isLive, hupdated.waits, fun h _ => ?_⟩
    have hquiet : effects.countP (Effect.asksFor h) = 0 := by
      refine List.countP_eq_zero.mpr fun e he hasks => ?_
      have hnode := hnone e he
      rw [node?_of_asksFor hasks] at hnode
      cases hnode
    change (o.outbox ++ effects).countP (Effect.asksFor h) = _
    rw [List.countP_append, hquiet]
    rfl

/-! Actions that neither draw nor open. -/

theorem steady_closed (ha : o.Arena) {n : Node} (hn : n ∈ o.nodes) : o.Steady (o.closed n) := by
  obtain ⟨keep, hkeep, hfold, -⟩ := ha.foldl_prune_children hn
  rw [closed, hfold]
  have hupdated :=
    (ha.restrict hkeep).steady_update (keepsPlace_inState .collapsed)
      (fun _ h => by cases h) n.handle
  exact ((ha.steady_restrict hkeep).trans hupdated).withKeys _

theorem steady_abandonFetch (ha : o.Arena) {top : Handle}
    (hf : o.abandonFetch top = .ok o') : o.Steady o' := by
  rw [Outline.abandonFetch] at hf
  split at hf
  · cases hf
  · split at hf
    · cases hf
      exact .refl o
    · cases hf
      exact (ha.steady_update (keepsPlace_inState .collapsed)
        (fun _ h => by cases h) top).withKeys _

theorem steady_settleUpload (ha : o.Arena) (top : Handle) (outcome : Except Fault Unit) :
    o.Steady (o.settleUpload top outcome).2 := by
  cases outcome with
  | error e => exact ha.steady_prune top
  | ok confirmed =>
    rw [Outline.settleUpload]
    split
    · exact .refl o
    · exact ha.steady_update (f := Node.commit) (fun _ => ⟨rfl, rfl, rfl⟩) (fun _ h => h) top

theorem steady_forget (ha : o.Arena) (entityId : String) : o.Steady (o.forget entityId).2 := by
  obtain ⟨keep, hkeep, hforget, -⟩ := ha.exists_forget_eq entityId
  rw [hforget]
  exact (ha.steady_restrict hkeep).withKeys _

end Arena

theorem steady_click {top : Handle} {handled : Bool}
    (hc : o.click top = .ok (handled, o')) : o.Steady o' := by
  rw [Outline.click] at hc
  split at hc
  · cases hc
  · split at hc <;> cases hc <;> exact ⟨fun _ => id, fun _ => id, fun _ _ => rfl⟩

/-! Drawing. -/

namespace Arena

theorem countP_asks (ha : o.Arena) (next h : Handle) :
    (asks next o.nodes).countP (fun w => w.1 == h) = (decide (next ≤ h) && o.waits h).toNat := by
  rw [List.countP_eq_length_filter, ← asks_filter fun x => x == h]
  cases hnode : o.node? h with
  | none =>
    have hnone : o.nodes.filter (fun n => n.handle == h) = [] :=
      List.filter_eq_nil_iff.mpr fun n hn => by simpa using List.find?_eq_none.mp hnode n hn
    simp [hnone, asks, waits, hnode]
  | some n =>
    obtain ⟨hn, rfl⟩ := mem_of_node? hnode
    have hone : o.nodes.filter (fun m => m.handle == n.handle) = [n] := by
      refine ha.filter_eq_singleton hn fun m hm => ?_
      rw [beq_iff_eq]
      exact ⟨ha.eq_of_handle hm hn, congrArg Node.handle⟩
    rw [hone, asks, waits, hnode]
    by_cases hnext : next ≤ n.handle <;> by_cases hfetching : n.expansion = .fetching <;>
      simp [Node.fetch?, hnext, hfetching]

end Arena

/--
The step from `o` to `o'` has each node that starts to wait ask once, and no other node ask; of the
older nodes only `toggled` may start to wait.
-/
structure Opens (o : Outline) (toggled : Handle → Prop) (o' : Outline) : Prop where
  requests : ∀ h, o'.isLive h = true → o'.requests h = o.requests h + (o.starts h o').toNat
  old : ∀ h < o.nextHandle, o.starts h o' = true → toggled h

theorem starts_eq_false (hwaits : o'.waits h = true → o.waits h = true) :
    o.starts h o' = false := by
  rw [starts, Bool.and_eq_false_imp]
  intro hidle
  refine Bool.eq_false_iff.mpr fun hwaiting => ?_
  rw [hwaits hwaiting] at hidle
  cases hidle

theorem starts_takeEffects (o : Outline) (h : Handle) :
    o.starts h (o.perform .takeEffects) = false :=
  starts_eq_false fun hwaits => hwaits

theorem Steady.opens (s : o.Steady o') (toggled : Handle → Prop) : o.Opens toggled o' := by
  refine ⟨fun h hlive => ?_, fun h _ hstarts => ?_⟩
  · rw [starts_eq_false (s.waits h), s.requests h hlive]
    rfl
  · rw [starts_eq_false (s.waits h)] at hstarts
    cases hstarts

theorem Arena.opens_of_restores (ha : o.Arena) (ha' : o'.Arena) {offers : List Bool}
    (r : o.Restores offers o') (hwaits : ∀ x < o.nextHandle, o'.waits x = true → o.waits x = true)
    (toggled : Handle → Prop) : o.Opens toggled o' := by
  have hold : ∀ x < o.nextHandle, o.starts x o' = false := fun x hx => starts_eq_false (hwaits x hx)
  have hnew : ∀ x, (decide (o.nextHandle ≤ x) && o'.waits x) = o.starts x o' := by
    intro x
    rcases Nat.lt_or_ge x o.nextHandle with hlt | hge
    · rw [hold x hlt, decide_eq_false (Nat.not_le.mpr hlt), Bool.false_and]
    · have hidle : o.waits x = false :=
        Bool.eq_false_iff.mpr fun hwaiting =>
          Nat.not_lt.mpr hge (ha.isLive_lt (isLive_of_waits hwaiting))
      rw [starts, hidle, decide_eq_true hge, Bool.not_false]
  refine ⟨fun h hlive => ?_, fun h hlt hstarts => ?_⟩
  · obtain ⟨asked, houtbox, hasked⟩ := r.outbox
    have hcount : asked.countP (Effect.asksFor h) = (o.starts h o').toNat := by
      rw [← hnew, ← ha'.countP_asks, ← hasked, List.countP_filterMap]
      refine List.countP_congr fun e _ => ?_
      rw [Effect.asksFor]
      cases e.fetch? <;> rfl
    rw [requests, houtbox, List.countP_append, requests_filter _ hlive, hcount, requests]
  · rw [hold h hlt] at hstarts
    cases hstarts

namespace Arena

theorem waits_of_drawing {anchor : Option Handle} {keys : List OpenKey} (ha : o.Arena)
    (d : o.Drawing anchor keys o') (hh : h < o.nextHandle) (hwaits : o'.waits h = true) :
    o.waits h = true := by
  obtain ⟨m, hm, rfl, hfetching⟩ := d.arena.waits_iff_mem.mp hwaits
  obtain ⟨n, hn, hhandle, -, hexpansion⟩ := d.exists_before ha hm hh
  exact ha.waits_iff_mem.mpr ⟨n, hn, hhandle, hexpansion.trans hfetching⟩

theorem opens_receive (ha : o.Arena) (top : Handle) (children : List Entity)
    (toggled : Handle → Prop) : o.Opens toggled (o.receive top children).2 := by
  refine ha.opens_of_restores (ha.receive top children) (ha.restores_receive top children)
    (fun x hx hwaits => ?_) _
  rcases o.receive_snd top children with heq | ⟨n, -, -, heq⟩
  · rwa [heq] at hwaits
  · rw [heq] at hwaits
    have d := drawing_receiveEach ha n children
    have hupdated :=
      d.arena.steady_update (keepsPlace_arrived children.isEmpty) (fun _ h => by cases h) top
    exact ha.waits_of_drawing d hx (hupdated.waits x hwaits)

theorem opens_drawPlan (ha : o.Arena) (at' : Place) (plan : Plan) (toggled : Handle → Prop) :
    o.Opens toggled (o.drawPlan at' plan) :=
  ha.opens_of_restores (ha.drawPlan at' plan) (ha.restores_drawPlan at' plan)
    (fun _ hx => ha.waits_of_drawing (drawing_drawPlan ha at' plan) hx) _

theorem waits_openNode (ha : o.Arena) {n : Node} (hn : n ∈ o.nodes) (x : Handle) :
    (o.openNode n.handle).waits x = (n.handle == x || o.waits x) := by
  have hnode : (o.openNode n.handle).waits x =
      (o.update n.handle (Node.inState .fetching)).waits x := by
    rw [ha.openNode_eq hn]
    rfl
  rw [hnode, waits, waits]
  by_cases hx : x = n.handle
  · rw [hx, ha.node?_update_self (keepsPlace_inState _) hn]
    simp
  · rw [ha.node?_update_of_ne (keepsPlace_inState _) hx, beq_false_of_ne (Ne.symm hx),
      Bool.false_or]

theorem requests_openNode (ha : o.Arena) {n : Node} (hn : n ∈ o.nodes) (x : Handle) :
    (o.openNode n.handle).requests x = o.requests x + (n.handle == x).toNat := by
  rw [ha.openNode_eq hn]
  change (o.outbox ++ [_]).countP (Effect.asksFor x) = _
  rw [List.countP_append, List.countP_singleton, requests]
  cases heq : n.handle == x <;> simp [Effect.asksFor, Effect.fetch?, heq]

theorem starts_openNode (ha : o.Arena) {n : Node} (hn : n ∈ o.nodes)
    (hclosed : n.expansion = .collapsed) (x : Handle) :
    o.starts x (o.openNode n.handle) = (n.handle == x) := by
  rw [starts, ha.waits_openNode hn]
  cases heq : n.handle == x with
  | true =>
    rw [← beq_iff_eq.mp heq, waits, ha.node?_handle hn]
    simp [hclosed]
  | false => rw [Bool.false_or, Bool.not_and_self]

theorem opens_openNode (ha : o.Arena) {n : Node} (hn : n ∈ o.nodes)
    (hclosed : n.expansion = .collapsed) : o.Opens (· = n.handle) (o.openNode n.handle) := by
  refine ⟨fun x _ => ?_, fun x _ hx => ?_⟩
  · rw [ha.requests_openNode hn, ha.starts_openNode hn hclosed]
  · rw [ha.starts_openNode hn hclosed, beq_iff_eq] at hx
    exact hx.symm

theorem opens_toggle (ha : o.Arena) (top : Handle) :
    o.Opens (fun h => h = top ∧ ∃ n, o.node? h = some n ∧ n.expansion = .collapsed)
      (o.perform (.toggle top)) := by
  cases hnode : o.node? top with
  | none =>
    have hsame : o.perform (.toggle top) = o := by
      rw [Outline.perform, Outline.toggle, get, hnode]
      rfl
    rw [hsame]
    exact (Steady.refl o).opens _
  | some n =>
    obtain ⟨hn, rfl⟩ := mem_of_node? hnode
    rw [ha.perform_toggle hn]
    cases hexpansion : n.expansion with
    | leaf => exact (Steady.refl o).opens _
    | collapsed =>
      obtain ⟨hrequests, hold⟩ := ha.opens_openNode hn hexpansion
      refine ⟨hrequests, fun h hlt hstarts => ?_⟩
      obtain rfl := hold h hlt hstarts
      exact ⟨rfl, n, hnode, hexpansion⟩
    | fetching | expanded => exact (ha.steady_closed hn).opens _

theorem steady_perform (ha : o.Arena) {a : Action} (hedit : a.IsEdit)
    (htoggle : ∀ h, a ≠ .toggle h) : o.Steady (o.perform a) := by
  cases a with
  | toggle h => exact absurd rfl (htoggle h)
  | abandonFetch h => exact after_induction (.refl o) fun _ => ha.steady_abandonFetch
  | settleUpload h outcome => exact ha.steady_settleUpload h outcome
  | remove h => exact after_map_induction (.refl o) fun _ _ hr => remove_ok hr ▸ ha.steady_prune h
  | forget entityId => exact ha.steady_forget entityId
  | click h => exact after_map_induction (.refl o) fun _ _ => steady_click
  | editName h =>
    exact after_map_induction (.refl o) fun _ _ he => ha.steady_renamed (renamed_editName he)
  | typeName h text =>
    exact after_induction (.refl o) fun _ ht => ha.steady_renamed (renamed_typeName ht)
  | commitName h =>
    exact after_map_induction (.refl o) fun _ _ hc => ha.steady_renamed (renamed_commitName hc)
  | pressKey h key =>
    cases key with
    | enter =>
      exact after_map_induction (.refl o) fun _ _ hc => ha.steady_renamed (renamed_commitName hc)
    | other => exact .refl o
  | retrack openKeys => exact (Steady.refl o).withKeys openKeys
  | draw | drawTree | receive | takeEffects => cases hedit

theorem opens_perform (ha : o.Arena) {a : Action} (htake : a ≠ .takeEffects) :
    o.Opens (fun h => a = .toggle h ∧ ∃ n, o.node? h = some n ∧ n.expansion = .collapsed)
      (o.perform a) := by
  have hedit (hedit : a.IsEdit) (htoggle : ∀ h, a ≠ .toggle h) : o.Opens
      (fun h => a = .toggle h ∧ ∃ n, o.node? h = some n ∧ n.expansion = .collapsed) (o.perform a) :=
    (ha.steady_perform hedit htoggle).opens _
  cases a with
  | draw e parentId resourceId replaces isExpandable =>
    rw [Outline.perform, Outline.draw, drawAt_eq_drawPlan]
    exact ha.opens_drawPlan _ _ _
  | drawTree e resourceId =>
    rw [Outline.perform, Outline.drawTree, Outline.graft, graftAll_eq_drawPlan]
    exact ha.opens_drawPlan _ _ _
  | receive h children => exact ha.opens_receive h children _
  | takeEffects => exact absurd rfl htake
  | toggle top =>
    obtain ⟨hrequests, hold⟩ := ha.opens_toggle top
    refine ⟨hrequests, fun h hlt hstarts => ?_⟩
    obtain ⟨rfl, hclosed⟩ := hold h hlt hstarts
    exact ⟨rfl, hclosed⟩
  | abandonFetch | settleUpload | remove | forget | click | editName | typeName | commitName
      | pressKey | retrack =>
    exact hedit trivial fun _ heq => by cases heq

end Arena

end Outline

end ContentConsole
