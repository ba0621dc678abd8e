import ContentConsole.Outline.Rename
import ContentConsole.Proofs.Outline.Received
import ContentConsole.Proofs.Outline.Toggle

set_option autoImplicit false
set_option relaxedAutoImplicit false

/-!
All that can be done to an outline, in any order. Main statement: `arena_of_run`, by which the
outline is an arena after every run of actions, those that fail included.
-/
namespace ContentConsole

inductive Action
  | draw (e : Entity) (parentId resourceId : Option String) (replaces isExpandable : Bool)
  | drawTree (e : Entity) (resourceId : Option String)
  | toggle (h : Handle)
  | receive (h : Handle) (children : List Entity)
  | abandonFetch (h : Handle)
  | settleUpload (h : Handle) (outcome : Except Fault Unit)
  | remove (h : Handle)
  | forget (entityId : String)
  | click (h : Handle)
  | editName (h : Handle)
  | typeName (h : Handle) (text : String)
  | commitName (h : Handle)
  | pressKey (h : Handle) (key : EditKey)
  | takeEffects
  /-- The keys remembered as open are edited by hand. -/
  | retrack (openKeys : OpenKeys)

namespace Outline

/-- What an action leaves behind: a failure leaves the outline as it was. -/
def after (o : Outline) : Except Fault Outline → Outline
  | .ok o' => o'
  | .error _ => o

def perform (o : Outline) : Action → Outline
  | .draw e parentId resourceId replaces isExpandable =>
    (o.draw e parentId resourceId replaces isExpandable).2
  | .drawTree e resourceId => o.drawTree e resourceId
  | .toggle h => o.after ((o.toggle h).map Prod.snd)
  | .receive h children => (o.receive h children).2
  | .abandonFetch h => o.after (o.abandonFetch h)
  | .settleUpload h outcome => (o.settleUpload h outcome).2
  | .remove h => o.after ((o.remove h).map Prod.snd)
  | .forget entityId => (o.forget entityId).2
  | .click h => o.after ((o.click h).map Prod.snd)
  | .editName h => o.after ((o.editName h).map Prod.snd)
  | .typeName h text => o.after (o.typeName h text)
  | .commitName h => o.after ((o.commitName h).map Prod.snd)
  | .pressKey h key => o.after ((o.pressKey h key).map Prod.snd)
  | .takeEffects => o.takeEffects.2
  | .retrack openKeys => { o with openKeys }

def run (o : Outline) (actions : List Action) : Outline := actions.foldl perform o

/-- What some run of actions makes of an outline in which nothing is drawn yet. -/
def Reachable (o : Outline) : Prop := ∃ openKeys actions, (start openKeys).run actions = o

variable {o : Outline}

theorem run_append (o : Outline) (before after : List Action) :
    o.run (before ++ after) = (o.run before).run after :=
  List.foldl_append ..

/-! Each action keeps the arena. -/

theorem arena_start (openKeys : OpenKeys) : (start openKeys).Arena where
  ascending := List.Pairwise.nil
  handle_lt := by simp [start]
  mem_children := by simp [start]
  mem_roots := by simp [start]
  children_ascending := by simp [start]
  roots_ascending := List.Pairwise.nil
  parent_live := by simp [start]
  parent_lt := by simp [start]
  outbox_live := by simp [start]
  selected_live := by simp [start]

theorem Arena.graft (ha : o.Arena) (e : Entity) (anchor : Option Handle)
    (resourceId : Option String) : (o.graft e anchor resourceId).Arena := by
  rw [Outline.graft, graftAll_eq_drawPlan]
  exact ha.drawPlan _ _

theorem Arena.draw (ha : o.Arena) (e : Entity) (parentId resourceId : Option String)
    (replaces isExpandable : Bool) :
    (o.draw e parentId resourceId replaces isExpandable).2.Arena := by
  rw [Outline.draw, drawAt_eq_drawPlan]
  exact ha.drawPlan _ _

theorem Arena.perform_toggle (ha : o.Arena) {n : Node} (hn : n ∈ o.nodes) :
    o.perform (.toggle n.handle) =
      match n.expansion with
      | .leaf => o
      | .collapsed => o.openNode n.handle
      | .fetching | .expanded => o.closed n := by
  rw [Outline.perform, ha.toggle_eq hn]
  cases n.expansion <;> rfl

theorem remove_ok {h : Handle} {ids : List String} {o' : Outline}
    (hr : o.remove h = .ok (ids, o')) : o' = o.prune h := by
  unfold remove at hr
  split at hr
  · cases hr
  · cases hr
    rfl

theorem Arena.receive (ha : o.Arena) (h : Handle) (children : List Entity) :
    (o.receive h children).2.Arena := by
  rcases o.receive_snd h children with heq | ⟨n, -, -, heq⟩
  · rwa [heq]
  · rw [heq]
    exact (drawing_receiveEach ha n children).arena.update (keepsPlace_arrived _) h

theorem Arena.abandonFetch (ha : o.Arena) {h : Handle} {o' : Outline}
    (hf : o.abandonFetch h = .ok o') : o'.Arena := by
  rw [Outline.abandonFetch] at hf
  split at hf
  · cases hf
  · split at hf
    · cases hf
      exact ha
    · cases hf
      refine (ha.update ?_ h).withKeys _
      exact fun _ => ⟨rfl, rfl, rfl⟩

theorem Arena.settleUpload (ha : o.Arena) (h : Handle) (outcome : Except Fault Unit) :
    (o.settleUpload h outcome).2.Arena := by
  cases outcome with
  | error e => exact ha.prune h
  | ok confirmed =>
    rw [Outline.settleUpload]
    split
    · exact ha
    · refine ha.update ?_ h
      exact fun _ => ⟨rfl, rfl, rfl⟩

theorem pruneCounted_snd (handles : List Handle) :
    (o.pruneCounted handles).2 = handles.foldl Outline.prune o := by
  induction handles generalizing o with
  | nil => rfl
  | cons h handles ih => exact ih

theorem Arena.exists_forget_eq (ha : o.Arena) (entityId : String) :
    ∃ keep, o.KeepsParents keep ∧
      (o.forget entityId).2 = { o.restrict keep with openKeys := o.openKeys.forget entityId } ∧
        ∀ m ∈ o.nodes, (keep m.handle = true ↔
          ∀ a ∈ o.nodes, o.Below a.handle m.handle → a.entityId ≠ entityId) := by
  obtain ⟨keep, hkeep, hfold, hiff⟩ := ha.foldl_prune ((o.showing entityId).map Node.handle)
  refine ⟨keep, hkeep, ?_, fun m hm => ?_⟩
  · simp only [Outline.forget, pruneCounted_snd, hfold]
    rfl
  · rw [hiff m.handle (isLive_of_mem hm), List.forall_mem_map]
    constructor
    · intro hout a hma hbelow hid
      exact hout a (List.mem_filter.mpr ⟨hma, beq_iff_eq.mpr hid⟩) hbelow
    · intro hout a hma hbelow
      obtain ⟨hma, hid⟩ := List.mem_filter.mp hma
      exact hout a hma hbelow (beq_iff_eq.mp hid)

theorem Arena.forget (ha : o.Arena) (entityId : String) : (o.forget entityId).2.Arena := by
  obtain ⟨keep, hkeep, hforget, -⟩ := ha.exists_forget_eq entityId
  rw [hforget]
  exact (ha.restrict hkeep).withKeys _

theorem Arena.click (ha : o.Arena) {h : Handle} {handled : Bool} {o' : Outline}
    (hc : o.click h = .ok (handled, o')) : o'.Arena := by
  rw [Outline.click] at hc
  split at hc
  · cases hc
  · rename_i n hn
    split at hc
    · cases hc
      exact ha
    · cases hc
      refine { ha with selected_live := ?_ }
      intro x hx
      rw [← Option.some.inj hx]
      exact isLive_of_node? (get_eq_ok_iff.mp hn)

def Restyles (f : Node → Node) : Prop :=
  ∀ n, f n = { n with
    name := (f n).name, ignoresClicks := (f n).ignoresClicks, showsButtons := (f n).showsButtons }

theorem Restyles.keepsPlace {f : Node → Node} (hf : Restyles f) : KeepsPlace f := by
  intro n
  rw [hf n]
  exact ⟨rfl, rfl, rfl⟩

theorem Restyles.alike {f : Node → Node} (hf : Restyles f) (n : Node) : (f n).Alike n := by
  rw [hf n]
  exact ⟨rfl, rfl, rfl⟩

/-- At most one node is changed, in nothing but its looks, and effects are
asked for that are for no node. -/
def Renamed (o : Outline) (h : Handle) (o' : Outline) : Prop :=
  o' = o ∨ ∃ f effects, o' = (o.update h f).push effects ∧
    Restyles f ∧ ∀ e ∈ effects, Effect.node? e = none

theorem renamed_editName {o' : Outline} {h : Handle} {opened : Bool}
    (he : o.editName h = .ok (opened, o')) : o.Renamed h o' := by
  rw [Outline.editName] at he
  split at he
  · cases he
  · split at he
    · cases he
      exact .inl rfl
    · cases he
      exact .inr ⟨_, [], (push_nil _).symm, fun _ => rfl, by simp⟩

theorem renamed_typeName {o' : Outline} {h : Handle} {text : String}
    (ht : o.typeName h text = .ok o') : o.Renamed h o' := by
  rw [Outline.typeName] at ht
  split at ht
  · cases ht
  · split at ht
    · cases ht
      exact .inl rfl
    · cases ht
      exact .inr ⟨_, [], (push_nil _).symm, fun _ => rfl, by simp⟩

theorem renamed_commitName {o' : Outline} {h : Handle} {committed : Option String}
    (hc : o.commitName h = .ok (committed, o')) : o.Renamed h o' := by
  rw [Outline.commitName] at hc
  split at hc
  · cases hc
  · split at hc
    · cases hc
      exact .inl rfl
    · cases hc
      exact .inr ⟨_, _, rfl, fun _ => rfl, by simp [Effect.node?]⟩

theorem Arena.renamed (ha : o.Arena) {o' : Outline} {h : Handle}
    (hr : o.Renamed h o') : o'.Arena := by
  rcases hr with rfl | ⟨f, effects, rfl, hf, hnode⟩
  · exact ha
  · refine (ha.update hf.keepsPlace h).push fun e he x hx => ?_
    rw [hnode e he] at hx
    cases hx

theorem after_induction {P : Outline → Prop} {result : Except Fault Outline} (ho : P o)
    (h : ∀ o', result = .ok o' → P o') : P (o.after result) := by
  cases result with
  | ok o' => exact h o' rfl
  | error e => exact ho

private theorem ok_of_map_snd {α : Type} {result : Except Fault (α × Outline)} {o' : Outline}
    (h : result.map Prod.snd = .ok o') : ∃ x, result = .ok (x, o') := by
  cases result with
  | error e => cases h
  | ok answer =>
    obtain ⟨x, outline⟩ := answer
    cases h
    exact ⟨x, rfl⟩

theorem after_map_induction {α : Type} {P : Outline → Prop} {result : Except Fault (α × Outline)}
    (ho : P o) (h : ∀ x o', result = .ok (x, o') → P o') : P (o.after (result.map Prod.snd)) := by
  apply after_induction ho
  intro o' ho'
  obtain ⟨x, hx⟩ := ok_of_map_snd ho'
  exact h x o' hx

theorem Arena.perform (ha : o.Arena) (a : Action) : (o.perform a).Arena := by
  cases a with
  | draw e parentId resourceId replaces isExpandable =>
    exact ha.draw e parentId resourceId replaces isExpandable
  | drawTree e resourceId => exact ha.graft e _ resourceId
  | toggle h => exact after_map_induction ha fun _ _ => ha.toggle
  | receive h children => exact ha.receive h children
  | abandonFetch h => exact after_induction ha fun _ => ha.abandonFetch
  | settleUpload h outcome => exact ha.settleUpload h outcome
  | remove h => exact after_map_induction ha fun _ _ hr => remove_ok hr ▸ ha.prune h
  | forget entityId => exact ha.forget entityId
  | click h => exact after_map_induction ha fun _ _ => ha.click
  | editName h => exact after_map_induction ha fun _ _ he => ha.renamed (renamed_editName he)
  | typeName h text => exact after_induction ha fun _ ht => ha.renamed (renamed_typeName ht)
  | commitName h => exact after_map_induction ha fun _ _ hc => ha.renamed (renamed_commitName hc)
  | pressKey h key =>
    cases key with
    | enter => exact after_map_induction ha fun _ _ hc => ha.renamed (renamed_commitName hc)
    | other => exact ha
  | takeEffects => exact { ha with outbox_live := by simp [Outline.perform, takeEffects] }
  | retrack openKeys => exact ha.withKeys openKeys

theorem Arena.run (ha : o.Arena) (actions : List Action) : (o.run actions).Arena := by
  induction actions generalizing o with
  | nil => exact ha
  | cons a actions ih => exact ih (ha.perform a)

theorem Arena.run_iff_never (ha : o.Arena) {P : Outline → Prop} {Breaks : Outline → Action → Prop}
    {actions : List Action} (ho : P o)
    (hstep : ∀ o a, o.Arena → P o → a ∈ actions → (P (o.perform a) ↔ ¬Breaks o a)) :
    (∀ before rest, actions = before ++ rest → P (o.run before)) ↔
      ∀ before a rest, actions = before ++ a :: rest → ¬Breaks (o.run before) a := by
  induction actions generalizing o with
  | nil =>
    refine iff_of_true (fun before rest heq => ?_) (fun before a rest heq => ?_)
    · rw [(List.append_eq_nil_iff.mp heq.symm).1]
      exact ho
    · simp at heq
  | cons a actions ih =>
    have hfirst := hstep o a ha ho (List.mem_cons_self ..)
    have hrest := fun o b ha ho hmem => hstep o b ha ho (List.mem_cons_of_mem a hmem)
    constructor
    · intro hall before b rest heq
      have hafter : P (o.perform a) := hall [a] actions rfl
      cases before with
      | nil =>
        obtain ⟨rfl, -⟩ := List.cons.inj heq
        exact hfirst.mp hafter
      | cons c before =>
        obtain ⟨rfl, htail⟩ := List.cons.inj heq
        refine (ih (ha.perform a) hafter hrest).mp (fun before' rest' heq' => ?_)
          before b rest htail
        exact hall (a :: before') rest' (congrArg (List.cons a) heq')
    · intro hnone before rest heq
      cases before with
      | nil => exact ho
      | cons c before =>
        obtain ⟨rfl, htail⟩ := List.cons.inj heq
        have hafter : P (o.perform a) := hfirst.mpr (hnone [] a actions rfl)
        refine (ih (ha.perform a) hafter hrest).mpr (fun before' b rest' heq' => ?_)
          before rest htail
        exact hnone (a :: before') b rest' (congrArg (List.cons a) heq')

theorem Reachable.arena (h : o.Reachable) : o.Arena := by
  obtain ⟨openKeys, actions, rfl⟩ := h
  exact (arena_start openKeys).run actions

/-- After every run the outline is an arena, and each node is stored under its own handle. -/
theorem arena_of_run (openKeys : OpenKeys) (actions : List Action) :
    ((start openKeys).run actions).Arena ∧
      ∀ n ∈ ((start openKeys).run actions).nodes,
        ((start openKeys).run actions).node? n.handle = some n := by
  have ha := (arena_start openKeys).run actions
  exact ⟨ha, fun n hn => ha.node?_handle hn⟩

end Outline

end ContentConsole
