import ContentConsole.Proofs.Outline.Action

set_option autoImplicit false
set_option relaxedAutoImplicit false

/-!
What the actions that draw nothing leave behind. Main statement: `Arena.edited_perform`, by which
each of them is one of six kinds of edit: nodes go, one node opens, closes, is committed or shows
its name in another way, or no node changes at all.
-/
namespace ContentConsole

/-- The action draws nothing, and what it asks for stays in the outbox. -/
def Action.IsEdit : Action → Prop
  | .draw .. | .drawTree .. | .receive .. | .takeEffects => False
  | _ => True

def Node.commit (n : Node) : Node := { n with upload := .committed }

namespace Outline

variable {o : Outline}

/-- What an edit of `o` leaves behind. -/
inductive Edited (o : Outline) : Outline → Prop
  | marked (openKeys : OpenKeys) (selected : Option Handle) : Edited o { o with openKeys, selected }
  | pruned (keep : Handle → Bool) (openKeys : OpenKeys) (hkeep : o.KeepsParents keep) :
      Edited o { o.restrict keep with openKeys }
  | opened (n : Node) (hn : n ∈ o.nodes) : Edited o (o.openNode n.handle)
  | closed (n : Node) (keep : Handle → Bool) (openKeys : OpenKeys) (hkeep : o.KeepsParents keep) :
      Edited o { (o.restrict keep).update n.handle (Node.inState .collapsed) with openKeys }
  | committed (h : Handle) : Edited o (o.update h Node.commit)
  | renamed (h : Handle) (o' : Outline) (hr : o.Renamed h o') : Edited o o'

/-- What an edit of `o` leaves behind that shows no node in another way. -/
inductive Reshaped (o : Outline) : Outline → Prop
  | marked (openKeys : OpenKeys) (selected : Option Handle) :
      Reshaped o { o with openKeys, selected }
  | pruned (keep : Handle → Bool) (openKeys : OpenKeys) (hkeep : o.KeepsParents keep) :
      Reshaped o { o.restrict keep with openKeys }
  | opened (n : Node) (hn : n ∈ o.nodes) : Reshaped o (o.openNode n.handle)
  | closed (n : Node) (keep : Handle → Bool) (openKeys : OpenKeys) (hkeep : o.KeepsParents keep) :
      Reshaped o { (o.restrict keep).update n.handle (Node.inState .collapsed) with openKeys }
  | committed (h : Handle) : Reshaped o (o.update h Node.commit)

theorem Reshaped.refl (o : Outline) : o.Reshaped o := .marked o.openKeys o.selected

theorem Reshaped.edited {o' : Outline} (h : o.Reshaped o') : o.Edited o' := by
  cases h with
  | marked openKeys selected => exact .marked openKeys selected
  | pruned keep openKeys hkeep => exact .pruned keep openKeys hkeep
  | opened n hn => exact .opened n hn
  | closed n keep openKeys hkeep => exact .closed n keep openKeys hkeep
  | committed h => exact .committed h

namespace Arena

theorem reshaped_prune (ha : o.Arena) (h : Handle) : o.Reshaped (o.prune h) := by
  have hpruned := Reshaped.pruned (o.outside h) o.openKeys (ha.keepsParents_outside h)
  rw [ha.prune_eq_restrict]
  exact hpruned

theorem reshaped_toggle (ha : o.Arena) {h : Handle} {state : Expansion} {o' : Outline}
    (ht : o.toggle h = .ok (state, o')) : o.Reshaped o' := by
  cases hnode : o.node? h with
  | none =>
    rw [Outline.toggle, get, hnode] at ht
    cases ht
  | some n =>
    obtain ⟨hn, rfl⟩ := mem_of_node? hnode
    rw [ha.toggle_eq hn] at ht
    split at ht
    · cases ht
      exact .refl o
    · cases ht
      exact .opened n hn
    all_goals
      cases ht
      obtain ⟨keep, hkeep, hfold, -⟩ := ha.foldl_prune_children hn
      rw [Outline.closed, hfold]
      exact .closed n keep _ hkeep

theorem reshaped_abandonFetch (ha : o.Arena) {h : Handle} {o' : Outline}
    (hf : o.abandonFetch h = .ok o') : o.Reshaped o' := by
  rw [Outline.abandonFetch] at hf
  split at hf
  · cases hf
  · rename_i n hn
    split at hf
    · cases hf
      exact .refl o
    · obtain ⟨-, rfl⟩ := mem_of_node? (get_eq_ok_iff.mp hn)
      cases hf
      have hall : o.restrict (fun _ => true) = o := ha.restrict_eq_self fun _ _ => rfl
      have hclosed :=
        Reshaped.closed n (fun _ => true) (o.openKeys.erase n.key) (o := o) fun _ _ _ _ => rfl
      rw [hall] at hclosed
      exact hclosed

theorem reshaped_settleUpload (ha : o.Arena) (h : Handle) (outcome : Except Fault Unit) :
    o.Reshaped (o.settleUpload h outcome).2 := by
  cases outcome with
  | error e => exact ha.reshaped_prune h
  | ok confirmed =>
    rw [Outline.settleUpload]
    split
    · exact .refl o
    · exact .committed h

theorem reshaped_forget (ha : o.Arena) (entityId : String) : o.Reshaped (o.forget entityId).2 := by
  obtain ⟨keep, hkeep, hforget, -⟩ := ha.exists_forget_eq entityId
  rw [hforget]
  exact .pruned keep _ hkeep

theorem reshaped_click {h : Handle} {handled : Bool} {o' : Outline}
    (hc : o.click h = .ok (handled, o')) : o.Reshaped o' := by
  rw [Outline.click] at hc
  split at hc
  · cases hc
  · split at hc
    · cases hc
      exact .refl o
    · cases hc
      exact .marked o.openKeys (some h)

theorem edited_perform (ha : o.Arena) {a : Action} (hedit : a.IsEdit) : o.Edited (o.perform a) := by
  have hself := (Reshaped.refl o).edited
  cases a with
  | draw | drawTree | receive | takeEffects => cases hedit
  | toggle h => exact after_map_induction hself fun _ _ ht => (ha.reshaped_toggle ht).edited
  | abandonFetch h => exact after_induction hself fun _ hf => (ha.reshaped_abandonFetch hf).edited
  | settleUpload h outcome => exact (ha.reshaped_settleUpload h outcome).edited
  | remove h =>
    exact after_map_induction hself fun _ _ hr => remove_ok hr ▸ (ha.reshaped_prune h).edited
  | forget entityId => exact (ha.reshaped_forget entityId).edited
  | click h => exact after_map_induction hself fun _ _ hc => (reshaped_click hc).edited
  | editName h => exact after_map_induction hself fun _ o' he => .renamed h o' (renamed_editName he)
  | typeName h text => exact after_induction hself fun o' ht => .renamed h o' (renamed_typeName ht)
  | commitName h =>
    exact after_map_induction hself fun _ o' hc => .renamed h o' (renamed_commitName hc)
  | pressKey h key =>
    cases key with
    | enter => exact after_map_induction hself fun _ o' hc => .renamed h o' (renamed_commitName hc)
    | other => exact hself
  | retrack openKeys => exact .marked openKeys o.selected

end Arena

end Outline

end ContentConsole
