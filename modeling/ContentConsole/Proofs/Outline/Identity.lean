import ContentConsole.Proofs.Outline.Continues

set_option autoImplicit false
set_option relaxedAutoImplicit false

/-!
Handles over whole runs. Whatever is addressed by a handle may reach the outline late. Main
statement: `identity_run`, by which it then meets the node that it was meant for, or no node at all.
-/
namespace ContentConsole

namespace Action

def target? : Action → Option Handle
  | .toggle h | .receive h _ | .abandonFetch h | .settleUpload h _ | .remove h
      | .click h | .editName h
  | .typeName h _ | .commitName h | .pressKey h _ => some h
  | .draw .. | .drawTree .. | .forget _ | .takeEffects | .retrack _ => none

/--
What an action answers that is for a node which is gone: the node is unknown, but a failed upload is
handed back as it is, and a key that means nothing is passed over.
-/
def refusal (h : Handle) : Action → Except Fault Unit
  | .settleUpload _ (.error e) => .error e
  | .pressKey _ .other => .ok ()
  | _ => .error (.unknownNode h)

end Action

namespace Outline

def verdict (o : Outline) : Action → Except Fault Unit
  | .toggle h => (o.toggle h).map fun _ => ()
  | .receive h children => (o.receive h children).1.map fun _ => ()
  | .abandonFetch h => (o.abandonFetch h).map fun _ => ()
  | .settleUpload h outcome => (o.settleUpload h outcome).1
  | .remove h => (o.remove h).map fun _ => ()
  | .click h => (o.click h).map fun _ => ()
  | .editName h => (o.editName h).map fun _ => ()
  | .typeName h text => (o.typeName h text).map fun _ => ()
  | .commitName h => (o.commitName h).map fun _ => ()
  | .pressKey h key => (o.pressKey h key).map fun _ => ()
  | .draw .. | .drawTree .. | .forget _ | .takeEffects | .retrack _ => .ok ()

/-- The handles that an action reports for what it has drawn. -/
def reported (o : Outline) : Action → List Handle
  | .draw e parentId resourceId replaces isExpandable =>
    [(o.draw e parentId resourceId replaces isExpandable).1.handle]
  | .receive h children => ((o.receive h children).1.toOption.getD []).map Drawn.handle
  | _ => []

/-- A node had the handle at some time of the run, or an action of the run reported it. -/
def UsedIn (o : Outline) (actions : List Action) (h : Handle) : Prop :=
  (∃ past rest, actions = past ++ rest ∧ (o.run past).isLive h = true) ∨
    ∃ past a rest, actions = past ++ a :: rest ∧ h ∈ (o.run past).reported a

variable {o o' : Outline} {h : Handle}

theorem perform_of_gone {a : Action} (htarget : a.target? = some h) (hgone : o.isLive h = false) :
    o.perform a = o ∧ o.verdict a = a.refusal h := by
  have hnode := node?_eq_none hgone
  have hget : o.get h = .error (.unknownNode h) := by rw [get, hnode]
  cases a with
  | draw | drawTree | forget | takeEffects | retrack => cases htarget
  | settleUpload h outcome =>
    cases htarget
    cases outcome with
    | ok confirmed => simp [perform, verdict, Action.refusal, settleUpload, hget]
    | error e => simp [perform, verdict, Action.refusal, settleUpload, prune, hnode]
  | pressKey h key =>
    cases htarget
    cases key
      <;> simp [perform, verdict, Action.refusal, pressKey, commitName, hget, after, Except.map]
  | toggle | receive | abandonFetch | remove | click | editName | typeName | commitName =>
    cases htarget
    simp [perform, verdict, Action.refusal, toggle, receive, abandonFetch, remove, click,
      editName, typeName, commitName, hget, hnode, after, Except.map]

/-! Handles are given in order. -/

theorem size_ofEntity_pos (e : Entity) : 0 < (Plan.ofEntity e).size := by
  obtain ⟨uploads, below, hplan⟩ := ofEntity_eq e
  rw [hplan, Plan.size]
  omega

theorem Arena.lt_receiveOne_nextHandle (ha : o.Arena) (parent : Node) (e : Entity) :
    o.nextHandle < (o.receiveOne parent e).2.nextHandle := by
  rw [ha.receiveOne_nextHandle, Nat.add_assoc]
  exact Nat.lt_add_of_pos_right (Nat.add_pos_left (size_ofEntity_pos e) _)

theorem Arena.receiveEach_bounds (ha : o.Arena) (parent : Node) (children : List Entity) :
    ∀ d ∈ (o.receiveEach parent children).1,
      o.nextHandle ≤ d.handle ∧ d.handle < (o.receiveEach parent children).2.nextHandle := by
  induction children generalizing o with
  | nil => exact fun d hd => absurd hd List.not_mem_nil
  | cons e children ih =>
    have ha₁ : (o.receiveOne parent e).2.Arena := (drawing_receiveOne ha parent e).arena
    have hstep := ha.lt_receiveOne_nextHandle parent e
    have hcons : o.receiveEach parent (e :: children) =
        ((o.receiveOne parent e).1 :: ((o.receiveOne parent e).2.receiveEach parent children).1,
          ((o.receiveOne parent e).2.receiveEach parent children).2) := rfl
    rw [hcons]
    intro d hd
    rcases List.mem_cons.mp hd with rfl | hrest
    · have hfirst : (o.receiveOne parent e).1.handle = o.nextHandle := drawAt_handle _ e
      rw [hfirst]
      exact ⟨Nat.le_refl _,
        Nat.lt_of_lt_of_le hstep (ha₁.continues_receiveEach parent children).nextHandle_le⟩
    · obtain ⟨hle, hlt⟩ := ih ha₁ d hrest
      exact ⟨Nat.le_trans (Nat.le_of_lt hstep) hle, hlt⟩

theorem bounds_of_reported (ha : o.Arena) {a : Action} (hh : h ∈ o.reported a) :
    o.nextHandle ≤ h ∧ h < (o.perform a).nextHandle := by
  cases a with
  | draw e parentId resourceId replaces isExpandable =>
    have hself : h = o.nextHandle := by
      rw [reported, List.mem_singleton, draw, drawAt_handle] at hh
      exact hh
    rw [perform, draw, drawAt_eq_drawPlan, ha.drawPlan_nextHandle, hself]
    exact ⟨Nat.le_refl _, Nat.lt_add_of_pos_right (size_ofEntity_pos e)⟩
  | receive x children =>
    rw [reported] at hh
    by_cases hwaits : ∃ n, o.node? x = some n ∧ n.expansion = .fetching
    · obtain ⟨n, hn, hfetching⟩ := hwaits
      obtain ⟨d, hd, rfl⟩ : ∃ d ∈ (o.receiveEach n children).1, d.handle = h := by
        rw [receive_eq hn hfetching] at hh
        dsimp only at hh
        split at hh
        · exact List.mem_map.mp hh
        · cases hh
      rw [perform, receive_eq hn hfetching]
      exact ha.receiveEach_bounds n children d hd
    · have hnone : (o.receive x children).1.toOption.getD [] = [] := by
        rw [receive]
        cases hn : o.get x with
        | error e => rfl
        | ok n =>
          have hidle : n.expansion ≠ .fetching := fun hf => hwaits ⟨n, get_eq_ok_iff.mp hn, hf⟩
          simp only [ne_eq, hidle, not_false_eq_true, if_true]
          rfl
      rw [hnone] at hh
      cases hh
  | _ => cases hh

theorem Arena.lt_of_usedIn (ha : o.Arena) {actions : List Action} (hused : o.UsedIn actions h) :
    h < (o.run actions).nextHandle := by
  rcases hused with ⟨past, rest, rfl, hlive⟩ | ⟨past, a, rest, rfl, hreported⟩
  · have hpast := ha.run past
    rw [run_append]
    exact Nat.lt_of_lt_of_le (hpast.isLive_lt hlive) (hpast.continues_run rest).nextHandle_le
  · have hpast := ha.run past
    have hlt := (bounds_of_reported hpast hreported).2
    rw [run_append]
    exact Nat.lt_of_lt_of_le hlt ((hpast.perform a).continues_run rest).nextHandle_le

/--
A handle is given once: handles are counted, what is drawn has one that was not counted before, and
what was removed stays away. What lives on keeps its place and what it shows. So whatever is for an
old handle meets the node that it was for, or finds none and changes nothing.
-/
theorem identity_run (openKeys : OpenKeys) (before after : List Action) :
    let o := (start openKeys).run before
    let o' := o.run after
    (∀ h, (start openKeys).UsedIn before h → h < o.nextHandle) ∧
      (∀ a, ∀ h ∈ o.reported a, o.nextHandle ≤ h) ∧
      (∀ h < o.nextHandle, o.isLive h = false → o'.isLive h = false) ∧
      (∀ n ∈ o.nodes, ∀ n' ∈ o'.nodes, n.handle = n'.handle → n.SameIdentity n') ∧
      ∀ h < o.nextHandle,
        (∃ n n', o.node? h = some n ∧ o'.node? h = some n' ∧ n.SameIdentity n') ∨
        o'.isLive h = false ∧ o'.deletionPrompt h = .error (.unknownNode h) ∧
          ∀ a : Action, a.target? = some h → o'.perform a = o' ∧ o'.verdict a = a.refusal h := by
  intro o o'
  have hstart := arena_start openKeys
  have ha : o.Arena := hstart.run before
  have hc : o.Continues o' := ha.continues_run after
  refine ⟨fun h hused => hstart.lt_of_usedIn hused,
    fun a h hreported => (bounds_of_reported ha hreported).1, fun h hlt hgone => ?_,
    fun n hn n' hn' => hc.sameIdentity ha hn hn', fun h hlt => ?_⟩
  · by_contra hlive
    have hback := hc.isLive_of_isLive hlt (by simpa using hlive)
    exact absurd hback (by simp [hgone])
  · cases hlive : o'.isLive h with
    | true =>
      obtain ⟨n', hn'⟩ := exists_node?_of_isLive hlive
      obtain ⟨n, hn⟩ := exists_node?_of_isLive (hc.isLive_of_isLive hlt hlive)
      obtain ⟨hmem, hhandle⟩ := mem_of_node? hn
      obtain ⟨hmem', hhandle'⟩ := mem_of_node? hn'
      exact .inl ⟨n, n', hn, hn', hc.sameIdentity ha hmem hmem' (hhandle.trans hhandle'.symm)⟩
    | false =>
      have hprompt : o'.deletionPrompt h = .error (.unknownNode h) := by
        rw [deletionPrompt, get, node?_eq_none hlive]
      exact .inr ⟨rfl, hprompt, fun a htarget => perform_of_gone htarget hlive⟩

/-- A failed upload of an image that was removed meanwhile is handed back: it is
not the node that is unknown. -/
theorem settleUpload_of_removed :
    let i : Entity := ⟨"i", "", none, .image, []⟩
    let actions : List Action := [.draw i none none false false, .takeEffects, .remove 0]
    let o := (start .empty).run actions
    let refused : Fault := .upload "i" "refused"
    (start .empty).UsedIn actions 0 ∧ o.isLive 0 = false ∧
      o.verdict (.settleUpload 0 (.error refused)) = .error refused ∧ refused ≠ .unknownNode 0 ∧
      o.verdict (.pressKey 0 .other) = .ok () := by
  intro i actions o refused
  have hused : (start .empty).UsedIn actions 0 := .inr ⟨[], _, _, rfl, List.mem_singleton.mpr rfl⟩
  exact ⟨hused, rfl, rfl, by decide, rfl⟩

end Outline

end ContentConsole
