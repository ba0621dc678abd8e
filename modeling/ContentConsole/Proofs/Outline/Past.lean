import ContentConsole.Proofs.Outline.Append

set_option autoImplicit false
set_option relaxedAutoImplicit false

/-!
The past of an outline: the part of it that is older than a handle. Main statement:
`Arena.append_past`, by which drawing one node changes nothing in the past except for
the node that it replaces there.
-/
namespace ContentConsole

namespace Outline

/-- The outline as far as it is older than a handle. -/
def past (o : Outline) (next : Handle) : Outline :=
  { o.restrict (fun h => decide (h < next)) with nextHandle := next }

variable {o : Outline} {next : Handle}

theorem isLive_past {h : Handle} :
    (o.past next).isLive h = true ↔ o.isLive h = true ∧ h < next := by
  have hlive : (o.restrict fun x => decide (x < next)).isLive h = true ↔
      o.isLive h = true ∧ decide (h < next) = true := isLive_restrict
  rwa [decide_eq_true_iff] at hlive

theorem isChild_past {p c : Handle} : (o.past next).IsChild p c ↔ o.IsChild p c ∧ c < next := by
  have hchild : (o.restrict fun x => decide (x < next)).IsChild p c ↔
      o.IsChild p c ∧ decide (c < next) = true := isChild_restrict
  rwa [decide_eq_true_iff] at hchild

theorem mem_past_nodes {m : Node} : m ∈ (o.past next).nodes ↔
    ∃ n ∈ o.nodes, n.handle < next ∧ n.trim (fun h => decide (h < next)) = m := by
  have hnodes : m ∈ (o.restrict fun h => decide (h < next)).nodes ↔ ∃ n ∈ o.nodes,
      decide (n.handle < next) = true ∧ n.trim (fun h => decide (h < next)) = m :=
        mem_restrict_nodes
  simp only [decide_eq_true_iff] at hnodes
  exact hnodes

theorem restrict_past (keep : Handle → Bool) : (o.past next).restrict keep =
    { o.restrict (fun h => decide (h < next) && keep h) with nextHandle := next } := by
  rw [← restrict_restrict]
  rfl

theorem past_past {next' : Handle} (hnext : next ≤ next') :
    (o.past next').past next = o.past next := by
  have hboth : (fun h => decide (h < next') && decide (h < next)) = fun h => decide (h < next) := by
    funext h
    rw [Bool.eq_iff_iff, Bool.and_eq_true, decide_eq_true_iff, decide_eq_true_iff]
    exact ⟨And.right, fun hlt => ⟨Nat.lt_of_lt_of_le hlt hnext, hlt⟩⟩
  rw [past, restrict_past, hboth]
  rfl

namespace Arena

theorem keepsParents_lt (ha : o.Arena) (next : Handle) :
    o.KeepsParents fun h => decide (h < next) := by
  intro p c hc hlt
  rw [decide_eq_true_iff] at hlt ⊢
  exact Nat.lt_trans (ha.lt_of_isChild hc) hlt

theorem past (ha : o.Arena) (next : Handle) : (o.past next).Arena :=
  { ha.restrict (ha.keepsParents_lt next) with
    handle_lt := by
      intro m hm
      obtain ⟨n, -, hlt, rfl⟩ := mem_past_nodes.mp hm
      exact hlt }

theorem past_self (ha : o.Arena) : o.past o.nextHandle = o := by
  have hall : ∀ x, o.isLive x = true → decide (x < o.nextHandle) = true := by
    intro x hx
    rw [decide_eq_true_iff]
    exact ha.isLive_lt hx
  rw [Outline.past, ha.restrict_eq_self hall]

theorem below_past (ha : o.Arena) {a b : Handle} (hb : b < next) :
    (o.past next).Below a b ↔ o.Below a b := by
  constructor
  · exact below_of_below_restrict
  · intro hab
    exact ((ha.keepsParents_lt next).below hab (decide_eq_true hb)).2

/-! Replacement. -/

private theorem find?_older {nodes : List Node}
    (hsorted : nodes.Pairwise fun m n => m.handle < n.handle) (q : Node → Bool) :
    (nodes.filter fun n => decide (n.handle < next)).find? q =
      (nodes.find? q).filter fun n => decide (n.handle < next) := by
  induction nodes with
  | nil => rfl
  | cons n rest ih =>
    obtain ⟨hrise, hrest⟩ := List.pairwise_cons.mp hsorted
    by_cases hlt : n.handle < next
    · rw [List.filter_cons_of_pos (by simpa using hlt), List.find?_cons, List.find?_cons]
      cases q n with
      | true => simp [Option.filter, hlt]
      | false => exact ih hrest
    · have hyounger : ∀ m ∈ n :: rest, ¬m.handle < next := by
        intro m hm hmlt
        rcases List.mem_cons.mp hm with rfl | hm
        · exact hlt hmlt
        · exact hlt (Nat.lt_trans (hrise m hm) hmlt)
      have hnone : (n :: rest).filter (fun m => decide (m.handle < next)) = [] :=
        List.filter_eq_nil_iff.mpr fun m hm => by simpa using hyounger m hm
      rw [hnone]
      cases hfound : (n :: rest).find? q with
      | none => rfl
      | some m => simp [Option.filter, hyounger m (List.mem_of_find?_eq_some hfound)]

theorem find?_past (ha : o.Arena) (key : OpenKey) :
    (o.past next).find? key = (o.find? key).filter fun h => decide (h < next) := by
  have hpast : (o.past next).find? key =
      ((o.nodes.filter fun n => decide (n.handle < next)).find? fun n => n.key == key).map
        Node.handle := by
    rw [Outline.find?, Outline.past, Outline.restrict, List.find?_map, Option.map_map]
    rfl
  rw [hpast, find?_older ha.ascending, Outline.find?]
  cases o.nodes.find? fun n => n.key == key with
  | none => rfl
  | some n => by_cases hlt : n.handle < next <;> simp [Option.filter, hlt]

private theorem prune_past (ha : o.Arena) (top : Handle) :
    (o.prune top).past next = (o.past next).prune top := by
  have hsame : o.restrict (fun h => o.outside top h && decide (h < next)) =
      o.restrict fun h => decide (h < next) && (o.past next).outside top h := by
    apply ha.restrict_congr
    intro x hx
    by_cases hlt : x < next
    · have hout : (o.outside top x) = (o.past next).outside top x := by
        rw [Bool.eq_iff_iff, ha.outside_iff hx,
          (ha.past next).outside_iff (isLive_past.mpr ⟨hx, hlt⟩), ha.below_past hlt]
      simp [hlt, hout]
    · simp [hlt]
  rw [(ha.past next).prune_eq_restrict, restrict_past, ha.prune_eq_restrict, Outline.past,
    restrict_restrict]
  exact congrArg (fun rest : Outline => { rest with nextHandle := next }) hsame

theorem displace_past (ha : o.Arena) (key : OpenKey) :
    (o.displace key).past next = (o.past next).displace key := by
  rw [Outline.displace, Outline.displace, ha.find?_past]
  cases o.find? key with
  | none => rfl
  | some old =>
    by_cases hlt : old < next
    · simp only [Option.filter, hlt, decide_true, if_true]
      exact ha.prune_past old
    · -- What goes with a younger node is younger still.
      have hold : (o.past next).prune old = o.past next := by
        rw [Outline.prune, node?_eq_none]
        rw [← Bool.not_eq_true, isLive_past]
        exact fun h => hlt h.2
      simp only [Option.filter, hlt, decide_false, Bool.false_eq_true, if_false]
      rw [ha.prune_past, hold]

end Arena

/-! What is new leaves the past alone. -/

theorem insert_past (n : Node) (hnext : next ≤ o.nextHandle) :
    (o.insert n).2.past next = o.past next := by
  have hnew : decide (o.nextHandle < next) = false := by simpa using hnext
  have htrim : ∀ m : Node, (m.adopt (o.foundParent n) o.nextHandle).trim
      (fun h => decide (h < next)) =
      m.trim fun h => decide (h < next) := fun _ => Node.trim_adopt hnew
  have hroots : (if o.foundParent n = none then o.roots ++ [o.nextHandle] else o.roots).filter
      (fun h => decide (h < next)) = o.roots.filter fun h => decide (h < next) := by
    split
    · simp [List.filter_append, hnew]
    · rfl
  have hnodes : ((o.nodes.map (Node.adopt (o.foundParent n) o.nextHandle)).filter
      fun m => decide (m.handle < next)).map (Node.trim fun h => decide (h < next)) =
      (o.nodes.filter fun m => decide (m.handle < next)).map
        (Node.trim fun h => decide (h < next)) := by
    rw [List.filter_map, List.map_map]
    simp only [Function.comp_def, Node.adopt_handle, htrim]
  rw [insert_eq]
  simp only [past, restrict, hroots, List.filter_append, List.map_append, hnodes]
  simp [hnew]

theorem update_past {f : Node → Node} (hf : KeepsPlace f) {h : Handle} (hnext : next ≤ h) :
    (o.update h f).past next = o.past next := by
  have hhandle : ∀ n : Node, (if n.handle = h then f n else n).handle = n.handle := by
    intro n
    split
    · exact (hf n).1
    · rfl
  have hnodes : (o.nodes.map fun n => if n.handle = h then f n else n).filter
      (fun n => decide (n.handle < next)) = o.nodes.filter fun n => decide (n.handle < next) := by
    rw [List.filter_map]
    simp only [Function.comp_def, hhandle]
    rw [List.map_congr_left (g := id), List.map_id]
    intro n hn
    have hlt := of_decide_eq_true (List.mem_filter.mp hn).2
    exact if_neg fun heq : n.handle = h => Nat.not_lt.mpr hnext (heq ▸ hlt)
  simp only [past, restrict, update, hnodes]

theorem push_past {effects : List Effect}
    (hnext : ∀ e ∈ effects, ∃ h, e.node? = some h ∧ next ≤ h) :
    (o.push effects).past next = o.past next := by
  have houtbox : effects.filter (fun e => e.node?.all fun h => decide (h < next)) = [] := by
    rw [List.filter_eq_nil_iff]
    intro e he
    obtain ⟨h, hnode, hle⟩ := hnext e he
    simp [hnode, hle]
  simp only [past, restrict, push, List.filter_append, houtbox, List.append_nil]

theorem stageUpload_past {h : Handle} (e : Entity) (hnext : next ≤ h) :
    (o.stageUpload h e).past next = o.past next := by
  rw [stageUpload]
  split
  · rw [push_past, update_past _ hnext]
    · exact fun _ => ⟨rfl, rfl, rfl⟩
    · intro effect he
      rw [List.mem_singleton.mp he]
      exact ⟨h, rfl, hnext⟩
  · rfl

/-- Of the past, drawing one node changes only what it replaces. -/
theorem Arena.append_past (ha : o.Arena) (at' : Place) (e : Entity) (hnext : next ≤ o.nextHandle) :
    (o.append at' e).2.past next = (o.past next).cleared at' e := by
  have hplaced : (o.placed at' e).past next = (o.past next).cleared at' e := by
    rw [placed, insert_past _ (by simpa using hnext), Outline.cleared, Outline.cleared]
    split
    · exact ha.displace_past _
    · rfl
  rw [ha.append_snd]
  split
  · rw [push_past, update_past (keepsPlace_inState _) hnext, hplaced]
    intro effect he
    rw [List.mem_singleton.mp he]
    exact ⟨o.nextHandle, rfl, hnext⟩
  · exact hplaced

end Outline

end ContentConsole
