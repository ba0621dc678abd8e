import ContentConsole.Proofs.Outline.Edit

set_option autoImplicit false
set_option relaxedAutoImplicit false

/-!
Nodes that wait. A node waits for its children or for its upload only as long as somebody has been
asked for them: the effect stands in the outbox, or it was taken out and its answer is still to
come. Main statements: `Awaited.perform`, by which every action but emptying the outbox keeps
this, and `Awaited.fetched` and `Awaited.uploaded`, by which an answer is no longer counted on
once its node has stopped waiting.
-/
namespace ContentConsole

namespace Outline

def AsksFetch (o : Outline) (h : Handle) : Prop :=
  ∃ id resourceId, .fetchChildren h id resourceId ∈ o.outbox

def AsksUpload (o : Outline) (h : Handle) : Prop := ∃ e, .upload h e ∈ o.outbox

/-- Each node that waits is asked for, by the outbox or among the answers still to come. -/
structure Awaited (o : Outline) (fetching uploading : List Handle) : Prop where
  fetch : ∀ n ∈ o.nodes, n.expansion = .fetching → o.AsksFetch n.handle ∨ n.handle ∈ fetching
  upload : ∀ n ∈ o.nodes, n.upload = .pending → o.AsksUpload n.handle ∨ n.handle ∈ uploading

variable {o o' : Outline} {fetching uploading : List Handle}

theorem awaited_start (openKeys : OpenKeys) : (start openKeys).Awaited [] [] where
  fetch := by simp [start]
  upload := by simp [start]

/-- No node waits for its children or its upload. -/
def Quiet (o : Outline) : Prop := ∀ n ∈ o.nodes, n.expansion ≠ .fetching ∧ n.upload ≠ .pending

instance (o : Outline) : Decidable o.Quiet :=
  inferInstanceAs (Decidable (∀ n ∈ o.nodes, n.expansion ≠ .fetching ∧ n.upload ≠ .pending))

theorem Awaited.quiet (hw : o.Awaited [] []) (hempty : o.outbox = []) : o.Quiet := by
  intro n hn
  constructor
  · intro hfetching
    have hasked := hw.fetch n hn hfetching
    simp [AsksFetch, hempty] at hasked
  · intro hpending
    have hasked := hw.upload n hn hpending
    simp [AsksUpload, hempty] at hasked

theorem Awaited.takeEffects (hw : o.Awaited [] [])
    (hfetching : ∀ h id resourceId, .fetchChildren h id resourceId ∈ o.outbox → h ∈ fetching)
    (huploading : ∀ h e, .upload h e ∈ o.outbox → h ∈ uploading) :
    o.takeEffects.2.Awaited fetching uploading where
  fetch := by
    intro n hn hwaits
    rcases hw.fetch n hn hwaits with ⟨id, resourceId, hasked⟩ | hnone
    · exact .inr (hfetching n.handle id resourceId hasked)
    · cases hnone
  upload := by
    intro n hn hwaits
    rcases hw.upload n hn hwaits with ⟨e, hasked⟩ | hnone
    · exact .inr (huploading n.handle e hasked)
    · cases hnone

/-! Nodes that start to wait are asked for at once. -/

namespace Awaited

theorem mono (hw : o.Awaited fetching uploading)
    (hfetch : ∀ m ∈ o'.nodes, m.expansion = .fetching →
      o'.AsksFetch m.handle ∨ ∃ n ∈ o.nodes, n.handle = m.handle ∧ n.expansion = .fetching)
    (hupload : ∀ m ∈ o'.nodes, m.upload = .pending →
      o'.AsksUpload m.handle ∨ ∃ n ∈ o.nodes, n.handle = m.handle ∧ n.upload = .pending)
    (houtbox : ∀ e ∈ o.outbox, ∀ h, e.node? = some h → o'.isLive h = true → e ∈ o'.outbox) :
    o'.Awaited fetching uploading where
  fetch := by
    intro m hm hwaits
    rcases hfetch m hm hwaits with hasked | ⟨n, hn, hhandle, hwaited⟩
    · exact .inl hasked
    · rw [← hhandle]
      refine (hw.fetch n hn hwaited).imp_left ?_
      rintro ⟨id, resourceId, hasked⟩
      exact ⟨id, resourceId, houtbox _ hasked n.handle rfl (hhandle ▸ isLive_of_mem hm)⟩
  upload := by
    intro m hm hwaits
    rcases hupload m hm hwaits with hasked | ⟨n, hn, hhandle, hwaited⟩
    · exact .inl hasked
    · rw [← hhandle]
      refine (hw.upload n hn hwaited).imp_left ?_
      rintro ⟨e, hasked⟩
      exact ⟨e, houtbox _ hasked n.handle rfl (hhandle ▸ isLive_of_mem hm)⟩

theorem restrict (hw : o.Awaited fetching uploading) (keep : Handle → Bool) :
    (o.restrict keep).Awaited fetching uploading := by
  refine hw.mono (fun m hm hwaits => ?_) (fun m hm hwaits => ?_) fun e he h hnode hlive => ?_
  · obtain ⟨n, hn, -, rfl⟩ := mem_restrict_nodes.mp hm
    exact .inr ⟨n, hn, rfl, hwaits⟩
  · obtain ⟨n, hn, -, rfl⟩ := mem_restrict_nodes.mp hm
    exact .inr ⟨n, hn, rfl, hwaits⟩
  · have hkeep := (isLive_restrict.mp hlive).2
    exact List.mem_filter.mpr ⟨he, by simp [hnode, hkeep]⟩

theorem update_push (hw : o.Awaited fetching uploading) {f : Node → Node} (h : Handle)
    (effects : List Effect) (hhandle : ∀ n, (f n).handle = n.handle)
    (hfetch : ∀ n, (f n).expansion = .fetching → n.expansion = .fetching ∨
      ∃ id resourceId, .fetchChildren h id resourceId ∈ effects)
    (hupload : ∀ n, (f n).upload = .pending → n.upload = .pending ∨ ∃ e, .upload h e ∈ effects) :
    ((o.update h f).push effects).Awaited fetching uploading := by
  refine hw.mono (fun m hm hwaits => ?_) (fun m hm hwaits => ?_) fun e he _ _ _ => ?_
  · obtain ⟨n, hn, rfl⟩ := mem_update_nodes.mp hm
    split at hwaits
    · rename_i hself
      rw [if_pos hself, hhandle, hself]
      rcases hfetch n hwaits with hwaited | ⟨id, resourceId, hasked⟩
      · exact .inr ⟨n, hn, hself, hwaited⟩
      · exact .inl ⟨id, resourceId, List.mem_append_right _ hasked⟩
    · rename_i hother
      rw [if_neg hother]
      exact .inr ⟨n, hn, rfl, hwaits⟩
  · obtain ⟨n, hn, rfl⟩ := mem_update_nodes.mp hm
    split at hwaits
    · rename_i hself
      rw [if_pos hself, hhandle, hself]
      rcases hupload n hwaits with hwaited | ⟨e, hasked⟩
      · exact .inr ⟨n, hn, hself, hwaited⟩
      · exact .inl ⟨e, List.mem_append_right _ hasked⟩
    · rename_i hother
      rw [if_neg hother]
      exact .inr ⟨n, hn, rfl, hwaits⟩
  · exact List.mem_append_left effects he

theorem update (hw : o.Awaited fetching uploading) {f : Node → Node} (h : Handle)
    (hhandle : ∀ n, (f n).handle = n.handle)
    (hfetch : ∀ n, (f n).expansion = .fetching → n.expansion = .fetching)
    (hupload : ∀ n, (f n).upload = .pending → n.upload = .pending) :
    (o.update h f).Awaited fetching uploading := by
  have hpushed := hw.update_push h [] hhandle (fun n hn => .inl (hfetch n hn))
    fun n hn => .inl (hupload n hn)
  rwa [push_nil] at hpushed

theorem withKeys (hw : o.Awaited fetching uploading) (openKeys : OpenKeys)
    (selected : Option Handle) :
    ({ o with openKeys, selected }).Awaited fetching uploading := ⟨hw.fetch, hw.upload⟩

theorem openNode (hw : o.Awaited fetching uploading) (h : Handle) :
    (o.openNode h).Awaited fetching uploading := by
  rw [Outline.openNode]
  split
  · exact hw
  · rename_i n _
    have hopened := hw.update_push (f := fun n => { n with expansion := .fetching }) h
      [.fetchChildren h n.entityId n.resourceId] (fun _ => rfl)
      (fun _ _ => .inr ⟨n.entityId, n.resourceId, List.mem_singleton.mpr rfl⟩) fun _ hn => .inl hn
    exact hopened.withKeys _ o.selected

theorem stageUpload (hw : o.Awaited fetching uploading) (h : Handle) (e : Entity) :
    (o.stageUpload h e).Awaited fetching uploading := by
  rw [Outline.stageUpload]
  split
  · exact hw.update_push h _ (fun _ => rfl) (fun _ hn => .inl hn) fun _ _ =>
      .inr ⟨e, List.mem_singleton.mpr rfl⟩
  · exact hw

theorem insert (hw : o.Awaited fetching uploading) {n : Node} (hfetch : n.expansion ≠ .fetching)
    (hupload : n.upload ≠ .pending) : (o.insert n).2.Awaited fetching uploading := by
  have houtbox : (o.insert n).2.outbox = o.outbox := by rw [insert_eq]
  refine hw.mono (fun m hm hwaits => ?_) (fun m hm hwaits => ?_) fun e he _ _ _ => houtbox ▸ he
  · rcases mem_insert_nodes.mp hm with ⟨k, hk, rfl⟩ | rfl
    · exact .inr ⟨k, hk, by simp, by simpa using hwaits⟩
    · exact absurd hwaits hfetch
  · rcases mem_insert_nodes.mp hm with ⟨k, hk, rfl⟩ | rfl
    · exact .inr ⟨k, hk, by simp, by simpa using hwaits⟩
    · exact absurd hwaits hupload

/-! Drawing. -/

theorem prune (hw : o.Awaited fetching uploading) (ha : o.Arena) (h : Handle) :
    (o.prune h).Awaited fetching uploading := by
  rw [ha.prune_eq_restrict]
  exact hw.restrict _

theorem cleared (hw : o.Awaited fetching uploading) (ha : o.Arena) (at' : Place) (e : Entity) :
    (o.cleared at' e).Awaited fetching uploading := by
  rw [Outline.cleared]
  split
  · rw [displace]
    split
    · exact hw.prune ha _
    · exact hw
  · exact hw

theorem drawNode (hw : o.Awaited fetching uploading) (ha : o.Arena) (at' : Place) (e : Entity)
    (uploads : Bool) : (o.drawNode at' e uploads).Awaited fetching uploading := by
  have hfresh : (freshNode at' e).expansion ≠ .fetching := by
    rw [freshNode]
    split <;> simp
  have hplaced : (o.placed at' e).Awaited fetching uploading :=
    (hw.cleared ha at' e).insert hfresh (by simp [freshNode])
  have happended : (o.append at' e).2.Awaited fetching uploading := by
    rw [append_eq]
    dsimp only
    split
    · exact hplaced.openNode _
    · exact hplaced
  rw [Outline.drawNode]
  split
  · exact happended.stageUpload _ e
  · exact happended

theorem drawPlan (hw : o.Awaited fetching uploading) (ha : o.Arena) (at' : Place) (plan : Plan) :
    (o.drawPlan at' plan).Awaited fetching uploading := by
  refine ha.drawPlan_induction (P := fun o => o.Awaited fetching uploading) ?_ hw at' plan
  exact fun _ at' e uploads ha hw => hw.drawNode ha at' e uploads

theorem receiveEach (hw : o.Awaited fetching uploading) (ha : o.Arena) (n : Node)
    (children : List Entity) : (o.receiveEach n children).2.Awaited fetching uploading := by
  refine ha.receiveEach_induction (P := fun o => o.Awaited fetching uploading) ?_ hw n children
  exact fun _ at' e uploads ha hw => hw.drawNode ha at' e uploads

/-! Edits. -/

theorem edited (hw : o.Awaited fetching uploading) (hedit : o.Edited o') :
    o'.Awaited fetching uploading := by
  cases hedit with
  | marked openKeys selected => exact hw.withKeys openKeys selected
  | pruned keep openKeys hkeep => exact (hw.restrict keep).withKeys openKeys _
  | opened n hn => exact hw.openNode n.handle
  | closed n keep openKeys hkeep =>
    have hclosed := (hw.restrict keep).update (f := Node.inState .collapsed) n.handle (fun _ => rfl)
      (fun _ h => by cases h) fun _ h => h
    exact hclosed.withKeys openKeys _
  | committed h => exact hw.update h (fun _ => rfl) (fun _ hn => hn) fun _ hn => by cases hn
  | renamed h _ hr =>
    rcases hr with rfl | ⟨f, effects, rfl, hf, -⟩
    · exact hw
    · refine hw.update_push h effects (fun n => ?_) (fun n hn => .inl ?_) fun n hn => .inl ?_
      · rw [hf n]
      · rwa [hf n] at hn
      · rwa [hf n] at hn

/-! Answers that come. -/

theorem receive (hw : o.Awaited fetching uploading) (ha : o.Arena) (h : Handle)
    (children : List Entity) : (o.receive h children).2.Awaited fetching uploading := by
  rcases o.receive_snd h children with heq | ⟨n, -, -, heq⟩
  · rwa [heq]
  · rw [heq]
    exact (hw.receiveEach ha n children).update h (fun _ => rfl)
      (fun _ hn => by cases hn) fun _ hn => hn

theorem fetched {h : Handle} (hw : o.Awaited (h :: fetching) uploading)
    (hdone : ∀ n ∈ o.nodes, n.handle = h → n.expansion ≠ .fetching) :
    o.Awaited fetching uploading where
  fetch := by
    intro n hn hwaits
    refine (hw.fetch n hn hwaits).imp_right fun hmem => ?_
    rcases List.mem_cons.mp hmem with hself | hrest
    · exact absurd hwaits (hdone n hn hself)
    · exact hrest
  upload := hw.upload

theorem uploaded {h : Handle} (hw : o.Awaited fetching (h :: uploading))
    (hdone : ∀ n ∈ o.nodes, n.handle = h → n.upload ≠ .pending) : o.Awaited fetching uploading where
  fetch := hw.fetch
  upload := by
    intro n hn hwaits
    refine (hw.upload n hn hwaits).imp_right fun hmem => ?_
    rcases List.mem_cons.mp hmem with hself | hrest
    · exact absurd hwaits (hdone n hn hself)
    · exact hrest

theorem perform (hw : o.Awaited fetching uploading) (ha : o.Arena) {a : Action}
    (htake : a ≠ .takeEffects) : (o.perform a).Awaited fetching uploading := by
  have hedit : a.IsEdit → (o.perform a).Awaited fetching uploading :=
    fun h => hw.edited (ha.edited_perform h)
  cases a with
  | draw e parentId resourceId replaces isExpandable =>
    rw [Outline.perform, Outline.draw, drawAt_eq_drawPlan]
    exact hw.drawPlan ha _ _
  | drawTree e resourceId =>
    rw [Outline.perform, Outline.drawTree, graft, graftAll_eq_drawPlan]
    exact hw.drawPlan ha _ _
  | receive h children => exact hw.receive ha h children
  | takeEffects => exact absurd rfl htake
  | toggle | abandonFetch | settleUpload | remove | forget | click | editName
      | typeName | commitName
    | pressKey | retrack => exact hedit trivial

end Awaited

namespace Arena

theorem ne_fetching_of_receive (ha : o.Arena) {h : Handle} {children : List Entity} {m : Node}
    (hm : m ∈ (o.receive h children).2.nodes) (hhandle : m.handle = h) :
    m.expansion ≠ .fetching := by
  cases hnode : o.node? h with
  | none =>
    rw [Outline.receive, get, hnode] at hm
    rw [← hhandle, ha.node?_handle hm] at hnode
    cases hnode
  | some n =>
    by_cases hf : n.expansion = .fetching
    · rw [receive_eq hnode hf] at hm
      obtain ⟨k, -, rfl⟩ := mem_update_nodes.mp hm
      by_cases hself : k.handle = h
      · rw [if_pos hself]
        simp [arrived]
      · rw [if_neg hself] at hhandle
        exact absurd hhandle hself
    · rw [Outline.receive, get_eq_ok_iff.mpr hnode] at hm
      simp only [ne_eq, hf, not_false_eq_true, if_true] at hm
      obtain ⟨hn, hnh⟩ := mem_of_node? hnode
      rwa [ha.eq_of_handle hm hn (hhandle.trans hnh.symm)]

theorem ne_fetching_of_abandonFetch (ha : o.Arena) {h : Handle} (hf : o.abandonFetch h = .ok o')
    {m : Node} (hm : m ∈ o'.nodes) (hhandle : m.handle = h) : m.expansion ≠ .fetching := by
  rw [Outline.abandonFetch] at hf
  split at hf
  · cases hf
  · rename_i n hnode
    obtain ⟨hn, hnh⟩ := mem_of_node? (get_eq_ok_iff.mp hnode)
    split at hf
    · rename_i hnot
      cases hf
      rwa [ha.eq_of_handle hm hn (hhandle.trans hnh.symm)]
    · cases hf
      obtain ⟨k, -, rfl⟩ := mem_update_nodes.mp hm
      by_cases hself : k.handle = h
      · rw [if_pos hself]
        simp
      · rw [if_neg hself] at hhandle
        exact absurd hhandle hself

theorem ne_pending_of_settleUpload (ha : o.Arena) {h : Handle} {outcome : Except Fault Unit}
    {m : Node} (hm : m ∈ (o.settleUpload h outcome).2.nodes) (hhandle : m.handle = h) :
    m.upload ≠ .pending := by
  cases outcome with
  | error e =>
    have hlive := isLive_of_mem hm
    rw [Outline.settleUpload, ha.prune_eq_restrict, isLive_restrict, hhandle] at hlive
    rw [ha.outside_iff hlive.1] at hlive
    exact absurd .refl hlive.2
  | ok confirmed =>
    rw [Outline.settleUpload] at hm
    split at hm
    · rename_i hget
      rw [get, ← hhandle, ha.node?_handle hm] at hget
      cases hget
    · obtain ⟨k, -, rfl⟩ := mem_update_nodes.mp hm
      by_cases hself : k.handle = h
      · rw [if_pos hself]
        simp
      · rw [if_neg hself] at hhandle
        exact absurd hhandle hself

end Arena

end Outline

end ContentConsole
