import ContentConsole.Proofs.Outline.Continues

set_option autoImplicit false
set_option relaxedAutoImplicit false

/-!
What each action does to the names of the nodes. Main statement: `Arena.names_perform`, by which an
action opens one node's input, types into one, closes one and asks for its rename, or empties the
outbox, and otherwise leaves all names and all renames that wait as they are.
-/
namespace ContentConsole

/-- The effect is for no node, so it stays when nodes go: a property to
set, or previews to reload. -/
def Effect.isLasting (e : Effect) : Bool := e.node?.isNone

def Action.opens? : Action → Option Handle
  | .editName h => some h
  | _ => none

namespace Node

def isEditing (n : Node) : Bool :=
  match n.name with
  | .label _ => false
  | .editing _ => true

/-- Clicks are ignored and the buttons are hidden exactly while the name is edited. -/
def InStep (n : Node) : Prop := n.ignoresClicks = n.isEditing ∧ n.showsButtons = !n.isEditing

def SameLooks (m n : Node) : Prop :=
  m.name = n.name ∧ m.ignoresClicks = n.ignoresClicks ∧ m.showsButtons = n.showsButtons

def openInput (name : String) (n : Node) : Node :=
  { n with name := .editing (.start name), showsButtons := false, ignoresClicks := true }

def typeInto (input : NameInput) (text : String) (n : Node) : Node :=
  { n with name := .editing { input with buffer := text, isSelected := false } }

def closeInput (label : String) (n : Node) : Node :=
  { n with name := .label label, ignoresClicks := false, showsButtons := true }

variable {m n : Node}

theorem isEditing_of_label {name : String}
    (hname : n.name = .label name) : n.isEditing = false := by
  rw [isEditing, hname]

theorem isEditing_of_editing {input : NameInput}
    (hname : n.name = .editing input) : n.isEditing = true := by
  rw [isEditing, hname]

theorem keepsPlace_openInput (name : String) : Outline.KeepsPlace (openInput name) :=
  fun _ => ⟨rfl, rfl, rfl⟩

theorem keepsPlace_typeInto (input : NameInput) (text : String) :
    Outline.KeepsPlace (typeInto input text) :=
  fun _ => ⟨rfl, rfl, rfl⟩

theorem keepsPlace_closeInput (label : String) : Outline.KeepsPlace (closeInput label) :=
  fun _ => ⟨rfl, rfl, rfl⟩

theorem inStep_openInput (name : String) : (n.openInput name).InStep := ⟨rfl, rfl⟩

theorem inStep_closeInput (label : String) : (n.closeInput label).InStep := ⟨rfl, rfl⟩

theorem InStep.typeInto (hs : n.InStep) {input : NameInput} (hname : n.name = .editing input)
    (text : String) : (n.typeInto input text).InStep := by
  obtain ⟨hclicks, hbuttons⟩ := hs
  rw [isEditing_of_editing hname] at hclicks hbuttons
  exact ⟨hclicks, hbuttons⟩

theorem SameLooks.isEditing (hsame : m.SameLooks n) : m.isEditing = n.isEditing := by
  rw [Node.isEditing, Node.isEditing, hsame.1]

theorem SameLooks.inStep (hsame : m.SameLooks n) (hs : m.InStep) : n.InStep := by
  rwa [InStep, ← hsame.isEditing, ← hsame.2.1, ← hsame.2.2]

end Node

namespace Outline

variable {o o' o'' : Outline}

def lasting (o : Outline) : List Effect := o.outbox.filter Effect.isLasting

def opensName (o : Outline) (h : Handle) : Bool :=
  match o.editName h with
  | .ok (opened, _) => opened
  | .error _ => false

/-- From `o` to `o'` no node shows its name in another way, a new node shows a label,
and no rename is asked for. -/
structure KeepsNames (o o' : Outline) : Prop where
  nextHandle_le : o.nextHandle ≤ o'.nextHandle
  looks_old : ∀ n' ∈ o'.nodes, n'.handle < o.nextHandle → ∃ n ∈ o.nodes, n.handle = n'.handle ∧
    n.SameLooks n'
  looks_new : ∀ n' ∈ o'.nodes, o.nextHandle ≤ n'.handle → n'.isEditing = false ∧ n'.InStep
  lasting : o'.lasting = o.lasting

namespace KeepsNames

theorem of_old (ha : o.Arena) (hnext : o'.nextHandle = o.nextHandle)
    (hold : ∀ n' ∈ o'.nodes, ∃ n ∈ o.nodes, n.handle = n'.handle ∧ n.SameLooks n')
    (hlasting : o'.lasting = o.lasting) : o.KeepsNames o' where
  nextHandle_le := Nat.le_of_eq hnext.symm
  looks_old := fun n' hn' _ => hold n' hn'
  looks_new := by
    intro n' hn' hle
    obtain ⟨n, hn, hhandle, -⟩ := hold n' hn'
    exact absurd (hhandle ▸ ha.handle_lt n hn) (Nat.not_lt.mpr hle)
  lasting := hlasting

theorem of_nodes_eq (ha : o.Arena) (hnodes : o'.nodes = o.nodes)
    (hnext : o'.nextHandle = o.nextHandle) (hlasting : o'.lasting = o.lasting) :
    o.KeepsNames o' := by
  refine of_old ha hnext (fun n hn => ?_) hlasting
  rw [hnodes] at hn
  exact ⟨n, hn, rfl, rfl, rfl, rfl⟩

theorem refl (ha : o.Arena) : o.KeepsNames o := of_nodes_eq ha rfl rfl rfl

theorem trans (c : o.KeepsNames o') (c' : o'.KeepsNames o'') : o.KeepsNames o'' where
  nextHandle_le := Nat.le_trans c.nextHandle_le c'.nextHandle_le
  looks_old := by
    intro n'' hn'' hlt
    obtain ⟨n', hn', hhandle', hsame'⟩ :=
      c'.looks_old n'' hn'' (Nat.lt_of_lt_of_le hlt c.nextHandle_le)
    obtain ⟨n, hn, hhandle, hsame⟩ := c.looks_old n' hn' (hhandle' ▸ hlt)
    exact ⟨n, hn, hhandle.trans hhandle', hsame.1.trans hsame'.1, hsame.2.1.trans hsame'.2.1,
      hsame.2.2.trans hsame'.2.2⟩
  looks_new := by
    intro n'' hn'' hle
    by_cases hlt : n''.handle < o'.nextHandle
    · obtain ⟨n', hn', hhandle', hsame'⟩ := c'.looks_old n'' hn'' hlt
      obtain ⟨hediting, hstep⟩ := c.looks_new n' hn' (hhandle' ▸ hle)
      exact ⟨hsame'.isEditing ▸ hediting, hsame'.inStep hstep⟩
    · exact c'.looks_new n'' hn'' (Nat.le_of_not_lt hlt)
  lasting := c'.lasting.trans c.lasting

end KeepsNames

/-! Effects for nodes come and go beside those that last. -/

theorem lasting_restrict (keep : Handle → Bool) : (o.restrict keep).lasting = o.lasting := by
  rw [lasting, restrict, List.filter_filter, lasting]
  refine List.filter_congr fun e _ => ?_
  rw [Effect.isLasting]
  cases e.node? <;> rfl

theorem lasting_append {effects : List Effect} (houtbox : o'.outbox = o.outbox ++ effects)
    (hnode : ∀ e ∈ effects, e.isLasting = false) : o'.lasting = o.lasting := by
  have hnone : effects.filter Effect.isLasting = [] :=
    List.filter_eq_nil_iff.mpr fun e he => Bool.not_eq_true _ ▸ hnode e he
  rw [lasting, houtbox, List.filter_append, hnone, List.append_nil, lasting]

/-! What draws, and what edits nodes without showing them in another way, keeps the names. -/

namespace Arena

theorem keepsNames_restrict (ha : o.Arena) (keep : Handle → Bool) :
    o.KeepsNames (o.restrict keep) := by
  refine .of_old ha rfl (fun n' hn' => ?_) (lasting_restrict keep)
  obtain ⟨n, hn, -, rfl⟩ := mem_restrict_nodes.mp hn'
  exact ⟨n, hn, rfl, rfl, rfl, rfl⟩

theorem keepsNames_update (ha : o.Arena) {f : Node → Node} (h : Handle)
    (hf : ∀ n, (f n).handle = n.handle ∧ n.SameLooks (f n)) : o.KeepsNames (o.update h f) := by
  refine .of_old ha rfl (fun n' hn' => ?_) rfl
  obtain ⟨n, hn, rfl⟩ := mem_update_nodes.mp hn'
  refine ⟨n, hn, ?_⟩
  split
  · exact ⟨(hf n).1.symm, (hf n).2⟩
  · exact ⟨rfl, rfl, rfl, rfl⟩

theorem keepsNames_drawNode (ha : o.Arena) (at' : Place) (e : Entity) (uploads : Bool) :
    o.KeepsNames (o.drawNode at' e uploads) where
  nextHandle_le := by
    rw [ha.drawNode_nextHandle]
    exact Nat.le_succ _
  looks_old := by
    intro m hm hlt
    rcases ha.same_drawNode hm with ⟨n, hn, hsame⟩ | rfl
    · rw [hsame]
      exact ⟨n, hn, rfl, rfl, rfl, rfl⟩
    · exact absurd hlt (Nat.lt_irrefl _)
  looks_new := by
    intro m hm hle
    rcases ha.same_drawNode hm with ⟨n, hn, hsame⟩ | rfl
    · have hhandle : m.handle = n.handle := by rw [hsame]
      exact absurd (ha.handle_lt n hn) (Nat.not_lt.mpr (hhandle ▸ hle))
    · exact ⟨rfl, rfl, rfl⟩
  lasting := by
    have hcleared : (o.cleared at' e).lasting = o.lasting := by
      obtain ⟨keep, hcleared⟩ := ha.cleared_eq_restrict at' e
      rw [hcleared, lasting_restrict]
    refine (lasting_append (ha.drawNode_outbox at' e uploads) fun asked hasked => ?_).trans hcleared
    rcases List.mem_append.mp hasked with hfetch | hupload
    · split at hfetch
      · rw [List.mem_singleton.mp hfetch]
        rfl
      · cases hfetch
    · split at hupload
      · rw [List.mem_singleton.mp hupload]
        rfl
      · cases hupload

theorem keepsNames_drawPlan (ha : o.Arena) (at' : Place) (plan : Plan) :
    o.KeepsNames (o.drawPlan at' plan) := by
  refine ha.drawPlan_induction (P := o.KeepsNames) ?_ (.refl ha) at' plan
  intro o' at' e uploads ha' c
  exact c.trans (ha'.keepsNames_drawNode at' e uploads)

theorem keepsNames_receive (ha : o.Arena) (h : Handle) (children : List Entity) :
    o.KeepsNames (o.receive h children).2 := by
  rcases o.receive_snd h children with heq | ⟨n, -, -, heq⟩
  · rw [heq]
    exact .refl ha
  · have hdrawn : o.KeepsNames (o.receiveEach n children).2 := by
      refine ha.receiveEach_induction (P := o.KeepsNames) ?_ (.refl ha) n children
      intro o' at' e uploads ha' c
      exact c.trans (ha'.keepsNames_drawNode at' e uploads)
    rw [heq]
    refine hdrawn.trans ((drawing_receiveEach ha n children).arena.keepsNames_update h ?_)
    exact fun _ => ⟨rfl, rfl, rfl, rfl⟩

theorem keepsNames_reshaped (ha : o.Arena) (hr : o.Reshaped o') : o.KeepsNames o' := by
  have hstate : ∀ (o : Outline) (n : Node) (state : Expansion), o.Arena →
      o.KeepsNames (o.update n.handle (Node.inState state)) :=
    fun _ n _ ha => ha.keepsNames_update n.handle fun _ => ⟨rfl, rfl, rfl, rfl⟩
  cases hr with
  | marked openKeys selected => exact .of_nodes_eq ha rfl rfl rfl
  | pruned keep openKeys hkeep =>
    exact (ha.keepsNames_restrict keep).trans (.of_nodes_eq (ha.restrict hkeep) rfl rfl rfl)
  | opened n hn =>
    have hfetching := ha.update (keepsPlace_inState .fetching) n.handle
    rw [ha.openNode_eq hn]
    refine (hstate o n .fetching ha).trans (.of_nodes_eq hfetching rfl rfl (lasting_append rfl ?_))
    intro e he
    rw [List.mem_singleton.mp he]
    rfl
  | closed n keep openKeys hkeep =>
    have ha' := ha.restrict hkeep
    have hcollapsed := ha'.update (keepsPlace_inState .collapsed) n.handle
    exact (ha.keepsNames_restrict keep).trans
      ((hstate _ n .collapsed ha').trans (.of_nodes_eq hcollapsed rfl rfl rfl))
  | committed h => exact ha.keepsNames_update h fun _ => ⟨rfl, rfl, rfl, rfl⟩

end Arena

/-- What an action does to the names of the nodes and to the renames that wait. -/
inductive Names (o : Outline) : Action → Outline → Prop
  | kept {a : Action} {o' : Outline} (c : o.KeepsNames o')
      (hquiet : ∀ h, a.opens? = some h → o.opensName h = false) : Names o a o'
  | taken : Names o .takeEffects o.takeEffects.2
  | opened {n : Node} {name : String} (hn : n ∈ o.nodes) (hname : n.name = .label name) :
      Names o (.editName n.handle) (o.update n.handle (Node.openInput name))
  | typed {n : Node} {input : NameInput} (hn : n ∈ o.nodes) (hname : n.name = .editing input)
      (text : String) :
      Names o (.typeName n.handle text) (o.update n.handle (Node.typeInto input text))
  | closed {a : Action} {n : Node} {input : NameInput} (hn : n ∈ o.nodes)
      (hname : n.name = .editing input)
      (hcommits : a = .commitName n.handle ∨ a = .pressKey n.handle .enter) :
      Names o a ((o.update n.handle (Node.closeInput input.buffer)).push
        [.setProperty n.entityId "name" (.str input.buffer), .reloadPreviews])

theorem KeepsNames.names {a : Action} (c : o.KeepsNames o')
    (hnone : a.opens? = none) : o.Names a o' := by
  refine .kept c fun h hsome => ?_
  rw [hnone] at hsome
  cases hsome

namespace Arena

theorem opensName_iff (ha : o.Arena) {n : Node} (hn : n ∈ o.nodes) :
    o.opensName n.handle = true ↔ n.isEditing = false := by
  rw [opensName, Outline.editName, get_eq_ok_iff.mpr (ha.node?_handle hn)]
  cases hname : n.name with
  | label name => simp [hname, Node.isEditing]
  | editing input => simp [hname, Node.isEditing]

theorem names_editName (ha : o.Arena) (h : Handle) :
    o.Names (.editName h) (o.perform (.editName h)) := by
  rw [Outline.perform, Outline.editName]
  cases hget : o.get h with
  | error e =>
    refine .kept (.refl ha) fun k hk => ?_
    cases hk
    rw [opensName, Outline.editName, hget]
  | ok n =>
    obtain ⟨hn, rfl⟩ := mem_of_node? (get_eq_ok_iff.mp hget)
    cases hname : n.name with
    | label name =>
      simp only [hname]
      exact .opened hn hname
    | editing input =>
      simp only [hname]
      refine .kept (.refl ha) fun k hk => ?_
      cases hk
      rw [← Bool.not_eq_true, ha.opensName_iff hn, Node.isEditing_of_editing hname]
      exact Bool.noConfusion

theorem names_typeName (ha : o.Arena) (h : Handle) (text : String) :
    o.Names (.typeName h text) (o.perform (.typeName h text)) := by
  have hkept : o.Names (.typeName h text) o := (KeepsNames.refl ha).names rfl
  rw [Outline.perform, Outline.typeName]
  cases hget : o.get h with
  | error e => exact hkept
  | ok n =>
    obtain ⟨hn, rfl⟩ := mem_of_node? (get_eq_ok_iff.mp hget)
    cases hname : n.name with
    | label name =>
      simp only [hname]
      exact hkept
    | editing input =>
      simp only [hname]
      exact .typed hn hname text

theorem names_commit (ha : o.Arena) {a : Action} {h : Handle}
    (hcommits : a = .commitName h ∨ a = .pressKey h .enter) :
    o.Names a (o.after ((o.commitName h).map Prod.snd)) := by
  have hkept : o.Names a o := by
    refine (KeepsNames.refl ha).names ?_
    rcases hcommits with rfl | rfl <;> rfl
  rw [Outline.commitName]
  cases hget : o.get h with
  | error e => exact hkept
  | ok n =>
    obtain ⟨hn, rfl⟩ := mem_of_node? (get_eq_ok_iff.mp hget)
    cases hname : n.name with
    | label name =>
      simp only [hname]
      exact hkept
    | editing input =>
      simp only [hname]
      exact .closed hn hname hcommits

theorem names_perform (ha : o.Arena) (a : Action) : o.Names a (o.perform a) := by
  have hself := KeepsNames.refl ha
  have hreshaped : ∀ {o'}, o.Reshaped o' → o.KeepsNames o' := fun hr => ha.keepsNames_reshaped hr
  cases a with
  | draw e parentId resourceId replaces isExpandable =>
    rw [Outline.perform, Outline.draw, drawAt_eq_drawPlan]
    exact (ha.keepsNames_drawPlan _ _).names rfl
  | drawTree e resourceId =>
    rw [Outline.perform, Outline.drawTree, Outline.graft, graftAll_eq_drawPlan]
    exact (ha.keepsNames_drawPlan _ _).names rfl
  | toggle h =>
    have hkept : o.KeepsNames (o.perform (.toggle h)) :=
      after_map_induction hself fun _ _ ht => hreshaped (ha.reshaped_toggle ht)
    exact hkept.names rfl
  | receive h children => exact (ha.keepsNames_receive h children).names rfl
  | abandonFetch h =>
    have hkept : o.KeepsNames (o.perform (.abandonFetch h)) :=
      after_induction hself fun _ hf => hreshaped (ha.reshaped_abandonFetch hf)
    exact hkept.names rfl
  | settleUpload h outcome => exact (hreshaped (ha.reshaped_settleUpload h outcome)).names rfl
  | remove h =>
    have hkept : o.KeepsNames (o.perform (.remove h)) :=
      after_map_induction hself fun _ _ hr => remove_ok hr ▸ hreshaped (ha.reshaped_prune h)
    exact hkept.names rfl
  | forget entityId => exact (hreshaped (ha.reshaped_forget entityId)).names rfl
  | click h =>
    have hkept : o.KeepsNames (o.perform (.click h)) :=
      after_map_induction hself fun _ _ hc => hreshaped (reshaped_click hc)
    exact hkept.names rfl
  | editName h => exact ha.names_editName h
  | typeName h text => exact ha.names_typeName h text
  | commitName h => exact ha.names_commit (.inl rfl)
  | pressKey h key =>
    cases key with
    | enter => exact ha.names_commit (.inr rfl)
    | other => exact hself.names rfl
  | takeEffects => exact .taken
  | retrack openKeys => exact (hreshaped (.marked openKeys o.selected)).names rfl

end Arena

end Outline

end ContentConsole
