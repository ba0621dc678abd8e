import ContentConsole.Proofs.Outline.Naming

set_option autoImplicit false
set_option relaxedAutoImplicit false

/-!
Renames over whole runs. Main statement: `renames_once`, by which the view asks for a rename exactly
when a node's input closes, and each opening of an input leads to one rename at most.
-/
namespace ContentConsole

/-- A node's input closed: what was typed into it, and the label that the node has then. -/
structure Closing where
  node : Handle
  entityId : String
  buffer : String
  label : String
deriving DecidableEq, Repr

def Closing.effects (c : Closing) : List Effect :=
  [.setProperty c.entityId "name" (.str c.buffer), .reloadPreviews]

def Node.closing? (n n' : Node) : Option Closing :=
  match n.name, n'.name with
  | .editing input, .label label => some ⟨n.handle, n.entityId, input.buffer, label⟩
  | _, _ => none

namespace Node

variable {n n' : Node}

theorem closing?_of_label {name : String} (hname : n.name = .label name) :
    n.closing? n' = none := by
  rw [closing?, hname]

theorem closing?_of_isEditing (hediting : n'.isEditing = true) : n.closing? n' = none := by
  rw [closing?]
  cases hname' : n'.name with
  | label name => simp [isEditing, hname'] at hediting
  | editing input => cases n.name <;> rfl

theorem closing?_of_name_eq (hname : n.name = n'.name) : n.closing? n' = none := by
  cases hname' : n'.name with
  | label name => exact closing?_of_label (hname.trans hname')
  | editing input => exact closing?_of_isEditing (isEditing_of_editing hname')

end Node

namespace Outline

variable {o o' : Outline}

/-- The nodes of `o` whose names went from an input to a label in `o'`. -/
def closings (o o' : Outline) : List Closing :=
  o.nodes.filterMap fun n => (o'.node? n.handle).bind n.closing?

/-- The closings along a run, in their order. -/
def renamings (o : Outline) : List Action → List Closing
  | [] => []
  | a :: actions => o.closings (o.perform a) ++ (o.perform a).renamings actions

def handedOut (o : Outline) : Action → List Effect
  | .takeEffects => o.outbox
  | _ => []

def taken (o : Outline) : List Action → List Effect
  | [] => []
  | a :: actions => o.handedOut a ++ (o.perform a).taken actions

def opening (o : Outline) (h : Handle) (a : Action) : Nat :=
  if a.opens? = some h then (o.opensName h).toNat else 0

def openings (o : Outline) (h : Handle) : List Action → Nat
  | [] => 0
  | a :: actions => o.opening h a + (o.perform a).openings h actions

def closingsOf (h : Handle) (closed : List Closing) : Nat := closed.countP fun c => c.node = h

def pending (o : Outline) (h : Handle) : Nat := ((o.node? h).any Node.isEditing).toNat

/-! The closings of one step. -/

theorem closings_eq_nil (ha : o.Arena) (hold : ∀ n' ∈ o'.nodes, n'.handle < o.nextHandle →
    ∃ n ∈ o.nodes, n.handle = n'.handle ∧ n.name = n'.name) : o.closings o' = [] := by
  refine List.filterMap_eq_nil_iff.mpr fun n hn => ?_
  cases hnode : o'.node? n.handle with
  | none => rfl
  | some n' =>
    obtain ⟨hn', hhandle⟩ := mem_of_node? hnode
    obtain ⟨m, hm, hmn, hname⟩ := hold n' hn' (hhandle ▸ ha.handle_lt n hn)
    rw [ha.eq_of_handle hm hn (hmn.trans hhandle)] at hname
    exact Node.closing?_of_name_eq hname

theorem KeepsNames.closings_eq_nil (c : o.KeepsNames o') (ha : o.Arena) : o.closings o' = [] := by
  refine Outline.closings_eq_nil ha fun n' hn' hlt => ?_
  obtain ⟨n, hn, hhandle, hsame⟩ := c.looks_old n' hn' hlt
  exact ⟨n, hn, hhandle, hsame.1⟩

theorem Arena.closings_takeEffects (ha : o.Arena) : o.closings o.takeEffects.2 = [] :=
  closings_eq_nil ha fun n hn _ => ⟨n, hn, rfl, rfl⟩

theorem Arena.closings_update (ha : o.Arena) {f : Node → Node} (hf : KeepsPlace f) {n : Node}
    (hn : n ∈ o.nodes) : o.closings (o.update n.handle f) = (n.closing? (f n)).toList := by
  have hother : ∀ m ∈ o.nodes, m ≠ n →
      ((o.update n.handle f).node? m.handle).bind m.closing? = none := by
    intro m hm hne
    have hhandle : m.handle ≠ n.handle := fun heq => hne (ha.eq_of_handle hm hn heq)
    rw [ha.node?_update_of_ne hf hhandle, ha.node?_handle hm]
    exact Node.closing?_of_name_eq rfl
  have hself : ((o.update n.handle f).node? n.handle).bind n.closing? = n.closing? (f n) := by
    rw [ha.node?_update_self hf hn]
    rfl
  rw [closings, ha.filterMap_nodes hn hother, hself]

/-- What one step closes is what it asks for: at most one node, with what was typed as its label. -/
def AsksAsItCloses (o : Outline) (a : Action) (o' : Outline) : Prop :=
  (∃ c, o.closings o' = [c] ∧ c.label = c.buffer ∧ o'.outbox = o.outbox ++ c.effects) ∨
    o.closings o' = [] ∧ (o'.lasting = o.lasting ∨ a = .takeEffects ∧ o'.outbox = [])

theorem Names.asksAsItCloses {a : Action} (hnames : o.Names a o') (ha : o.Arena) :
    o.AsksAsItCloses a o' := by
  cases hnames with
  | kept c => exact .inr ⟨c.closings_eq_nil ha, .inl c.lasting⟩
  | taken => exact .inr ⟨ha.closings_takeEffects, .inr ⟨rfl, rfl⟩⟩
  | @opened n name hn hname =>
    refine .inr ⟨?_, .inl rfl⟩
    rw [ha.closings_update (Node.keepsPlace_openInput name) hn, Node.closing?_of_label hname]
    rfl
  | @typed n input hn hname text =>
    refine .inr ⟨?_, .inl rfl⟩
    rw [ha.closings_update (Node.keepsPlace_typeInto input text) hn, Node.closing?_of_isEditing rfl]
    rfl
  | @closed _ n input hn hname =>
    refine .inl ⟨⟨n.handle, n.entityId, input.buffer, input.buffer⟩, ?_, rfl, rfl⟩
    have hclosing : n.closing? (n.closeInput input.buffer) =
        some ⟨n.handle, n.entityId, input.buffer, input.buffer⟩ := by
      rw [Node.closing?, hname]
      rfl
    refine (ha.closings_update (Node.keepsPlace_closeInput input.buffer) hn).trans ?_
    rw [hclosing]
    rfl

/-! The flags. -/

theorem Names.inStep {a : Action} (hnames : o.Names a o') (ha : o.Arena)
    (hs : ∀ n ∈ o.nodes, n.InStep) : ∀ n' ∈ o'.nodes, n'.InStep := by
  have hupdate : ∀ {f : Node → Node} {n : Node}, n ∈ o.nodes → (f n).InStep →
      ∀ n' ∈ (o.update n.handle f).nodes, n'.InStep := by
    intro f n hn hf n' hn'
    obtain ⟨m, hm, rfl⟩ := mem_update_nodes.mp hn'
    split
    · rename_i hhandle
      rwa [ha.eq_of_handle hm hn hhandle]
    · exact hs m hm
  cases hnames with
  | kept c =>
    intro n' hn'
    by_cases hlt : n'.handle < o.nextHandle
    · obtain ⟨n, hn, -, hsame⟩ := c.looks_old n' hn' hlt
      exact hsame.inStep (hs n hn)
    · exact (c.looks_new n' hn' (Nat.le_of_not_lt hlt)).2
  | taken => exact hs
  | opened hn hname => exact hupdate hn (Node.inStep_openInput _)
  | typed hn hname text => exact hupdate hn ((hs _ hn).typeInto hname text)
  | closed hn hname => exact hupdate hn (Node.inStep_closeInput _)

theorem Arena.inStep_run (ha : o.Arena) (hs : ∀ n ∈ o.nodes, n.InStep) (actions : List Action) :
    ∀ n ∈ (o.run actions).nodes, n.InStep := by
  induction actions generalizing o with
  | nil => exact hs
  | cons a actions ih => exact ih (ha.perform a) ((ha.names_perform a).inStep ha hs)

/-! What is asked along a run. -/

theorem lasting_effects (closed : List Closing) :
    (closed.flatMap Closing.effects).filter Effect.isLasting = closed.flatMap Closing.effects := by
  refine List.filter_eq_self.mpr fun e he => ?_
  obtain ⟨c, -, hc⟩ := List.mem_flatMap.mp he
  rcases List.mem_pair.mp hc with rfl | rfl <;> rfl

theorem Arena.asked_perform (ha : o.Arena) (a : Action) :
    (o.handedOut a).filter Effect.isLasting ++ (o.perform a).lasting =
      o.lasting ++ (o.closings (o.perform a)).flatMap Closing.effects := by
  have hnone : a ≠ .takeEffects → o.handedOut a = [] := by
    intro hne
    cases a <;> first | rfl | exact absurd rfl hne
  have hsteps := (ha.names_perform a).asksAsItCloses ha
  by_cases htake : a = .takeEffects
  · subst htake
    have hclosings : o.closings (o.perform .takeEffects) = [] := ha.closings_takeEffects
    rw [hclosings]
    rfl
  · rw [hnone htake, List.filter_nil, List.nil_append]
    rcases hsteps with ⟨c, hc, -, houtbox⟩ | ⟨hc, hlasting | ⟨htake', -⟩⟩
    · have heffects := lasting_effects [c]
      rw [List.flatMap_singleton] at heffects
      rw [hc, lasting, houtbox, List.filter_append, heffects, List.flatMap_singleton, lasting]
    · rw [hc, hlasting, List.flatMap_nil, List.append_nil]
    · exact absurd htake' htake

theorem Arena.asked_run (ha : o.Arena) (actions : List Action) :
    (o.taken actions ++ (o.run actions).outbox).filter Effect.isLasting =
      o.lasting ++ (o.renamings actions).flatMap Closing.effects := by
  induction actions generalizing o with
  | nil => exact (List.append_nil _).symm
  | cons a actions ih =>
    have hrest := ih (ha.perform a)
    calc (o.taken (a :: actions) ++ (o.run (a :: actions)).outbox).filter Effect.isLasting
      _ = (o.handedOut a).filter Effect.isLasting ++
          (((o.perform a).taken actions ++ ((o.perform a).run actions).outbox).filter
            Effect.isLasting) := by
        rw [Outline.taken, List.append_assoc, List.filter_append]
        rfl
      _ = ((o.handedOut a).filter Effect.isLasting ++ (o.perform a).lasting) ++
          ((o.perform a).renamings actions).flatMap Closing.effects := by
            rw [hrest, List.append_assoc]
      _ = o.lasting ++ (o.renamings (a :: actions)).flatMap Closing.effects := by
        rw [ha.asked_perform, renamings, List.flatMap_append, List.append_assoc]

/-! Openings against closings. -/

theorem Arena.pending_of_mem (ha : o.Arena) {n : Node} (hn : n ∈ o.nodes) :
    o.pending n.handle = n.isEditing.toNat := by
  rw [pending, ha.node?_handle hn]
  rfl

theorem pending_of_not_isLive {h : Handle} (hh : o.isLive h = false) : o.pending h = 0 := by
  rw [pending, node?_eq_none hh]
  rfl

theorem Arena.pending_of_le (ha : o.Arena) {h : Handle}
    (hh : o.nextHandle ≤ h) : o.pending h = 0 := by
  refine pending_of_not_isLive ?_
  rw [← Bool.not_eq_true]
  exact fun hlive => Nat.not_lt.mpr hh (ha.isLive_lt hlive)

theorem KeepsNames.pending_eq (c : o.KeepsNames o') (ha : o.Arena) (ha' : o'.Arena) {h : Handle}
    (hh : o'.isLive h = true ∨ o'.nextHandle ≤ h) : o'.pending h = o.pending h := by
  rcases hh with hlive | hnext
  · obtain ⟨n', hn', rfl⟩ := isLive_iff.mp hlive
    rw [ha'.pending_of_mem hn']
    by_cases hlt : n'.handle < o.nextHandle
    · obtain ⟨n, hn, hhandle, hsame⟩ := c.looks_old n' hn' hlt
      rw [← hhandle, ha.pending_of_mem hn, hsame.isEditing]
    · have hle := Nat.le_of_not_lt hlt
      rw [(c.looks_new n' hn' hle).1, ha.pending_of_le hle]
      rfl
  · rw [ha'.pending_of_le hnext, ha.pending_of_le (Nat.le_trans c.nextHandle_le hnext)]

theorem Node.closingsOf_closing? (h : Handle) (n n' : Node) : closingsOf h (n.closing? n').toList =
    if n.handle = h then (n.isEditing && !n'.isEditing).toNat else 0 := by
  rw [Node.closing?, Node.isEditing, Node.isEditing]
  cases n.name <;> cases n'.name <;> simp [closingsOf]

theorem Arena.balance_update (ha : o.Arena) {f : Node → Node} (hf : KeepsPlace f) {n : Node}
    (hn : n ∈ o.nodes) (h : Handle) :
    closingsOf h (o.closings (o.update n.handle f)) + (o.update n.handle f).pending h =
      (if n.handle = h then (!n.isEditing && (f n).isEditing).toNat else 0) + o.pending h := by
  rw [ha.closings_update hf hn, Node.closingsOf_closing?]
  by_cases heq : n.handle = h
  · subst heq
    have hpending : (o.update n.handle f).pending n.handle = (f n).isEditing.toNat := by
      rw [pending, ha.node?_update_self hf hn]
      rfl
    rw [hpending, ha.pending_of_mem hn, if_pos rfl, if_pos rfl]
    cases n.isEditing <;> cases (f n).isEditing <;> rfl
  · have hpending : (o.update n.handle f).pending h = o.pending h := by
      rw [pending, ha.node?_update_of_ne hf (Ne.symm heq), pending]
    rw [hpending, if_neg heq, if_neg heq]

theorem Names.balance {a : Action} (hnames : o.Names a o') (ha : o.Arena) (ha' : o'.Arena)
    {h : Handle} (hh : o'.isLive h = true ∨ o'.nextHandle ≤ h) :
    closingsOf h (o.closings o') + o'.pending h = o.opening h a + o.pending h := by
  cases hnames with
  | kept c hquiet =>
    have hopening : o.opening h a = 0 := by
      rw [opening]
      split
      · rename_i hopens
        rw [hquiet h hopens]
        rfl
      · rfl
    rw [hopening, c.closings_eq_nil ha, c.pending_eq ha ha' hh]
    rfl
  | taken =>
    rw [ha.closings_takeEffects]
    rfl
  | @opened n name hn hname =>
    have hlabel := Node.isEditing_of_label hname
    have hopening : o.opening h (.editName n.handle) = if n.handle = h then 1 else 0 := by
      have hopens : (Action.editName n.handle).opens? = some n.handle := rfl
      rw [opening, hopens]
      by_cases heq : n.handle = h
      · subst heq
        rw [(ha.opensName_iff hn).mpr hlabel, if_pos rfl, if_pos rfl]
        rfl
      · rw [if_neg heq, if_neg fun hsome => heq (Option.some.inj hsome)]
    rw [ha.balance_update (Node.keepsPlace_openInput name) hn, hopening, hlabel]
    rfl
  | @typed n input hn hname text =>
    rw [ha.balance_update (Node.keepsPlace_typeInto input text) hn, Node.isEditing_of_editing hname]
    exact congrArg (· + o.pending h) (ite_self 0)
  | @closed _ n input hn hname hcommits =>
    have hopening : o.opening h a = 0 := by
      rcases hcommits with rfl | rfl <;> rfl
    have hbalance := ha.balance_update (Node.keepsPlace_closeInput input.buffer) hn h
    rw [Node.isEditing_of_editing hname, Bool.not_true, Bool.false_and, Bool.toNat_false,
      ite_self] at hbalance
    rw [hopening]
    exact hbalance

theorem closingsOf_of_not_isLive {h : Handle} (hh : o'.isLive h = false) :
    closingsOf h (o.closings o') = 0 := by
  refine List.countP_eq_zero.mpr fun c hc => ?_
  obtain ⟨n, -, hn⟩ := List.mem_filterMap.mp hc
  obtain ⟨n', hn', hclosing⟩ := Option.bind_eq_some_iff.mp hn
  have hnode : c.node = n.handle := by
    rw [Node.closing?] at hclosing
    split at hclosing
    · cases hclosing
      rfl
    · cases hclosing
  rw [decide_eq_true_iff, hnode]
  rintro rfl
  rw [isLive_of_node? hn'] at hh
  cases hh

namespace Arena

theorem balance_perform_le (ha : o.Arena) (a : Action) (h : Handle) :
    closingsOf h (o.closings (o.perform a)) + (o.perform a).pending h ≤
      o.opening h a + o.pending h := by
  by_cases hh : (o.perform a).isLive h = true
  · exact Nat.le_of_eq ((ha.names_perform a).balance ha (ha.perform a) (.inl hh))
  · have hgone := Bool.not_eq_true _ ▸ hh
    rw [closingsOf_of_not_isLive hgone, pending_of_not_isLive hgone]
    exact Nat.zero_le _

theorem balance_run_le (ha : o.Arena) (actions : List Action) (h : Handle) :
    closingsOf h (o.renamings actions) + (o.run actions).pending h ≤
      o.openings h actions + o.pending h := by
  induction actions generalizing o with
  | nil => exact Nat.le_refl _
  | cons a actions ih =>
    have hstep := ha.balance_perform_le a h
    have hrest := ih (ha.perform a)
    have hrun : o.run (a :: actions) = (o.perform a).run actions := rfl
    rw [renamings, closingsOf, List.countP_append, openings, hrun]
    rw [closingsOf] at hstep hrest
    omega

theorem balance_run (ha : o.Arena) (actions : List Action) {h : Handle}
    (hh : (o.run actions).isLive h = true ∨ (o.run actions).nextHandle ≤ h) :
    closingsOf h (o.renamings actions) + (o.run actions).pending h =
      o.openings h actions + o.pending h := by
  induction actions generalizing o with
  | nil => exact rfl
  | cons a actions ih =>
    have hrun : o.run (a :: actions) = (o.perform a).run actions := rfl
    rw [hrun] at hh
    have c := (ha.perform a).continues_run actions
    -- What is there at the end was there before, or was not made yet.
    have hbefore : (o.perform a).isLive h = true ∨ (o.perform a).nextHandle ≤ h := by
      by_cases hlt : h < (o.perform a).nextHandle
      · refine .inl (c.isLive_of_isLive hlt (hh.resolve_right ?_))
        exact Nat.not_le.mpr (Nat.lt_of_lt_of_le hlt c.nextHandle_le)
      · exact .inr (Nat.le_of_not_lt hlt)
    have hstep := (ha.names_perform a).balance ha (ha.perform a) hbefore
    have hrest := ih (ha.perform a) hh
    rw [renamings, closingsOf, List.countP_append, openings, hrun]
    rw [closingsOf] at hstep hrest
    omega

end Arena

theorem Arena.pending_of_editName (ha : o.Arena) {h : Handle}
    (hopen : o.editName h = .ok (true, o')) :
    o.isLive h = true ∧ o.pending h = 0 ∧ o'.pending h = 1 := by
  rw [Outline.editName] at hopen
  split at hopen
  · cases hopen
  · rename_i n hget
    obtain ⟨hn, rfl⟩ := mem_of_node? (get_eq_ok_iff.mp hget)
    split at hopen
    · cases hopen
    · rename_i name hname
      cases hopen
      refine ⟨isLive_of_mem hn, ?_, ?_⟩
      · rw [ha.pending_of_mem hn, Node.isEditing_of_label hname]
        rfl
      · have hself := ha.node?_update_self (Node.keepsPlace_openInput name) hn
        exact (congrArg (fun found => (found.any Node.isEditing).toNat) hself)

theorem Arena.closes_once (ha : o.Arena) {h : Handle} {o₁ : Outline}
    (hopen : o.editName h = .ok (true, o₁)) {mid : List Action} (honce : o₁.openings h mid = 0) :
    closingsOf h (o₁.renamings mid) ≤ 1 ∧
      ∀ o₂, (o₁.run mid).editName h = .ok (true, o₂) → closingsOf h (o₁.renamings mid) = 1 := by
  have hperform : o.perform (.editName h) = o₁ := by rw [Outline.perform, hopen]; rfl
  have ha₁ : o₁.Arena := hperform ▸ ha.perform (.editName h)
  obtain ⟨-, -, hopened⟩ := ha.pending_of_editName hopen
  refine ⟨?_, fun o₂ hagain => ?_⟩
  · have hle := ha₁.balance_run_le mid h
    omega
  · obtain ⟨hlive, hclosed, -⟩ := (ha₁.run mid).pending_of_editName hagain
    have heq := ha₁.balance_run mid (.inl hlive)
    omega

/--
After every run of actions: each node ignores clicks, and hides its buttons, exactly while its name
is edited. Every action that closes an input closes one, gives the node what was typed as its label,
and puts the rename with a reload of previews behind all that waits; every other asks for no rename.
So what a run of actions hands out or leaves waiting beside effects for nodes is, behind what waited
before, the renames of the inputs it closed, in their order. And from one opening of an input to the
next the node is renamed just once, without a next at most once.
-/
theorem renames_once (openKeys : OpenKeys) (before : List Action) :
    let o := (start openKeys).run before
    (∀ n ∈ o.nodes, n.ignoresClicks = n.isEditing ∧ n.showsButtons = !n.isEditing) ∧
      (∀ a, o.AsksAsItCloses a (o.perform a)) ∧
      (∀ actions, (o.taken actions ++ (o.run actions).outbox).filter Effect.isLasting =
        o.lasting ++ (o.renamings actions).flatMap Closing.effects) ∧
      ∀ h o₁ mid, o.editName h = .ok (true, o₁) → o₁.openings h mid = 0 →
        closingsOf h (o₁.renamings mid) ≤ 1 ∧
          ∀ o₂, (o₁.run mid).editName h = .ok (true, o₂) → closingsOf h (o₁.renamings mid) = 1 := by
  have ha := (arena_start openKeys).run before
  refine ⟨(arena_start openKeys).inStep_run (by simp [start]) before, fun a => ?_, ha.asked_run, ?_⟩
  · exact (ha.names_perform a).asksAsItCloses ha
  · exact fun h o₁ mid hopen honce => ha.closes_once hopen honce

def twoContents : List Action :=
  [.draw ⟨"a", "one", none, .content, []⟩ none none false false,
    .draw ⟨"b", "two", none, .content, []⟩ none none false false]

def twoContentsEdits : List Action :=
  [.editName 1, .typeName 0 "uno", .pressKey 0 .enter, .commitName 0, .editName 1, .remove 1]

theorem renames_once_twoContents :
    let o := (start .empty).run twoContents
    let o₁ := o.perform (.editName 0)
    o.editName 0 = .ok (true, o₁) ∧ o₁.openings 0 twoContentsEdits = 0 ∧
      (o₁.run twoContentsEdits).editName 0 =
        .ok (true, (o₁.run twoContentsEdits).perform (.editName 0)) ∧
        closingsOf 0 (o₁.renamings twoContentsEdits) = 1 := by
  have honce := (renames_once .empty twoContents).2.2.2 0 _ twoContentsEdits rfl (by decide)
  exact ⟨rfl, by decide, rfl, honce.2 _ rfl⟩

end Outline

end ContentConsole
