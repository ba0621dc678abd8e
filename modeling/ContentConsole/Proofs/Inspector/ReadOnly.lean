import ContentConsole.Proofs.Inspector.Course

set_option autoImplicit false
set_option relaxedAutoImplicit false

/-!
What the user of an inspector cannot change. A row takes its key, its label and its fetched value
from a property of a record, and a control that stays one of text, input or switch; only the draft,
the switch and the two markers are the user's. Main statement: `run_keeps_fetched`, by which this
holds over any course, and what is written to the server is a row that can be edited.
-/
namespace ContentConsole

/-- A value that a control can edit: a text, a number, a truth value or nothing. -/
def Json.IsScalar : Json → Prop
  | .null | .bool _ | .number _ | .str _ => True
  | .arr _ | .obj _ => False

theorem Control.isEditable_ofProperty {key : String} {value : Json} :
    (Control.ofProperty key value).isEditable = true ↔ key ∉ lockedKeys ∧ value.IsScalar := by
  rw [ofProperty]
  by_cases hkey : key ∈ lockedKeys
  · rw [if_pos (List.contains_iff_mem.mpr hkey)]
    exact iff_of_false Bool.false_ne_true fun h => h.1 hkey
  · rw [if_neg (by simpa using hkey), and_iff_right hkey]
    cases value <;> simp [ofValue, isEditable, Json.IsScalar]

/-- A row after edits is the row as it was, but for its markers and for
a value that can be edited. -/
structure PropertyRow.Keeps (row after : PropertyRow) : Prop where
  key : after.key = row.key
  label : after.label = row.label
  fetched : after.fetched = row.fetched
  isEditable : after.isEditable = row.isEditable
  control : row.isEditable = false → after.control = row.control

namespace PropertyRow

theorem Keeps.refl (row : PropertyRow) : row.Keeps row := ⟨rfl, rfl, rfl, rfl, fun _ => rfl⟩

theorem Keeps.trans {row later last : PropertyRow} (h : row.Keeps later)
    (h' : later.Keeps last) : row.Keeps last where
  key := h'.key.trans h.key
  label := h'.label.trans h.label
  fetched := h'.fetched.trans h.fetched
  isEditable := h'.isEditable.trans h.isEditable
  control hfixed := (h'.control (h.isEditable.trans hfixed)).trans (h.control hfixed)

theorem keeps_type (row : PropertyRow) (text : String) : row.Keeps (row.type text) := by
  rw [type]
  split
  case h_2 | h_3 => exact .refl row
  rename_i draft hcontrol
  split
  · exact .refl row
  · have hrow : row.isEditable = true := by rw [PropertyRow.isEditable, hcontrol]; rfl
    exact ⟨rfl, rfl, rfl, hrow.symm, fun hfixed => absurd hfixed (by simp [hrow])⟩

theorem keeps_flip (row : PropertyRow) : row.Keeps ((row.flip?.map Prod.snd).getD row) := by
  rw [flip?]
  split
  case h_2 | h_3 => exact .refl row
  rename_i isOn hcontrol
  have hrow : row.isEditable = true := by rw [PropertyRow.isEditable, hcontrol]; rfl
  exact ⟨rfl, rfl, rfl, hrow.symm, fun hfixed => absurd hfixed (by simp [hrow])⟩

theorem keeps_onRow (row : PropertyRow) (a : InspectorEdit) : row.Keeps (a.onRow row) := by
  cases a with
  | select facet => exact .refl row
  | focus place | blur place => exact ⟨rfl, rfl, rfl, rfl, fun _ => rfl⟩
  | edit place text => exact row.keeps_type text
  | flip place => exact row.keeps_flip

end PropertyRow

structure RecordTable.Keeps (table after : RecordTable) : Prop where
  recordId : after.recordId = table.recordId
  rows : List.Forall₂ PropertyRow.Keeps table.rows after.rows

/-- The tab holds the same rows, each as it was but for what its user may change. -/
inductive TabState.Keeps : TabState → TabState → Prop
  | loading : Keeps .loading .loading
  | loaded {tables after : List RecordTable} (h : List.Forall₂ RecordTable.Keeps tables after) :
    Keeps (.loaded tables) (.loaded after)
  | failed (message : String) : Keeps (.failed message) (.failed message)

theorem RecordTable.Keeps.refl (table : RecordTable) : table.Keeps table :=
  ⟨rfl, List.forall₂_same.mpr fun row _ => .refl row⟩

theorem forall₂_modify {α β : Type} {R : α → β → Prop} {f : β → β} (hf : ∀ x y, R x y → R x (f y))
    {xs : List α} {ys : List β} (h : List.Forall₂ R xs ys) (i : Nat) :
    List.Forall₂ R xs (ys.modify i f) := by
  induction h generalizing i with
  | nil => cases i <;> exact .nil
  | cons hxy hrest ih =>
    cases i with
    | zero => exact .cons (hf _ _ hxy) hrest
    | succ i => exact .cons hxy (ih i)

theorem exists_of_forall₂_of_mem {α β : Type} {R : α → β → Prop} {xs : List α} {ys : List β}
    (h : List.Forall₂ R xs ys) {y : β} (hy : y ∈ ys) : ∃ x ∈ xs, R x y := by
  induction h with
  | nil => cases hy
  | cons hxy _ ih =>
    rcases List.mem_cons.mp hy with rfl | hy
    · exact ⟨_, List.mem_cons_self .., hxy⟩
    · obtain ⟨x, hx, hrelated⟩ := ih hy
      exact ⟨x, List.mem_cons_of_mem _ hx, hrelated⟩

namespace TabState

theorem Keeps.refl (state : TabState) : state.Keeps state := by
  cases state with
  | loading => exact .loading
  | loaded tables => exact .loaded (List.forall₂_same.mpr fun table _ => .refl table)
  | failed message => exact .failed message

theorem Keeps.changeAt {state after : TabState} (h : state.Keeps after) (m k : Nat)
    {f : PropertyRow → PropertyRow} (hf : ∀ row : PropertyRow, row.Keeps (f row)) :
    state.Keeps (after.changeAt m k f) := by
  cases h with
  | loading => exact .loading
  | failed message => exact .failed message
  | loaded htables =>
    have hrow (row left : PropertyRow) (hleft : row.Keeps left) : row.Keeps (f left) :=
      hleft.trans (hf left)
    have htable (table left : RecordTable) (hleft : table.Keeps left) :
        table.Keeps { left with rows := left.rows.modify k f } :=
      ⟨hleft.recordId, forall₂_modify hrow hleft.rows k⟩
    exact .loaded (forall₂_modify htable htables m)

theorem Keeps.exists_property {facet : Facet} {outcome : FacetOutcome} {tables : List RecordTable}
    (h : (Inspector.arrived facet outcome).Keeps (.loaded tables)) {table : RecordTable}
    (htable : table ∈ tables) {row : PropertyRow} (hrow : row ∈ table.rows) :
    ∃ property, (PropertyRow.ofProperty facet property).Keeps row := by
  cases outcome with
  | error e => cases h
  | ok records =>
    cases h with
    | loaded htables =>
      obtain ⟨made, hmade, hkeeps⟩ := exists_of_forall₂_of_mem htables htable
      obtain ⟨record, -, rfl⟩ := List.mem_map.mp hmade
      obtain ⟨first, hfirst, hrow⟩ := exists_of_forall₂_of_mem hkeeps.rows hrow
      obtain ⟨property, -, rfl⟩ := List.mem_map.mp hfirst
      exact ⟨property, hrow⟩

end TabState

theorem PropertyRow.Keeps.isEditable_iff {facet : Facet} {property : String × Json}
    {row : PropertyRow} (h : (PropertyRow.ofProperty facet property).Keeps row) :
    row.isEditable = true ↔ row.key ∉ Control.lockedKeys ∧ row.fetched.IsScalar := by
  rw [h.isEditable, h.key, h.fetched]
  exact Control.isEditable_ofProperty

theorem Inspection.exists_of_rowAt? {s : Inspection} {facet : Facet} {m k : Nat} {row : PropertyRow}
    (hrow : s.rowAt? facet m k = some row) :
    ∃ tab ∈ s.tabs, ∃ tables, tab.state = .loaded tables ∧ ∃ table ∈ tables, row ∈ table.rows := by
  obtain ⟨tab, htab, hrow⟩ := Option.bind_eq_some_iff.mp hrow
  obtain ⟨table, htable, hrow⟩ := Option.bind_eq_some_iff.mp hrow
  have hmem := List.mem_of_getElem? htable
  cases hstate : tab.state with
  | loading | failed message =>
    rw [hstate] at hmem
    cases hmem
  | loaded tables =>
    rw [hstate] at hmem
    exact ⟨tab, List.mem_of_find?_eq_some htab, tables, hstate, table, hmem,
      List.mem_of_getElem? hrow⟩

namespace InspectorEdit

theorem of_setProperty_mem_effects {a : InspectorEdit} {s : Inspection} {row : PropertyRow}
    {id key : String} {value : Json} (hmem : .setProperty id key value ∈ a.effects s row) :
    id = s.entityId ∧ key = row.key ∧ row.isEditable = true := by
  cases a with
  | select facet | focus place | edit place text => cases hmem
  | blur place =>
    rw [effects, Inspection.leaving] at hmem
    rw [PropertyRow.isEditable]
    cases hcontrol : row.control with
    | text shown =>
      rw [PropertyRow.committed?, hcontrol] at hmem
      cases hmem
    | input draft | switch isOn =>
      rw [PropertyRow.committed?, hcontrol] at hmem
      dsimp only at hmem
      rcases List.mem_cons.mp hmem with heq | hmem
      · cases heq
        exact ⟨rfl, rfl, rfl⟩
      · split at hmem <;> simp at hmem
  | flip place =>
    rw [effects, PropertyRow.flip?] at hmem
    rw [PropertyRow.isEditable]
    cases hcontrol : row.control with
    | input draft | text shown =>
      rw [hcontrol] at hmem
      cases hmem
    | switch isOn =>
      rw [hcontrol] at hmem
      obtain ⟨rfl, rfl, -⟩ : id = s.entityId ∧ key = row.key ∧ value = .bool !isOn := by
        simpa using hmem
      exact ⟨rfl, rfl, rfl⟩

end InspectorEdit

namespace InspectorCourse

variable {c after : InspectorCourse} {operation : InspectorOperation}

theorem Turns.keeps (hturns : c.Turns operation after)
    (hdistinct : ∀ s, c.inspector.inspection = some s → s.facets.Nodup)
    (h : ∀ s, c.inspector.inspection = some s →
      ∀ tab ∈ s.tabs, (c.shown tab.facet).Keeps tab.state) :
    ∀ s, after.inspector.inspection = some s →
      ∀ tab ∈ s.tabs, (after.shown tab.facet).Keeps tab.state := by
  cases hturns with
  | opened e =>
    rintro s ⟨⟩
    exact List.forall_mem_map.mpr fun facet _ => .loading
  | closed => exact nofun
  | refused => exact h
  | @filled s hopen generation facet outcome =>
    rintro filled ⟨⟩
    rw [Inspection.fill_eq (hdistinct _ hopen)]
    refine List.forall_mem_map.mpr fun tab htab => ?_
    by_cases hfacet : tab.facet = facet
    · rw [if_pos hfacet, shown]
      dsimp only
      rw [if_pos hfacet, hfacet]
      exact .refl _
    · rw [if_neg hfacet, shown]
      dsimp only
      rw [if_neg hfacet]
      exact h _ hopen tab htab
  | chose hopen hfacet =>
    rintro s ⟨⟩
    exact List.forall_mem_map.mpr (h _ hopen)
  | @acted s hopen a place hplace =>
    rintro changed ⟨⟩
    refine List.forall_mem_map.mpr fun tab htab => ?_
    split
    · exact (h _ hopen tab htab).changeAt _ _ fun row => row.keeps_onRow a
    · exact h _ hopen tab htab

theorem keeps_run (operations : List InspectorOperation) :
    ∀ s, (run operations).inspector.inspection = some s →
    ∀ tab ∈ s.tabs, ((run operations).shown tab.facet).Keeps tab.state := by
  induction operations using List.reverseRecOn with
  | nil => exact nofun
  | append_singleton operations operation ih =>
    have hdistinct := nodup_facets operations
    rw [run_append_singleton]
    exact (turns_step hdistinct operation).keeps hdistinct ih

theorem isEditable_run {operations : List InspectorOperation} {s : Inspection}
    (hopen : (run operations).inspector.inspection = some s) {facet : Facet} {m k : Nat}
    {row : PropertyRow} (hrow : s.rowAt? facet m k = some row) :
    row.isEditable = true ↔ row.key ∉ Control.lockedKeys ∧ row.fetched.IsScalar := by
  obtain ⟨tab, htab, tables, hloaded, table, htable, hmem⟩ := Inspection.exists_of_rowAt? hrow
  have hkeeps := keeps_run operations s hopen tab htab
  rw [hloaded, shown] at hkeeps
  cases htaken : (run operations).taken tab.facet with
  | none =>
    rw [htaken] at hkeeps
    cases hkeeps
  | some outcome =>
    rw [htaken] at hkeeps
    obtain ⟨property, hproperty⟩ := hkeeps.exists_property htable hmem
    exact hproperty.isEditable_iff

/--
After any operations, whatever was fetched: an edit that fails changes nothing. An open inspector
has one tab for each facet, and each tab keeps, row by row, what the newest response for it was
rendered as: keys, labels, fetched values, which rows can be edited, and the texts of those that
cannot. An action on a row changes one row of one tab within these bounds, and nothing else. What it
writes to the server goes to the entity that is shown, under the key of this row, which is neither
`id` nor `type` and was fetched with a scalar value.
-/
theorem run_keeps_fetched (operations : List InspectorOperation) :
    let c := run operations
    (∀ a e, c.inspector.attempt a = .error e → run (operations ++ [.edit a]) = c) ∧
      ∀ s, c.inspector.inspection = some s →
        s.facets.Nodup ∧ (∀ tab ∈ s.tabs, (c.shown tab.facet).Keeps tab.state) ∧
          ∀ a place effects after, a.place? = some place →
            c.inspector.attempt a = .ok (effects, after) →
            ∃ m k row left, s.rowAt? place.facet m k = some row ∧ row.Keeps left ∧
              after = { c.inspector with
                inspection := some (s.changeAt place.facet m k fun _ => left) } ∧
              ∀ id key value, .setProperty id key value ∈ effects →
                id = s.entityId ∧ key = row.key ∧ key ≠ "id" ∧ key ≠ "type" ∧
                row.fetched.IsScalar := by
  intro c
  refine ⟨fun a e herror => ?_, fun s hopen => ?_⟩
  · rw [run_append_singleton, step, Inspector.perform_eq_attempt, herror]
    rfl
  have hdistinct := nodup_facets operations s hopen
  refine ⟨hdistinct, keeps_run operations s hopen, fun a place effects after hplace hattempt => ?_⟩
  cases hlocated : c.inspector.located place with
  | error e =>
    rw [Inspector.attempt_of_located_eq_error hplace hlocated] at hattempt
    cases hattempt
  | ok found =>
    obtain ⟨opened, row⟩ := found
    obtain ⟨hopened, hrow⟩ := Inspector.located_eq_ok_iff.mp hlocated
    obtain rfl : opened = s := Option.some.inj (hopened.symm.trans hopen)
    have hacts := Inspector.actsOn_position hopen hdistinct hrow
    rw [hacts.attempt_eq hopen hdistinct hplace] at hattempt
    obtain ⟨rfl, rfl⟩ := Prod.mk.inj (Except.ok.inj hattempt)
    refine ⟨_, _, row, a.onRow row, hacts.found, row.keeps_onRow a, ?_, fun id key value hmem => ?_⟩
    · rw [Inspection.changeAt_congr hdistinct fun other hother => ?_]
      rw [Option.some.inj (hacts.found.symm.trans hother)]
    · obtain ⟨rfl, rfl, heditable⟩ := InspectorEdit.of_setProperty_mem_effects hmem
      obtain ⟨hkey, hscalar⟩ := (isEditable_run hopen hacts.found).mp heditable
      exact ⟨rfl, rfl, fun hid => hkey (by simp [hid, Control.lockedKeys]),
        fun htype => hkey (by simp [htype, Control.lockedKeys]), hscalar⟩

end InspectorCourse

end ContentConsole
