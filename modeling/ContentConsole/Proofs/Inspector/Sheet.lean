import ContentConsole.Proofs.Inspector.Row

set_option autoImplicit false
set_option relaxedAutoImplicit false

/-!
What an inspector shows apart from what its user did to it: the sheet of the fetched records, one
entry for each tab. Main statement: `perform_eq`, by which choosing tabs, focusing, editing, leaving
and flipping rows leave the sheet as it is.
-/
namespace ContentConsole

def PropertyRow.restored (facet : Facet) (row : PropertyRow) : PropertyRow :=
  .ofProperty facet (row.key, row.fetched)

def RecordTable.restored (facet : Facet) (table : RecordTable) : RecordTable :=
  { table with rows := table.rows.map (PropertyRow.restored facet) }

/-- The state of a tab with all edits of its rows undone. -/
def TabState.restored (facet : Facet) : TabState → TabState
  | .loading => .loading
  | .loaded tables => .loaded (tables.map (RecordTable.restored facet))
  | .failed message => .failed message

theorem RecordTable.restored_ofRecord (facet : Facet) (record : Record) :
    (RecordTable.ofRecord facet record).restored facet = .ofRecord facet record := by
  have hrow : ∀ property : String × Json,
      (PropertyRow.ofProperty facet property).restored facet =
        .ofProperty facet property := fun _ => rfl
  simp [RecordTable.restored, RecordTable.ofRecord, hrow]

theorem Inspector.restored_arrived (facet : Facet) (outcome : Except Fault (List Record)) :
    (Inspector.arrived facet outcome).restored facet = Inspector.arrived facet outcome := by
  cases outcome with
  | error e => rfl
  | ok records => simp [Inspector.arrived, TabState.restored, RecordTable.restored_ofRecord]

/-- What the tabs of an entity show, with all edits undone. -/
structure Sheet where
  entityId : String
  generation : Nat
  entries : List (Facet × TabState)

def FacetTab.entry (tab : FacetTab) : Facet × TabState := (tab.facet, tab.state.restored tab.facet)

def Inspection.sheet (s : Inspection) : Sheet :=
  ⟨s.entityId, s.generation, s.tabs.map FacetTab.entry⟩

def Inspector.sheet? (i : Inspector) : Option Sheet := i.inspection.map Inspection.sheet

theorem map_changeFirst {α β : Type} {p : α → Bool} {f : α → α} {g : α → β} {xs : List α}
    (hsame : ∀ x, xs.find? p = some x → g (f x) = g x) : (changeFirst p f xs).map g = xs.map g := by
  induction xs with
  | nil => rfl
  | cons x xs ih =>
    rw [changeFirst]
    cases hx : p x with
    | true => simp [hsame x (by simp [hx])]
    | false => simpa using ih fun y hy => hsame y (by simpa [hx] using hy)

namespace Inspection

theorem rowIn?_eq_row? {place : FieldRef} {tables : List RecordTable} {table : RecordTable}
    (hfound : tables.find? (fun t => t.recordId == place.recordId && t.hasKey place.key) =
      some table) :
    rowIn? place tables = table.row? place.key := by
  induction tables with
  | nil => exact nomatch hfound
  | cons first tables ih =>
    rw [rowIn?_cons]
    rw [List.find?_cons] at hfound
    cases hid : first.recordId == place.recordId with
    | false =>
      rw [hid, Bool.false_and] at hfound
      simpa using ih hfound
    | true =>
      rw [hid, Bool.true_and, ← first.isSome_row? place.key] at hfound
      cases hrow : first.row? place.key with
      | some row =>
        rw [hrow] at hfound
        obtain rfl : first = table := Option.some.inj hfound
        simp [hrow]
      | none =>
        rw [hrow] at hfound
        simpa using ih hfound

theorem sheet_changeRow {s : Inspection} {place : FieldRef} {row : PropertyRow}
    {f : PropertyRow → PropertyRow} (hrow : s.row place = .ok row) (hkey : (f row).key = row.key)
    (hfetched : (f row).fetched = row.fetched) :
    (s.changeRow place f).sheet = s.sheet := by
  obtain ⟨tab, tables, htab, hstate, hfound⟩ := row_eq_ok_iff.mp hrow
  have htable : ∀ table,
      tables.find? (fun t => t.recordId == place.recordId && t.hasKey place.key) = some table →
        (changeTable place.key f table).restored tab.facet = table.restored tab.facet := by
    intro table htable
    have hrows : table.row? place.key = some row := (rowIn?_eq_row? htable).symm.trans hfound
    have hsame : ∀ x, table.rows.find? (fun row => row.key == place.key) = some x →
        (f x).restored tab.facet = x.restored tab.facet := by
      intro x hx
      obtain rfl : row = x := Option.some.inj (hrows.symm.trans hx)
      rw [PropertyRow.restored, hkey, hfetched, PropertyRow.restored]
    rw [RecordTable.restored, RecordTable.restored, changeTable, map_changeFirst hsame]
  have hentry : ∀ tab', s.tabs.find? (fun tab => tab.facet == place.facet) = some tab' →
      ({ tab' with state := changeLoaded place f tab'.state } : FacetTab).entry = tab'.entry := by
    intro tab' htab'
    obtain rfl : tab = tab' := Option.some.inj (htab.symm.trans htab')
    rw [FacetTab.entry, FacetTab.entry, hstate, changeLoaded]
    dsimp only
    rw [TabState.restored, TabState.restored, map_changeFirst htable]
  rw [sheet, sheet, changeRow, changeTab, map_changeFirst hentry]

theorem sheet_reveal (s : Inspection) (facet : Facet) : (s.reveal facet).sheet = s.sheet := by
  simp [sheet, reveal, FacetTab.entry, Function.comp_def]

end Inspection

namespace PropertyRow

theorem key_type (row : PropertyRow) (text : String) : (row.type text).key = row.key := by
  rw [type]
  split
  · split <;> rfl
  all_goals rfl

theorem fetched_type (row : PropertyRow) (text : String) :
    (row.type text).fetched = row.fetched := by
  rw [type]
  split
  · split <;> rfl
  all_goals rfl

theorem flip?_eq_some {row : PropertyRow} {flipped : Bool × PropertyRow}
    (hflip : row.flip? = some flipped) :
    flipped.2.key = row.key ∧ flipped.2.fetched = row.fetched := by
  rw [flip?] at hflip
  split at hflip
  · obtain rfl := Option.some.inj hflip
    exact ⟨rfl, rfl⟩
  all_goals exact nomatch hflip

end PropertyRow

/-! What the user does to an open inspector. -/

inductive InspectorEdit
  | select (facet : Facet)
  | focus (place : FieldRef)
  | edit (place : FieldRef) (text : String)
  | blur (place : FieldRef)
  | flip (place : FieldRef)

namespace Inspector

def perform (i : Inspector) : InspectorEdit → Inspector
  | .select facet => (i.select facet).toOption.getD i
  | .focus place => (i.focus place).toOption.getD i
  | .edit place text => (i.edit place text).toOption.getD i
  | .blur place => ((i.blur place).toOption.map Prod.snd).getD i
  | .flip place => ((i.flip place).toOption.map Prod.snd).getD i

theorem sheet_located {i : Inspector} {place : FieldRef} {s : Inspection} {row : PropertyRow}
    {f : PropertyRow → PropertyRow} (hlocated : i.located place = .ok (s, row))
    (hkey : (f row).key = row.key) (hfetched : (f row).fetched = row.fetched) :
    (some (s.changeRow place f)).map Inspection.sheet = i.sheet? := by
  obtain ⟨hopen, hrow⟩ := located_eq_ok_iff.mp hlocated
  rw [sheet?, hopen, Option.map_some, Option.map_some,
    Inspection.sheet_changeRow hrow hkey hfetched]

/-- The user changes nothing of what was fetched. -/
theorem perform_eq (i : Inspector) (a : InspectorEdit) :
    ∃ opened, i.perform a = { i with inspection := opened } ∧
      opened.map Inspection.sheet = i.sheet? := by
  cases a with
  | select facet =>
    rw [perform, select, opened]
    cases hopen : i.inspection with
    | none => exact ⟨i.inspection, rfl, rfl⟩
    | some s =>
      dsimp only
      cases s.tab? facet with
      | none => exact ⟨i.inspection, rfl, rfl⟩
      | some tab =>
        refine ⟨some (s.reveal facet), rfl, ?_⟩
        rw [Option.map_some, Inspection.sheet_reveal, sheet?, hopen, Option.map_some]
  | focus place =>
    rw [perform, focus]
    cases hlocated : i.located place with
    | error e => exact ⟨i.inspection, rfl, rfl⟩
    | ok found => exact ⟨_, rfl, sheet_located hlocated rfl rfl⟩
  | edit place text =>
    rw [perform, edit]
    cases hlocated : i.located place with
    | error e => exact ⟨i.inspection, rfl, rfl⟩
    | ok found =>
      exact ⟨_, rfl, sheet_located hlocated (found.2.key_type text) (found.2.fetched_type text)⟩
  | blur place =>
    rw [perform, blur]
    cases hlocated : i.located place with
    | error e => exact ⟨i.inspection, rfl, rfl⟩
    | ok found => exact ⟨_, rfl, sheet_located hlocated rfl rfl⟩
  | flip place =>
    rw [perform, flip]
    cases hlocated : i.located place with
    | error e => exact ⟨i.inspection, rfl, rfl⟩
    | ok found =>
      dsimp only
      cases hflip : found.2.flip? with
      | none => exact ⟨i.inspection, rfl, rfl⟩
      | some flipped =>
        obtain ⟨hkey, hfetched⟩ := PropertyRow.flip?_eq_some hflip
        exact ⟨_, rfl, sheet_located hlocated hkey hfetched⟩

theorem sheet?_perform (i : Inspector) (a : InspectorEdit) : (i.perform a).sheet? = i.sheet? := by
  obtain ⟨opened, hperform, hsheet⟩ := i.perform_eq a
  rw [hperform, sheet?, hsheet]

theorem generation_perform (i : Inspector) (a : InspectorEdit) :
    (i.perform a).generation = i.generation := by
  obtain ⟨opened, hperform, -⟩ := i.perform_eq a
  rw [hperform]

end Inspector

end ContentConsole
