import ContentConsole.Inspector.Basic

set_option autoImplicit false
set_option relaxedAutoImplicit false

/-!
Rows by their addresses. Main statement: `row_changeRow`, by which the row that is changed at an
address is the one that is found there, before and after.
-/
namespace ContentConsole

theorem find?_changeFirst {α : Type} {p : α → Bool} {f : α → α} (hp : ∀ x, p (f x) = p x)
    (xs : List α) : (changeFirst p f xs).find? p = (xs.find? p).map f := by
  induction xs with
  | nil => rfl
  | cons x xs ih =>
    rw [changeFirst]
    cases hx : p x with
    | true => simp [hp, hx]
    | false => simpa [hx] using ih

def RecordTable.row? (table : RecordTable) (key : String) : Option PropertyRow :=
  table.rows.find? fun row => row.key == key

theorem RecordTable.isSome_row? (table : RecordTable) (key : String) :
    (table.row? key).isSome = table.hasKey key := List.isSome_find?

namespace Inspection

def rowIn? (place : FieldRef) (tables : List RecordTable) : Option PropertyRow :=
  ((tables.filter fun t => t.recordId == place.recordId).flatMap RecordTable.rows).find? fun row =>
    row.key == place.key

theorem rowIn?_cons (place : FieldRef) (table : RecordTable) (tables : List RecordTable) :
    rowIn? place (table :: tables) =
      if table.recordId == place.recordId then (table.row? place.key).or (rowIn? place tables)
      else rowIn? place tables := by
  rw [rowIn?, List.filter_cons]
  split
  · rw [List.flatMap_cons, List.find?_append]
    rfl
  · rfl

theorem facet_of_tab? {s : Inspection} {facet : Facet} {tab : FacetTab}
    (htab : s.tab? facet = some tab) : tab.facet = facet := by
  simpa using List.find?_some htab

theorem tab?_map {g : FacetTab → FacetTab} (hg : ∀ tab, (g tab).facet = tab.facet)
    (s : Inspection) (facet : Facet) :
    ({ s with tabs := s.tabs.map g } : Inspection).tab? facet = (s.tab? facet).map g := by
  have hsame : (fun tab => (g tab).facet == facet) = fun tab => tab.facet == facet :=
    funext fun tab => by rw [hg]
  rw [tab?, List.find?_map, Function.comp_def, hsame]
  rfl

theorem tab?_changeTab {g : FacetTab → FacetTab} (hg : ∀ tab, (g tab).facet = tab.facet)
    (s : Inspection) (facet : Facet) : (s.changeTab facet g).tab? facet = (s.tab? facet).map g :=
  find?_changeFirst (fun tab => by rw [hg]) s.tabs

theorem row_eq_ok_iff {s : Inspection} {place : FieldRef} {row : PropertyRow} :
    s.row place = .ok row ↔
    ∃ tab tables, s.tab? place.facet = some tab ∧ tab.state = .loaded tables ∧
      rowIn? place tables = some row := by
  rw [Inspection.row]
  cases htab : s.tab? place.facet with
  | none => simp
  | some tab =>
    cases hstate : tab.state with
    | loading | failed message => simp [hstate]
    | loaded tables =>
      have hloaded : (∃ tab' tables', some tab = some tab' ∧ tab'.state = .loaded tables' ∧
          rowIn? place tables' = some row) ↔ rowIn? place tables = some row := by simp [hstate]
      rw [hloaded, rowIn?]
      simp only [hstate]
      split <;> rename_i hfound <;> simp [hfound]

section

variable {f : PropertyRow → PropertyRow} (hf : ∀ row, (f row).key = row.key)

include hf

theorem row?_changeTable (key : String) (table : RecordTable) :
    (changeTable key f table).row? key = (table.row? key).map f :=
  find?_changeFirst (fun row => by rw [hf]) table.rows

theorem rowIn?_changeFirst (place : FieldRef) (tables : List RecordTable) :
    rowIn? place (changeFirst (fun t => t.recordId == place.recordId && t.hasKey place.key)
      (changeTable place.key f) tables) = (rowIn? place tables).map f := by
  induction tables with
  | nil => rfl
  | cons table tables ih =>
    have hrecord : (changeTable place.key f table).recordId = table.recordId := rfl
    rw [changeFirst, rowIn?_cons place table]
    cases hid : table.recordId == place.recordId with
    | false => simpa [rowIn?_cons, hid] using ih
    | true =>
      rw [← table.isSome_row? place.key]
      cases hrow : table.row? place.key with
      | some row => simp [rowIn?_cons, hrecord, hid, row?_changeTable hf, hrow]
      | none => simpa [rowIn?_cons, hid, hrow] using ih

/-- The row that is changed at an address is the one that is found there. -/
theorem row_changeRow {s : Inspection} {place : FieldRef} {row : PropertyRow}
    (hrow : s.row place = .ok row) : (s.changeRow place f).row place = .ok (f row) := by
  obtain ⟨tab, tables, htab, hstate, hfound⟩ := row_eq_ok_iff.mp hrow
  have hchanged : (s.changeRow place f).tab? place.facet =
      (s.tab? place.facet).map fun tab => { tab with state := changeLoaded place f tab.state } :=
    tab?_changeTab (g := fun tab => { tab with state := changeLoaded place f tab.state })
      (fun _ => rfl) s
      place.facet
  rw [htab] at hchanged
  have hrows := rowIn?_changeFirst hf place tables
  rw [hfound] at hrows
  exact row_eq_ok_iff.mpr ⟨_, _, hchanged, congrArg (changeLoaded place f) hstate, hrows⟩

end

end Inspection

theorem Inspector.located_eq_ok_iff {i : Inspector} {s : Inspection} {place : FieldRef}
    {row : PropertyRow} :
    i.located place = .ok (s, row) ↔ i.inspection = some s ∧ s.row place = .ok row := by
  rw [located, opened]
  cases i.inspection with
  | none => simp
  | some opened =>
    dsimp only
    cases hrow : opened.row place with
    | error e =>
      refine iff_of_false nofun fun ⟨hopened, hfound⟩ => ?_
      rw [Option.some.inj hopened, hfound] at hrow
      exact nomatch hrow
    | ok found =>
      simp only [Except.ok.injEq, Prod.mk.injEq, Option.some.injEq]
      refine and_congr_right fun hopened => ?_
      rw [← hopened, hrow, Except.ok.injEq]

end ContentConsole
