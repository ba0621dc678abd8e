import ContentConsole.Proofs.Inspector.Generation
import Mathlib.Data.List.Nodup

set_option autoImplicit false
set_option relaxedAutoImplicit false

/-!
Which row an address leads to. A tab has its rows at positions, a table and a row in it, while an
address names the id of a record and a key; the first position that has both is the one that is
acted on. Main statement: `actsOn_iff`, by which a row is reached under its own address exactly if
no earlier record of the tab has the same id and a row of the same key.
-/
namespace ContentConsole

theorem changeFirst_eq_modify {α : Type} (p : α → Bool) (f : α → α) (xs : List α) :
    changeFirst p f xs = xs.modify (xs.findIdx p) f := by
  induction xs with
  | nil => rfl
  | cons x xs ih =>
    rw [changeFirst, List.findIdx_cons]
    cases p x with
    | true => rfl
    | false => exact congrArg (x :: ·) ih

theorem modify_congr {α : Type} {f g : α → α} {xs : List α} {i : Nat}
    (h : ∀ x, xs[i]? = some x → f x = g x) : xs.modify i f = xs.modify i g := by
  refine List.ext_getElem? fun j => ?_
  rw [List.getElem?_modify, List.getElem?_modify]
  by_cases hj : i = j
  · subst hj
    cases hx : xs[i]? with
    | none => rfl
    | some x => simp [h x hx]
  · simp [hj]

theorem Inspection.tab?_eq_some {s : Inspection} (hdistinct : s.facets.Nodup) {tab : FacetTab}
    (htab : tab ∈ s.tabs) : s.tab? tab.facet = some tab := by
  obtain ⟨found, hfound⟩ := Option.isSome_iff_exists.mp
    (isSome_tab?_iff.mpr (List.mem_map_of_mem htab : tab.facet ∈ s.facets))
  rw [hfound, List.inj_on_of_nodup_map hdistinct (List.mem_of_find?_eq_some hfound) htab
    (facet_of_tab? hfound)]

def TabState.tables : TabState → List RecordTable
  | .loaded tables => tables
  | .loading | .failed _ => []

/-- Changes the row at a position: the `k`-th of the `m`-th table. -/
def TabState.changeAt (m k : Nat) (f : PropertyRow → PropertyRow) : TabState → TabState
  | .loaded tables =>
    .loaded (tables.modify m fun table => { table with rows := table.rows.modify k f })
  | state => state

namespace Inspection

def rowAt? (s : Inspection) (facet : Facet) (m k : Nat) : Option PropertyRow :=
  (s.tab? facet).bind fun tab => tab.state.tables[m]?.bind fun table => table.rows[k]?

def changeAt (s : Inspection) (facet : Facet) (m k : Nat)
    (f : PropertyRow → PropertyRow) : Inspection :=
  { s with tabs := s.tabs.map fun tab =>
      if tab.facet = facet then { tab with state := tab.state.changeAt m k f } else tab }

variable {s : Inspection} {facet : Facet} {m k : Nat} {f : PropertyRow → PropertyRow}

theorem tables_changeAt (state : TabState) : (state.changeAt m k f).tables =
    state.tables.modify m fun table => { table with rows := table.rows.modify k f } := by
  cases state with
  | loaded tables => rfl
  | loading | failed message => simp [TabState.changeAt, TabState.tables]

theorem rowAt?_changeAt (f : PropertyRow → PropertyRow) (facet' : Facet) (m' k' : Nat) :
    (s.changeAt facet m k f).rowAt? facet' m' k' =
      if facet' = facet ∧ (m, k) = (m', k') then (s.rowAt? facet' m' k').map f
      else s.rowAt? facet' m' k' := by
  rw [rowAt?, changeAt, tab?_map (fun tab => by split <;> rfl), rowAt?]
  cases htab : s.tab? facet' with
  | none => simp
  | some tab =>
    simp only [Option.map_some, Option.bind_some, facet_of_tab? htab]
    by_cases hsame : facet' = facet
    · simp only [hsame, if_true, true_and, tables_changeAt, List.getElem?_modify, Prod.mk.injEq]
      cases tab.state.tables[m']? with
      | none => simp
      | some table => by_cases hm : m = m' <;> by_cases hk : k = k' <;> simp [hm, hk]
    · simp [hsame]

def holds (place : FieldRef) (table : RecordTable) : Bool :=
  table.recordId == place.recordId && table.hasKey place.key

/-- The row that an address leads to, at its position among the tables. -/
structure LeadsTo (place : FieldRef) (tables : List RecordTable) (m k : Nat)
    (row : PropertyRow) : Prop where
  table : tables.findIdx (holds place) = m
  row : ∃ table, tables[m]? = some table ∧
    table.rows.findIdx (fun row => row.key == place.key) = k ∧
    table.rows[k]? = some row

variable {place : FieldRef} {tables : List RecordTable} {row : PropertyRow}

theorem holds_iff {table : RecordTable} :
    holds place table = true ↔ table.recordId = place.recordId ∧ ∃ row ∈ table.rows, row.key =
      place.key := by
  simp [holds, RecordTable.hasKey]

theorem findIdx_holds_iff {table : RecordTable} (htable : tables[m]? = some table)
    (hholds : holds place table = true) :
    tables.findIdx (holds place) = m ↔ ∀ m' < m, ∀ earlier, tables[m']? = some earlier →
      ¬holds place earlier := by
  obtain ⟨hm, rfl⟩ := List.getElem?_eq_some_iff.mp htable
  rw [List.findIdx_eq hm, and_iff_right hholds]
  refine forall₂_congr fun m' hm' => ?_
  rw [List.getElem?_eq_getElem (Nat.lt_trans hm' hm)]
  simp

theorem findIdx_key {rows : List PropertyRow} (hkeys : (rows.map PropertyRow.key).Nodup)
    (hrow : rows[k]? = some row) : rows.findIdx (fun other => other.key == row.key) = k := by
  obtain ⟨hk, rfl⟩ := List.getElem?_eq_some_iff.mp hrow
  have hdifferent := List.pairwise_iff_getElem.mp (List.pairwise_map.mp hkeys)
  refine (List.findIdx_eq hk).mpr ⟨beq_self_eq_true _, fun j hj => ?_⟩
  exact beq_eq_false_iff_ne.mpr (hdifferent j k (Nat.lt_trans hj hk) hk hj)

theorem exists_leadsTo {table : RecordTable} (htable : tables[m]? = some table)
    (hholds : holds place table = true) : ∃ m₀ ≤ m, ∃ k₀ row₀, LeadsTo place tables m₀ k₀ row₀ := by
  obtain ⟨hm, rfl⟩ := List.getElem?_eq_some_iff.mp htable
  have hle : tables.findIdx (holds place) ≤ m := by
    refine Nat.le_of_not_lt fun hlater => ?_
    rw [List.not_of_lt_findIdx hlater] at hholds
    cases hholds
  have hlt : tables.findIdx (holds place) < tables.length := Nat.lt_of_le_of_lt hle hm
  have hfirst : holds place tables[tables.findIdx (holds place)] = true := List.findIdx_getElem
  rw [holds, Bool.and_eq_true, RecordTable.hasKey, List.any_eq_true] at hfirst
  have hrow := List.findIdx_lt_length_of_exists hfirst.2
  exact ⟨_, hle, _, _, rfl, _, List.getElem?_eq_getElem hlt, rfl, List.getElem?_eq_getElem hrow⟩

theorem LeadsTo.row_eq_ok (h : LeadsTo place tables m k row) {tab : FacetTab}
    (htab : s.tab? place.facet = some tab) (hloaded : tab.state = .loaded tables) :
    s.row place = .ok row := by
  obtain ⟨hm, table, htable, hk, hrow⟩ := h
  have hfound :
      tables.find? (fun t => t.recordId == place.recordId && t.hasKey place.key) = some table := by
    rw [List.find?_eq_getElem?_findIdx]
    exact hm ▸ htable
  have hfirst : rowIn? place tables = some row := by
    rw [rowIn?_eq_row? hfound, RecordTable.row?, List.find?_eq_getElem?_findIdx, hk, hrow]
  exact row_eq_ok_iff.mpr ⟨tab, tables, htab, hloaded, hfirst⟩

theorem LeadsTo.changeRow_eq (h : LeadsTo place tables m k row) (hdistinct : s.facets.Nodup)
    {tab : FacetTab} (htab : s.tab? place.facet = some tab) (hloaded : tab.state = .loaded tables)
    (f : PropertyRow → PropertyRow) : s.changeRow place f = s.changeAt place.facet m k f := by
  obtain ⟨hm, table, htable, hk, -⟩ := h
  have hstate : changeLoaded place f tab.state = tab.state.changeAt m k f := by
    have hrows : ∀ table', tables[m]? = some table' → changeTable place.key f table' =
        { table' with rows := table'.rows.modify k f } := by
      intro table' htable'
      obtain rfl := Option.some.inj (htable.symm.trans htable')
      rw [changeTable, changeFirst_eq_modify, hk]
    calc changeLoaded place f tab.state
        = .loaded (tables.modify (tables.findIdx (holds place)) (changeTable place.key f)) := by
          rw [hloaded, changeLoaded, changeFirst_eq_modify]
          rfl
      _ = .loaded (tables.modify m fun table => { table with rows := table.rows.modify k f }) := by
          rw [hm, modify_congr hrows]
      _ = tab.state.changeAt m k f := by
          rw [hloaded]
          rfl
  rw [changeRow, changeTab, changeAt, changeFirst_eq_map hdistinct]
  refine congrArg (fun tabs => { s with tabs }) (List.map_congr_left fun other hother => ?_)
  split
  · rename_i hsame
    obtain rfl : tab = other :=
      Option.some.inj (htab.symm.trans (hsame ▸ tab?_eq_some hdistinct hother))
    rw [hstate]
  · rfl

theorem LeadsTo.rowAt?_eq_some (h : LeadsTo place tables m k row) {tab : FacetTab}
    (htab : s.tab? place.facet = some tab) (hloaded : tab.state = .loaded tables) :
    s.rowAt? place.facet m k = some row := by
  obtain ⟨-, table, htable, -, hrow⟩ := h
  rw [rowAt?, htab, Option.bind_some, hloaded, TabState.tables, htable]
  exact hrow

/-- What leaving the row writes to the server, and whether previews are out of date by it. -/
def leaving (s : Inspection) (row : PropertyRow) : List Effect :=
  match row.committed? with
  | none => []
  | some value =>
    .setProperty s.entityId row.key value :: if row.isChanged then [.reloadPreviews] else []

end Inspection

namespace Inspector

/-- Under the address, all that is done to a row is done to the one at
the position, and to no other. -/
structure ActsOn (i : Inspector) (s : Inspection) (place : FieldRef) (m k : Nat)
    (row : PropertyRow) : Prop where
  found : s.rowAt? place.facet m k = some row
  focus : i.focus place =
    .ok { i with
      inspection := some (s.changeAt place.facet m k fun row => { row with isActive := true }) }
  edit : ∀ text, i.edit place text =
    .ok { i with inspection := some (s.changeAt place.facet m k fun row => row.type text) }
  blur : i.blur place =
    .ok (s.leaving row,
      { i with inspection := some (s.changeAt place.facet m k PropertyRow.leave) })
  flip : i.flip place = .ok (
    match row.flip? with
    | none => ([], i)
    | some (isOn, flipped) => ([.setProperty s.entityId row.key (.bool isOn), .reloadPreviews],
        { i with inspection := some (s.changeAt place.facet m k fun _ => flipped) }))

variable {i : Inspector} {s : Inspection} {place : FieldRef} {tables : List RecordTable} {m k : Nat}
  {row : PropertyRow}

theorem actsOn_of_leadsTo (hopen : i.inspection = some s) (hdistinct : s.facets.Nodup)
    {tab : FacetTab} (htab : s.tab? place.facet = some tab) (hloaded : tab.state = .loaded tables)
    (h : Inspection.LeadsTo place tables m k row) : i.ActsOn s place m k row := by
  have hlocated : i.located place = .ok (s, row) :=
    located_eq_ok_iff.mpr ⟨hopen, h.row_eq_ok htab hloaded⟩
  have hchange (f : PropertyRow → PropertyRow) : s.changeRow place f =
      s.changeAt place.facet m k f :=
    h.changeRow_eq hdistinct htab hloaded f
  refine ⟨h.rowAt?_eq_some htab hloaded, ?_, fun text => ?_, ?_, ?_⟩
  · rw [Inspector.focus, hlocated, ← hchange]
  · rw [Inspector.edit, hlocated, ← hchange]
  · rw [Inspector.blur, hlocated, ← hchange]
    rfl
  · rw [Inspector.flip, hlocated]
    dsimp only
    cases row.flip? with
    | none => rfl
    | some flipped =>
      dsimp only
      rw [hchange]

theorem ActsOn.table_eq {m' k' : Nat} {row' : PropertyRow} (h : i.ActsOn s place m k row)
    (h' : i.ActsOn s place m' k' row') : m = m' := by
  by_contra hne
  have hfocus := Except.ok.inj (h.focus.symm.trans h'.focus)
  have hblur := congrArg Prod.snd (Except.ok.inj (h.blur.symm.trans h'.blur))
  have hrow (f : PropertyRow → PropertyRow)
      (hsame : ({ i with inspection := some (s.changeAt place.facet m k f) } : Inspector) =
        { i with inspection := some (s.changeAt place.facet m' k' f) }) : f row' = row' := by
    have hinspection := Option.some.inj (congrArg Inspector.inspection hsame)
    have hat := congrArg (·.rowAt? place.facet m' k') hinspection
    rw [Inspection.rowAt?_changeAt, if_neg fun hsame => hne (Prod.mk.inj hsame.2).1,
      Inspection.rowAt?_changeAt, if_pos ⟨rfl, rfl⟩, h'.found, Option.map_some] at hat
    exact (Option.some.inj hat).symm
  have hactive := congrArg PropertyRow.isActive (hrow _ hfocus)
  have hidle := congrArg PropertyRow.isActive (hrow _ hblur)
  exact Bool.false_ne_true (hidle.trans hactive.symm)

end Inspector

namespace InspectorHistory

theorem mem_of_mem_delivered (actions : List InspectorAction)
    {response : FacetRequest × FacetOutcome} (hresponse : response ∈ (run actions).delivered) :
    .deliver response.1 response.2 ∈ actions := by
  suffices hall : ∀ h : InspectorHistory, response ∈ (actions.foldl step h).delivered →
      response ∈ h.delivered ∨ .deliver response.1 response.2 ∈ actions from
    (hall {} hresponse).resolve_left nofun
  clear hresponse
  induction actions with
  | nil => exact fun _ hmem => .inl hmem
  | cons a actions ih =>
    intro h hmem
    rcases ih (h.step a) hmem with hstep | hlater
    · cases a with
      | deliver request outcome =>
        rw [step] at hstep
        split at hstep
        · rcases List.mem_cons.mp hstep with rfl | hold
          · exact .inr (List.mem_cons_self ..)
          · exact .inl hold
        · exact .inl hstep
      | inspect | close | edit => exact .inl hstep
    · exact .inr (List.mem_cons_of_mem a hlater)

/-- Each record has each of its keys once, as a map does. -/
def KeyedOnce (actions : List InspectorAction) : Prop :=
  ∀ request records, .deliver request (.ok records) ∈ actions →
    ∀ record ∈ records, (record.map Prod.fst).Nodup

variable {actions : List InspectorAction} {s : Inspection}

theorem nodup_facets_run
    (hopen : (run actions).inspector.inspection = some s) : s.facets.Nodup := by
  have hsheet :=
    (isCurrent_run actions).opened s.sheet (congrArg (Option.map Inspection.sheet) hopen)
  exact s.facets_eq_sheet ▸ hsheet.distinct

theorem nodup_keys_run (hkeys : KeyedOnce actions)
    (hopen : (run actions).inspector.inspection = some s) {tab : FacetTab} (htab : tab ∈ s.tabs)
    {tables : List RecordTable} (hloaded : tab.state = .loaded tables) {table : RecordTable}
    (htable : table ∈ tables) : (table.rows.map PropertyRow.key).Nodup := by
  have hsheet :=
    (isCurrent_run actions).opened s.sheet (congrArg (Option.map Inspection.sheet) hopen)
  have hentry := hsheet.entries tab.entry (List.mem_map_of_mem htab)
  rw [FacetTab.entry, hloaded, shown] at hentry
  cases houtcome : (run actions).outcome? (s.sheet.request tab.facet) with
  | none =>
    rw [houtcome] at hentry
    cases hentry
  | some outcome =>
    obtain ⟨response, hresponse, rfl⟩ := Option.map_eq_some_iff.mp houtcome
    have hdelivered := List.mem_of_find?_eq_some hresponse
    rw [houtcome, Option.elim_some] at hentry
    cases hanswer : response.2 with
    | error e =>
      rw [hanswer] at hentry
      cases hentry
    | ok records =>
      rw [hanswer] at hentry
      have htables : tables.map (RecordTable.restored tab.facet) =
          records.map (RecordTable.ofRecord tab.facet) :=
        TabState.loaded.inj hentry
      obtain ⟨record, hrecord, heq⟩ := List.mem_map.mp (htables ▸ List.mem_map_of_mem htable)
      have hsame : table.rows.map PropertyRow.key = record.map Prod.fst := by
        have hrows := congrArg (fun table => table.rows.map PropertyRow.key) heq
        simpa [RecordTable.restored, RecordTable.ofRecord, Function.comp_def, PropertyRow.restored,
          PropertyRow.ofProperty] using hrows.symm
      rw [hsame]
      have hmem := mem_of_mem_delivered actions hdelivered
      rw [hanswer] at hmem
      exact hkeys _ _ hmem record hrecord

/--
In an open inspector, after any run in which each record that arrived has each key once, take any
row of any table of a tab that is loaded, and its own address: the facet of the tab, the id of the
table's record and the key of the row. What is done under this address is done to one row of the
tab, in this table or an earlier one; and it is done to the row itself exactly if no earlier record
of the tab has the same id and a row of the same key.
-/
theorem actsOn_iff (hkeys : KeyedOnce actions)
    (hopen : (run actions).inspector.inspection = some s) {tab : FacetTab} (htab : tab ∈ s.tabs)
    {tables : List RecordTable} (hloaded : tab.state = .loaded tables) {m k : Nat}
    {table : RecordTable} {row : PropertyRow} (htable : tables[m]? = some table)
    (hrow : table.rows[k]? = some row) :
    let place : FieldRef := ⟨tab.facet, table.recordId, row.key⟩
    (∃ m₀ ≤ m, ∃ k₀ row₀, (run actions).inspector.ActsOn s place m₀ k₀ row₀) ∧
      ((run actions).inspector.ActsOn s place m k row ↔
        ∀ m' < m, ∀ earlier, tables[m']? = some earlier → earlier.recordId = table.recordId →
          ∀ row' ∈ earlier.rows, row'.key ≠ row.key) := by
  intro place
  have hdistinct := nodup_facets_run hopen
  have hfound : s.tab? place.facet = some tab := Inspection.tab?_eq_some hdistinct htab
  have hmem : row ∈ table.rows := List.mem_of_getElem? hrow
  have hholds : Inspection.holds place table = true :=
    Inspection.holds_iff.mpr ⟨rfl, row, hmem, rfl⟩
  have hunique := nodup_keys_run hkeys hopen htab hloaded (List.mem_of_getElem? htable)
  have hearlier : tables.findIdx (Inspection.holds place) = m ↔
      ∀ m' < m, ∀ earlier, tables[m']? = some earlier → earlier.recordId = table.recordId →
        ∀ row' ∈ earlier.rows, row'.key ≠ row.key := by
    rw [Inspection.findIdx_holds_iff htable hholds]
    refine forall₄_congr fun m' _ earlier _ => ?_
    rw [Inspection.holds_iff]
    simp [place]
  obtain ⟨m₀, hle, k₀, row₀, hleads⟩ := Inspection.exists_leadsTo htable hholds
  have hacts := Inspector.actsOn_of_leadsTo hopen hdistinct hfound hloaded hleads
  refine ⟨⟨m₀, hle, k₀, row₀, hacts⟩, ?_⟩
  rw [← hearlier]
  constructor
  · intro hself
    exact hleads.table.trans (hacts.table_eq hself)
  · intro hfirst
    have hself : Inspection.LeadsTo place tables m k row :=
      ⟨hfirst, table, htable, Inspection.findIdx_key hunique hrow, hrow⟩
    exact Inspector.actsOn_of_leadsTo hopen hdistinct hfound hloaded hself

def twoRecords (first second : Record) : List InspectorAction :=
  [.inspect ⟨"a", "", none, .content, []⟩, .deliver ⟨1, "a", .all⟩ (.ok [first, second])]

theorem keyedOnce_twoRecords {first second : Record} (hfirst : (first.map Prod.fst).Nodup)
    (hsecond : (second.map Prod.fst).Nodup) : KeyedOnce (twoRecords first second) := by
  intro request records hmem
  obtain ⟨-, rfl⟩ : request = ⟨1, "a", .all⟩ ∧ records = [first, second] := by
    simpa [twoRecords] using hmem
  exact List.forall_mem_cons.mpr ⟨hfirst, List.forall_mem_singleton.mpr hsecond⟩

theorem actsOn_iff_identified :
    let actions :=
      twoRecords [("id", .str "1"), ("name", .str "A")] [("id", .str "2"), ("name", .str "B")]
    KeyedOnce actions ∧ ∃ s row, (run actions).inspector.inspection = some s ∧
      row.fetched = .str "B" ∧
      (run actions).inspector.ActsOn s ⟨.all, "2", "name"⟩ 1 1 row := by
  intro actions
  have hkeys : KeyedOnce actions := keyedOnce_twoRecords (by decide) (by decide)
  have hfirst (state : TabState) (tabs : List FacetTab) :
      (⟨.all, true, true, state⟩ : FacetTab) ∈ ⟨.all, true, true, state⟩ :: tabs :=
        List.mem_cons_self ..
  refine ⟨hkeys, _, _, rfl, ?_,
    (actsOn_iff hkeys rfl (hfirst _ _) rfl (m := 1) (k := 1) rfl rfl).2.mpr ?_⟩
  · rfl
  · intro m' hm' earlier hearlier hid
    obtain rfl := Nat.lt_one_iff.mp hm'
    obtain rfl := Option.some.inj hearlier
    exact absurd hid (by decide)

/-- Of two records without an id the first is acted on under the address of a row of the second. -/
theorem actsOn_fails :
    let actions := twoRecords [("name", .str "A")] [("name", .str "B")]
    KeyedOnce actions ∧ ∃ s tab tables table row, (run actions).inspector.inspection = some s ∧
      tab ∈ s.tabs ∧ tab.state = .loaded tables ∧ tables[1]? = some table ∧
      table.rows[0]? = some row ∧ row.fetched = .str "B" ∧
      ((run actions).inspector.blur ⟨tab.facet, table.recordId, row.key⟩).map Prod.fst =
        .ok [.setProperty "a" "name" (.str "A")] ∧
      ¬(run actions).inspector.ActsOn s ⟨tab.facet, table.recordId, row.key⟩ 1 0 row := by
  intro actions
  refine ⟨keyedOnce_twoRecords (by decide) (by decide), _, _, _, _, _, rfl, List.mem_cons_self ..,
    rfl, rfl, rfl, rfl, rfl, fun h => ?_⟩
  have hblur : (.ok [.setProperty "a" "name" (.str "A")] : Except Fault (List Effect)) =
      .ok [.setProperty "a" "name" (.str "B")] := congrArg (Except.map Prod.fst) h.blur
  simp at hblur

end InspectorHistory

end ContentConsole
