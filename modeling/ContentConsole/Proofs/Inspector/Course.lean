import ContentConsole.Proofs.Inspector.Address
import Mathlib.Data.List.Induction

set_option autoImplicit false
set_option relaxedAutoImplicit false

/-!
The course of an inspector under any operations with any arguments: addresses that lead nowhere,
records that nobody asked for, facets that the entity does not have. `turns_step` lists all that one
operation can do. Main statement: `run_shows_chosen`, by which an open inspector has one tab for
each facet of its entity and shows the one that was last chosen.
-/
namespace ContentConsole

/-- What can be done to an inspector. -/
inductive InspectorOperation
  | inspect (e : Entity)
  | close
  | receive (generation : Nat) (facet : Facet) (outcome : FacetOutcome)
  | edit (a : InspectorEdit)

theorem TabState.changeAt_id (m k : Nat) (state : TabState) : state.changeAt m k id = state := by
  have htable :
      (fun table : RecordTable => { table with rows := table.rows.modify k id }) = id := by
    funext table
    rw [List.modify_id]
    rfl
  cases state with
  | loading | failed message => rfl
  | loaded tables => rw [changeAt, htable, List.modify_id]

namespace Inspection

variable {s : Inspection} {facet : Facet} {m k : Nat}

def position (s : Inspection) (place : FieldRef) : Nat × Nat :=
  let tables := (s.tab? place.facet).elim [] fun tab => tab.state.tables
  let m := tables.findIdx (holds place)
  (m, (tables[m]?.elim [] RecordTable.rows).findIdx fun row => row.key == place.key)

def fill (s : Inspection) (facet : Facet) (outcome : FacetOutcome) : Inspection :=
  s.changeTab facet fun tab => { tab with state := Inspector.arrived facet outcome }

theorem facets_map {tabs : List FacetTab} {g : FacetTab → FacetTab}
    (hg : ∀ tab, (g tab).facet = tab.facet) :
    ({ s with tabs := tabs.map g } : Inspection).facets = tabs.map FacetTab.facet := by
  simp [facets, hg]

theorem fill_eq (hdistinct : s.facets.Nodup) (outcome : FacetOutcome) : s.fill facet outcome =
    { s with tabs := s.tabs.map fun tab =>
        if tab.facet = facet then { tab with state := Inspector.arrived facet outcome }
          else tab } := by
  rw [fill, changeTab, changeFirst_eq_map hdistinct]

theorem facets_reveal : (s.reveal facet).facets = s.facets := facets_map fun _ => rfl

theorem changeAt_congr (hdistinct : s.facets.Nodup) {f g : PropertyRow → PropertyRow}
    (hsame : ∀ row, s.rowAt? facet m k = some row → f row = g row) :
    s.changeAt facet m k f = s.changeAt facet m k g := by
  refine congrArg (fun tabs => { s with tabs }) (List.map_congr_left fun tab htab => ?_)
  split
  case isFalse => rfl
  rename_i hfacet
  subst hfacet
  have hrow : ∀ table, tab.state.tables[m]? = some table → ∀ row, table.rows[k]? = some row →
      f row = g row := by
    intro table htable row hrow
    refine hsame row ?_
    rw [rowAt?, tab?_eq_some hdistinct htab, Option.bind_some, htable, Option.bind_some, hrow]
  have hstate : tab.state.changeAt m k f = tab.state.changeAt m k g := by
    cases hloaded : tab.state with
    | loading | failed message => rfl
    | loaded tables =>
      rw [hloaded] at hrow
      exact congrArg TabState.loaded (modify_congr fun table htable =>
        congrArg (fun rows => { table with rows }) (modify_congr (hrow table htable)))
  rw [hstate]

theorem changeAt_eq_self (hdistinct : s.facets.Nodup) {f : PropertyRow → PropertyRow}
    (hsame : ∀ row, s.rowAt? facet m k = some row → f row = row) : s.changeAt facet m k f = s := by
  have htab (tab : FacetTab) :
      (if tab.facet = facet then { tab with state := tab.state.changeAt m k id } else tab) =
        tab := by
    rw [TabState.changeAt_id]
    split <;> rfl
  rw [changeAt_congr hdistinct (g := id) hsame, changeAt, funext htab, List.map_id']

end Inspection

namespace InspectorEdit

/-- The address of the row that is acted on; none for the choice of a tab. -/
def place? : InspectorEdit → Option FieldRef
  | .select _ => none
  | .focus place | .edit place _ | .blur place | .flip place => some place

def onRow : InspectorEdit → PropertyRow → PropertyRow
  | .select _, row => row
  | .focus _, row => { row with isActive := true }
  | .edit _ text, row => row.type text
  | .blur _, row => row.leave
  | .flip _, row => (row.flip?.map Prod.snd).getD row

def effects (s : Inspection) (row : PropertyRow) : InspectorEdit → List Effect
  | .select _ | .focus _ | .edit .. => []
  | .blur _ => s.leaving row
  | .flip _ =>
    match row.flip? with
    | none => []
    | some (isOn, _) => [.setProperty s.entityId row.key (.bool isOn), .reloadPreviews]

end InspectorEdit

namespace Inspector

variable {i : Inspector} {s : Inspection} {a : InspectorEdit} {place : FieldRef} {m k : Nat}
  {row : PropertyRow}

/-- The answer to an edit: the effects that it asks for and the inspector after it, or an error. -/
def attempt (i : Inspector) : InspectorEdit → Except Fault (List Effect × Inspector)
  | .select facet => (i.select facet).map fun after => ([], after)
  | .focus place => (i.focus place).map fun after => ([], after)
  | .edit place text => (i.edit place text).map fun after => ([], after)
  | .blur place => i.blur place
  | .flip place => i.flip place

theorem perform_eq_attempt (i : Inspector) (a : InspectorEdit) :
    i.perform a = ((i.attempt a).toOption.map Prod.snd).getD i := by
  cases a with
  | select facet => rw [perform, attempt]; cases i.select facet <;> rfl
  | focus place => rw [perform, attempt]; cases i.focus place <;> rfl
  | edit place text => rw [perform, attempt]; cases i.edit place text <;> rfl
  | blur place | flip place => rfl

theorem select_cases (i : Inspector) (facet : Facet) :
    (∃ s, i.inspection = some s ∧ facet ∈ s.facets ∧
      i.select facet = .ok { i with inspection := some (s.reveal facet) }) ∨
      (∀ s, i.inspection = some s → facet ∉ s.facets) ∧ ∃ e, i.select facet = .error e := by
  rw [select, opened]
  cases hopen : i.inspection with
  | none => exact .inr ⟨fun s hopened => absurd hopened.symm (Option.some_ne_none s), _, rfl⟩
  | some s =>
    dsimp only
    cases htab : s.tab? facet with
    | none =>
      refine .inr ⟨fun opened hopened hfacet => ?_, _, rfl⟩
      obtain rfl := Option.some.inj hopened
      rw [← Inspection.isSome_tab?_iff, htab] at hfacet
      cases hfacet
    | some tab =>
      refine .inl ⟨s, rfl, Inspection.isSome_tab?_iff.mp ?_, rfl⟩
      rw [htab]
      rfl

theorem actsOn_position (hopen : i.inspection = some s) (hdistinct : s.facets.Nodup)
    (hrow : s.row place = .ok row) :
    i.ActsOn s place (s.position place).1 (s.position place).2 row := by
  obtain ⟨tab, tables, htab, hloaded, hfound⟩ := Inspection.row_eq_ok_iff.mp hrow
  have hsome : ∃ table ∈ tables, Inspection.holds place table = true := by
    have hmem := List.mem_of_find?_eq_some hfound
    obtain ⟨table, htable, hrows⟩ := List.mem_flatMap.mp hmem
    obtain ⟨htable, hid⟩ := List.mem_filter.mp htable
    have hkey : row.key = place.key := by simpa using List.find?_some hfound
    exact ⟨table, htable, Inspection.holds_iff.mpr ⟨by simpa using hid, row, hrows, hkey⟩⟩
  obtain ⟨table, htable, hholds⟩ := hsome
  obtain ⟨m, hm⟩ := List.mem_iff_getElem?.mp htable
  obtain ⟨m₀, -, k₀, row₀, hleads⟩ := Inspection.exists_leadsTo hm hholds
  obtain rfl := Except.ok.inj (hrow.symm.trans (hleads.row_eq_ok htab hloaded))
  have hposition : s.position place = (m₀, k₀) := by
    obtain ⟨hm₀, first, hfirst, hk₀, -⟩ := hleads
    rw [Inspection.position, htab, Option.elim_some, hloaded, TabState.tables, hm₀, hfirst,
      Option.elim_some, hk₀]
  rw [hposition]
  exact actsOn_of_leadsTo hopen hdistinct htab hloaded hleads

theorem attempt_of_located_eq_error (hplace : a.place? = some place) {e : Fault}
    (herror : i.located place = .error e) : i.attempt a = .error e := by
  cases a with
  | select facet => cases hplace
  | focus place =>
    obtain rfl := Option.some.inj hplace
    rw [attempt, Inspector.focus, herror]
    rfl
  | edit place text =>
    obtain rfl := Option.some.inj hplace
    rw [attempt, Inspector.edit, herror]
    rfl
  | blur place =>
    obtain rfl := Option.some.inj hplace
    rw [attempt, Inspector.blur, herror]
  | flip place =>
    obtain rfl := Option.some.inj hplace
    rw [attempt, Inspector.flip, herror]

theorem ActsOn.attempt_eq (h : i.ActsOn s place m k row) (hopen : i.inspection = some s)
    (hdistinct : s.facets.Nodup) (hplace : a.place? = some place) : i.attempt a =
      .ok (a.effects s row,
        { i with inspection := some (s.changeAt place.facet m k a.onRow) }) := by
  cases a with
  | select facet => cases hplace
  | focus place =>
    obtain rfl := Option.some.inj hplace
    rw [attempt, h.focus]
    rfl
  | edit place text =>
    obtain rfl := Option.some.inj hplace
    rw [attempt, h.edit]
    rfl
  | blur place =>
    obtain rfl := Option.some.inj hplace
    exact h.blur
  | flip place =>
    obtain rfl := Option.some.inj hplace
    have hchange : ∀ f : PropertyRow → PropertyRow, f row = (row.flip?.map Prod.snd).getD row →
        s.changeAt place.facet m k (InspectorEdit.flip place).onRow =
          s.changeAt place.facet m k f := by
      refine fun f hf => Inspection.changeAt_congr hdistinct fun found hfound => ?_
      obtain rfl := Option.some.inj (h.found.symm.trans hfound)
      exact hf.symm
    rw [attempt, h.flip, InspectorEdit.effects]
    cases hflip : row.flip? with
    | none =>
      have hsame : s.changeAt place.facet m k (InspectorEdit.flip place).onRow = s := by
        refine Inspection.changeAt_eq_self hdistinct fun found hfound => ?_
        obtain rfl := Option.some.inj (h.found.symm.trans hfound)
        rw [InspectorEdit.onRow, hflip]
        rfl
      rw [hsame, ← hopen]
    | some flipped => rw [hchange (fun _ => flipped.2) (by rw [hflip]; rfl)]

end Inspector

/-- An inspector with what its user and its server did to it since it was last opened. -/
structure InspectorCourse where
  inspector : Inspector := {}
  /-- The entity it was opened for; none once it is closed. -/
  entity? : Option Entity := none
  /-- The facet chosen last; the first one if none was. -/
  chosen : Facet := .all
  /-- The newest response taken for each facet. -/
  taken : Facet → Option FacetOutcome := fun _ => none
  /-- The texts typed into the row at each position of each facet since that was filled. -/
  typed : Facet → Nat → Nat → List String := fun _ _ _ => []

namespace InspectorCourse

variable {c : InspectorCourse} {s : Inspection}

def typedBy (c : InspectorCourse) : InspectorEdit → Facet → Nat → Nat → List String
  | .edit place text => fun facet m k =>
    if facet = place.facet ∧ c.inspector.inspection.map (·.position place) = some (m, k) then
      c.typed facet m k ++ [text]
    else c.typed facet m k
  | .select _ | .focus _ | .blur _ | .flip _ => c.typed

def chosenBy (c : InspectorCourse) : InspectorEdit → Facet
  | .select facet => facet
  | .focus _ | .edit .. | .blur _ | .flip _ => c.chosen

def step (c : InspectorCourse) : InspectorOperation → InspectorCourse
  | .inspect e => { inspector := (c.inspector.inspect e).2, entity? := some e }
  | .close => { inspector := c.inspector.close }
  | .receive generation facet outcome =>
    match c.inspector.receive generation facet outcome with
    | (false, inspector) => { c with inspector }
    | (true, inspector) =>
      { c with
        inspector
        taken := fun other => if other = facet then some outcome else c.taken other
        typed := fun other => if other = facet then fun _ _ => [] else c.typed other }
  | .edit a =>
    match c.inspector.attempt a with
    | .error _ => { c with inspector := c.inspector.perform a }
    | .ok _ =>
      { c with inspector := c.inspector.perform a, chosen := c.chosenBy a, typed := c.typedBy a }

def run (operations : List InspectorOperation) : InspectorCourse := operations.foldl step {}

theorem run_append_singleton (operations : List InspectorOperation)
    (operation : InspectorOperation) :
    run (operations ++ [operation]) = (run operations).step operation := by
  rw [run, List.foldl_append]
  rfl

/-- What a tab has to show: the newest response, and until then that it loads. -/
def shown (c : InspectorCourse) (facet : Facet) : TabState :=
  (c.taken facet).elim .loading (Inspector.arrived facet)

def showing (c : InspectorCourse) (s : Inspection) : InspectorCourse :=
  { c with inspector := { c.inspector with inspection := some s } }

/-- All that one operation can do. -/
inductive Turns (c : InspectorCourse) : InspectorOperation → InspectorCourse → Prop
  | opened (e : Entity) :
      c.Turns (.inspect e) { inspector := (c.inspector.inspect e).2, entity? := some e }
  | closed : c.Turns .close { inspector := c.inspector.close }
  | refused (operation : InspectorOperation) : c.Turns operation c
  | filled {s : Inspection} (hopen : c.inspector.inspection = some s) (generation : Nat)
      (facet : Facet) (outcome : FacetOutcome) :
      c.Turns (.receive generation facet outcome)
        { c.showing (s.fill facet outcome) with
          taken := fun other => if other = facet then some outcome else c.taken other
          typed := fun other => if other = facet then fun _ _ => [] else c.typed other }
  | chose {s : Inspection} (hopen : c.inspector.inspection = some s) {facet : Facet}
      (hfacet : facet ∈ s.facets) :
      c.Turns (.edit (.select facet)) { c.showing (s.reveal facet) with chosen := facet }
  | acted {s : Inspection} (hopen : c.inspector.inspection = some s) {a : InspectorEdit}
      {place : FieldRef} (hplace : a.place? = some place) :
      c.Turns (.edit a)
        { c.showing (s.changeAt place.facet (s.position place).1 (s.position place).2 a.onRow) with
          typed := c.typedBy a }

theorem turns_step (hdistinct : ∀ s, c.inspector.inspection = some s → s.facets.Nodup)
    (operation : InspectorOperation) : c.Turns operation (c.step operation) := by
  cases operation with
  | inspect e => exact .opened e
  | close => exact .closed
  | receive generation facet outcome =>
    rw [step]
    rcases c.inspector.receive_cases generation facet outcome with ⟨s, hopen, -, -, hreceive⟩
      | ⟨-, hreceive⟩
    · rw [hreceive]
      exact .filled hopen generation facet outcome
    · rw [hreceive]
      exact .refused _
  | edit a =>
    have hrefused {e : Fault} (herror : c.inspector.attempt a = .error e) :
        c.step (.edit a) = c := by
      rw [step, Inspector.perform_eq_attempt, herror]
      rfl
    cases hplace : a.place? with
    | none =>
      cases a with
      | focus place | edit place text | blur place | flip place => cases hplace
      | select facet =>
        rcases c.inspector.select_cases facet with ⟨s, hopen, hfacet, hselect⟩ | ⟨-, e, herror⟩
        · have hstep : c.step (.edit (.select facet)) =
              { c.showing (s.reveal facet) with chosen := facet } := by
            rw [step, Inspector.perform_eq_attempt, Inspector.attempt, hselect]
            rfl
          rw [hstep]
          exact .chose hopen hfacet
        · rw [hrefused (e := e) (by rw [Inspector.attempt, herror]; rfl)]
          exact .refused _
    | some place =>
      cases hlocated : c.inspector.located place with
      | error e =>
        rw [hrefused (Inspector.attempt_of_located_eq_error hplace hlocated)]
        exact .refused _
      | ok found =>
        obtain ⟨hopen, hrow⟩ := Inspector.located_eq_ok_iff.mp hlocated
        have hacts := Inspector.actsOn_position hopen (hdistinct _ hopen) hrow
        have hchosen : c.chosenBy a = c.chosen := by
          cases a with
          | select facet => cases hplace
          | focus place | edit place text | blur place | flip place => rfl
        rw [step, Inspector.perform_eq_attempt, hacts.attempt_eq hopen (hdistinct _ hopen) hplace]
        dsimp only
        rw [hchosen]
        exact .acted hopen hplace

end InspectorCourse

/-- The content is that of an entity, with a tab for each of its facets, of
which the chosen one is shown. -/
structure Inspection.Presents (s : Inspection) (e : Entity) (chosen : Facet) : Prop where
  entityId : s.entityId = e.id
  type : s.type = e.type
  facets : s.facets = Facet.ofType s.type
  mem_facets : chosen ∈ s.facets
  bodyVisible : ∀ tab ∈ s.tabs, tab.bodyVisible = (tab.facet == chosen)
  headerActive : ∀ tab ∈ s.tabs, tab.headerActive = (tab.facet == chosen)

namespace Inspection.Presents

variable {s : Inspection} {e : Entity} {chosen : Facet}

theorem nodup_facets (h : s.Presents e chosen) : s.facets.Nodup :=
  h.facets ▸ Facet.nodup_ofType s.type

theorem map {g : FacetTab → FacetTab} (h : s.Presents e chosen)
    (hg : ∀ tab, (g tab).facet = tab.facet ∧ (g tab).bodyVisible = tab.bodyVisible ∧
      (g tab).headerActive = tab.headerActive) :
    ({ s with tabs := s.tabs.map g } : Inspection).Presents e chosen := by
  have hfacets : ({ s with tabs := s.tabs.map g } : Inspection).facets = s.facets :=
    facets_map fun tab => (hg tab).1
  refine ⟨h.entityId, h.type, hfacets.trans h.facets, hfacets ▸ h.mem_facets, ?_, ?_⟩
  · refine List.forall_mem_map.mpr fun tab htab => ?_
    rw [(hg tab).2.1, (hg tab).1, h.bodyVisible tab htab]
  · refine List.forall_mem_map.mpr fun tab htab => ?_
    rw [(hg tab).2.2, (hg tab).1, h.headerActive tab htab]

theorem fill (h : s.Presents e chosen) (facet : Facet) (outcome : FacetOutcome) :
    (s.fill facet outcome).Presents e chosen := by
  rw [fill_eq h.nodup_facets]
  exact h.map fun tab => by split <;> exact ⟨rfl, rfl, rfl⟩

theorem changeAt (h : s.Presents e chosen) (facet : Facet) (m k : Nat)
    (f : PropertyRow → PropertyRow) : (s.changeAt facet m k f).Presents e chosen :=
  h.map fun tab => by split <;> exact ⟨rfl, rfl, rfl⟩

theorem reveal {facet : Facet} (h : s.Presents e chosen) (hfacet : facet ∈ s.facets) :
    (s.reveal facet).Presents e facet where
  entityId := h.entityId
  type := h.type
  facets := facets_reveal.trans h.facets
  mem_facets := by
    rw [facets_reveal]
    exact hfacet
  bodyVisible := List.forall_mem_map.mpr fun _ _ => rfl
  headerActive := List.forall_mem_map.mpr fun _ _ => rfl

theorem inspect (i : Inspector) (e : Entity) :
    ∃ s, (i.inspect e).2.inspection = some s ∧ s.Presents e .all := by
  have hfacets : ∀ generation, (⟨e.id, e.type, generation, (Facet.ofType e.type).map fun facet =>
      ⟨facet, facet == .all, facet == .all, .loading⟩⟩ : Inspection).facets = Facet.ofType e.type :=
        fun generation => by
    simp [Inspection.facets, Function.comp_def]
  refine ⟨_, rfl, rfl, rfl, hfacets _, ?_, ?_, ?_⟩
  · rw [hfacets]
    cases e.type <;> decide
  · exact List.forall_mem_map.mpr fun _ _ => rfl
  · exact List.forall_mem_map.mpr fun _ _ => rfl

theorem filter_eq_singleton (h : s.Presents e chosen) :
    ∃ tab, tab.facet = chosen ∧ s.tabs.filter (fun tab => tab.facet == chosen) = [tab] := by
  have hcount : (s.tabs.filter fun tab => tab.facet == chosen).length = 1 := by
    have hone := List.count_eq_one_of_mem h.nodup_facets h.mem_facets
    rw [Inspection.facets, List.count, List.countP_map, List.countP_eq_length_filter] at hone
    exact hone
  obtain ⟨tab, htab⟩ := List.length_eq_one_iff.mp hcount
  have hmem : tab ∈ s.tabs.filter fun tab => tab.facet == chosen :=
    htab ▸ List.mem_singleton_self tab
  exact ⟨tab, by simpa using (List.mem_filter.mp hmem).2, htab⟩

end Inspection.Presents

namespace InspectorCourse

variable {c after : InspectorCourse} {operation : InspectorOperation}

theorem Turns.presents (hturns : c.Turns operation after)
    (h : ∀ s, c.inspector.inspection = some s → ∃ e, c.entity? = some e ∧ s.Presents e c.chosen) :
    ∀ s, after.inspector.inspection = some s → ∃ e, after.entity? = some e ∧
      s.Presents e after.chosen := by
  cases hturns with
  | opened e =>
    intro s hopen
    obtain ⟨fresh, hfresh, hpresents⟩ := Inspection.Presents.inspect c.inspector e
    obtain rfl := Option.some.inj (hfresh.symm.trans hopen)
    exact ⟨e, rfl, hpresents⟩
  | closed => exact nofun
  | refused => exact h
  | filled hopen generation facet outcome =>
    rintro s ⟨⟩
    obtain ⟨e, he, hpresents⟩ := h _ hopen
    exact ⟨e, he, hpresents.fill facet outcome⟩
  | chose hopen hfacet =>
    rintro s ⟨⟩
    obtain ⟨e, he, hpresents⟩ := h _ hopen
    exact ⟨e, he, hpresents.reveal hfacet⟩
  | acted hopen hplace =>
    rintro s ⟨⟩
    obtain ⟨e, he, hpresents⟩ := h _ hopen
    exact ⟨e, he, hpresents.changeAt _ _ _ _⟩

theorem presents_run (operations : List InspectorOperation) :
    ∀ s, (run operations).inspector.inspection = some s →
      ∃ e, (run operations).entity? = some e ∧ s.Presents e (run operations).chosen := by
  induction operations using List.reverseRecOn with
  | nil => exact nofun
  | append_singleton operations operation ih =>
    rw [run_append_singleton]
    refine (turns_step (fun s hopen => ?_) operation).presents ih
    obtain ⟨e, -, hpresents⟩ := ih s hopen
    exact hpresents.nodup_facets

theorem nodup_facets (operations : List InspectorOperation) :
    ∀ s, (run operations).inspector.inspection = some s → s.facets.Nodup := by
  intro s hopen
  obtain ⟨e, -, hpresents⟩ := presents_run operations s hopen
  exact hpresents.nodup_facets

/--
After any operations an open inspector has exactly the facets of its entity's type as its tabs, in
their order. One tab has its body shown, one has its header marked, and both are the tab of the
facet chosen last since the inspector was opened, or of the first facet. A facet cannot be chosen
exactly if the inspector is closed or the entity has no such facet, and then nothing changes.
-/
theorem run_shows_chosen (operations : List InspectorOperation) :
    let c := run operations
    (∀ s, c.inspector.inspection = some s →
      (∃ e, c.entity? = some e ∧ s.entityId = e.id ∧ s.type = e.type) ∧
      s.facets = Facet.ofType s.type ∧
        s.activeFacet = some c.chosen ∧ ∃ tab, tab.facet = c.chosen ∧
          s.tabs.filter FacetTab.bodyVisible = [tab] ∧
            s.tabs.filter FacetTab.headerActive = [tab]) ∧
      ∀ facet, ((∃ e, c.inspector.select facet = .error e) ↔
          ∀ s, c.inspector.inspection = some s → facet ∉ Facet.ofType s.type) ∧
        ((∃ e, c.inspector.select facet = .error e) →
          run (operations ++ [.edit (.select facet)]) = c) := by
  intro c
  have hpresents := presents_run operations
  refine ⟨fun s hopen => ?_, fun facet => ⟨?_, ?_⟩⟩
  · obtain ⟨e, he, h⟩ := hpresents s hopen
    obtain ⟨tab, hfacet, hfilter⟩ := h.filter_eq_singleton
    have hbody : s.tabs.filter FacetTab.bodyVisible = [tab] :=
      (List.filter_congr h.bodyVisible).trans hfilter
    have hheader : s.tabs.filter FacetTab.headerActive = [tab] :=
      (List.filter_congr h.headerActive).trans hfilter
    have hactive : s.activeFacet = some c.chosen := by
      rw [Inspection.activeFacet, ← List.head?_filter, hbody, List.head?_singleton,
        Option.map_some, hfacet]
    exact ⟨⟨e, he, h.entityId, h.type⟩, h.facets, hactive, tab, hfacet, hbody, hheader⟩
  · have htype : ∀ s, c.inspector.inspection = some s →
        (facet ∉ s.facets ↔ facet ∉ Facet.ofType s.type) := by
      intro s hopen
      obtain ⟨e, -, h⟩ := hpresents s hopen
      rw [h.facets]
    rcases c.inspector.select_cases facet with ⟨s, hopen, hfacet, hselect⟩ | ⟨hnone, herror⟩
    · refine iff_of_false (fun ⟨e, herror⟩ => ?_) fun hnone =>
        (htype s hopen).mpr (hnone s hopen) hfacet
      rw [hselect] at herror
      cases herror
    · exact iff_of_true herror fun s hopen => (htype s hopen).mp (hnone s hopen)
  · rintro ⟨e, herror⟩
    rw [run_append_singleton, step, Inspector.perform_eq_attempt, Inspector.attempt, herror]
    rfl

/-- The choice of a facet that the entity does not have is refused. -/
example : let e : Entity := ⟨"a", "", none, .content, []⟩
    let c := run [.inspect e, .edit (.select .outgoing), .edit (.select .html)]
    c.chosen = .outgoing ∧ c.inspector.inspection.bind Inspection.activeFacet =
      some .outgoing := by decide

end InspectorCourse

end ContentConsole
