import ContentConsole.Proofs.Inspector.Course

set_option autoImplicit false
set_option relaxedAutoImplicit false

/-!
The marker of a changed row. It is set when a text is typed that differs from the draft of that
moment, and stays until the row is left. Main statement: `isChanged_run_iff`, by which the
marker stands for a draft that differs from the fetched text exactly if the fetched text was not
typed again after another one.
-/
namespace ContentConsole

namespace Inspection

variable {s : Inspection} {facet : Facet} {m k : Nat}

theorem rowAt?_reveal (facet' : Facet) (m' k' : Nat) :
    (s.reveal facet).rowAt? facet' m' k' = s.rowAt? facet' m' k' := by
  rw [rowAt?, reveal, tab?_map (fun _ => by rfl), Option.bind_map, rowAt?]
  rfl

theorem rowAt?_fill_of_ne (hdistinct : s.facets.Nodup) (outcome : FacetOutcome) {facet' : Facet}
    (hne : facet' ≠ facet) (m' k' : Nat) :
    (s.fill facet outcome).rowAt? facet' m' k' = s.rowAt? facet' m' k' := by
  rw [rowAt?, fill_eq hdistinct, tab?_map (fun tab => by split <;> rfl), rowAt?]
  cases htab : s.tab? facet' with
  | none => rfl
  | some tab =>
    rw [Option.map_some, Option.bind_some, Option.bind_some, if_neg (facet_of_tab? htab ▸ hne)]

theorem rowAt?_fill {outcome : FacetOutcome} {row : PropertyRow}
    (hrow : (s.fill facet outcome).rowAt? facet m k = some row) : row = row.restored facet := by
  rw [rowAt?, fill, tab?_changeTab (fun _ => by rfl), Option.bind_map] at hrow
  obtain ⟨tab, -, hrow⟩ := Option.bind_eq_some_iff.mp hrow
  cases outcome with
  | error e => simp [Inspector.arrived, TabState.tables] at hrow
  | ok records =>
    obtain ⟨table, htable, hrow⟩ := Option.bind_eq_some_iff.mp hrow
    obtain ⟨record, -, rfl⟩ := List.mem_map.mp (List.mem_of_getElem? htable)
    obtain ⟨property, -, rfl⟩ := List.mem_map.mp (List.mem_of_getElem? hrow)
    rfl

end Inspection

namespace PropertyRow

theorem foldl_type (texts : List String) {row : PropertyRow} {draft : String}
    (hdraft : row.control = .input draft) :
    (texts.foldl PropertyRow.type row).control = .input (texts.getLastD draft) ∧
      ((texts.foldl PropertyRow.type row).isChanged = true ↔
        row.isChanged = true ∨ ∃ text ∈ texts, text ≠ draft) := by
  induction texts generalizing row draft with
  | nil => simp [hdraft]
  | cons text texts ih =>
    rw [List.foldl_cons, List.getLastD_cons]
    by_cases hsame : draft = text
    · have htype : row.type text = row := by simp [type, hdraft, hsame]
      obtain ⟨hcontrol, hchanged⟩ := ih hdraft
      rw [htype]
      refine ⟨hsame ▸ hcontrol, hchanged.trans ?_⟩
      simp [hsame]
    · have htype : row.type text = { row with control := .input text, isChanged := true } := by
        simp [type, hdraft, hsame]
      have htyped : (row.type text).control = .input text := by rw [htype]
      obtain ⟨hcontrol, hchanged⟩ := ih htyped
      refine ⟨hcontrol, hchanged.trans ?_⟩
      simp [htype, Ne.symm hsame]

theorem exists_draft_of_type {row : PropertyRow} {text draft : String}
    (hdraft : (row.type text).control = .input draft) : ∃ old, row.control = .input old := by
  cases hcontrol : row.control with
  | input old => exact ⟨old, rfl⟩
  | switch isOn | text shown => simp [type, hcontrol] at hdraft

theorem exists_draft_of_foldl_type {texts : List String} {row : PropertyRow} {draft : String}
    (hdraft : (texts.foldl PropertyRow.type row).control = .input draft) :
    ∃ old, row.control = .input old := by
  induction texts generalizing row with
  | nil => exact ⟨draft, hdraft⟩
  | cons text texts ih =>
    obtain ⟨old, hold⟩ := ih hdraft
    exact exists_draft_of_type hold

theorem flip_eq_self {row : PropertyRow} {draft : String}
    (hdraft : ((row.flip?.map Prod.snd).getD row).control = .input draft) :
    (row.flip?.map Prod.snd).getD row = row := by
  cases hcontrol : row.control with
  | switch isOn => simp [flip?, hcontrol] at hdraft
  | input old | text shown => simp [flip?, hcontrol]

theorem type_idle (row : PropertyRow) (text : String) :
    ({ row with isActive := false } : PropertyRow).type text =
      { row.type text with isActive := false } := by
  cases hcontrol : row.control with
  | input draft => by_cases hsame : draft = text <;> simp [type, hcontrol, hsame]
  | switch isOn | text shown => simp [type, hcontrol]

end PropertyRow

namespace InspectorCourse

/-- Each input, its focus apart, is the row that was fetched with the texts typed since. -/
def Replays (c : InspectorCourse) (s : Inspection) : Prop :=
  ∀ facet m k row draft, s.rowAt? facet m k = some row → row.control = .input draft →
    { row with isActive := false } = (c.typed facet m k).foldl PropertyRow.type (row.restored facet)

variable {c after : InspectorCourse} {operation : InspectorOperation}

theorem typedBy_edit {s : Inspection} (hopen : c.inspector.inspection = some s) (place : FieldRef)
    (text : String) (facet : Facet) (m k : Nat) : c.typedBy (.edit place text) facet m k =
      if facet = place.facet ∧ s.position place = (m, k) then c.typed facet m k ++ [text]
      else c.typed facet m k := by
  simp [typedBy, hopen]

theorem typedBy_of_not_at {s : Inspection} {a : InspectorEdit} {place : FieldRef} {facet : Facet}
    {m k : Nat} (hopen : c.inspector.inspection = some s) (hplace : a.place? = some place)
    (hat : ¬(facet = place.facet ∧ s.position place = (m, k))) :
    c.typedBy a facet m k = c.typed facet m k := by
  cases a with
  | edit place text =>
    obtain rfl := Option.some.inj hplace
    rw [typedBy_edit hopen, if_neg hat]
  | select facet | focus place | blur place | flip place => rfl

theorem Replays.onRow {s : Inspection} {a : InspectorEdit} {place : FieldRef} {facet : Facet}
    {m k : Nat} {row : PropertyRow} {draft : String} (h : c.Replays s)
    (hopen : c.inspector.inspection = some s) (hplace : a.place? = some place)
    (hblur : ∀ place, a ≠ .blur place) (hat : facet = place.facet ∧ s.position place = (m, k))
    (hrow : s.rowAt? facet m k = some row) (hdraft : (a.onRow row).control = .input draft) :
    { a.onRow row with isActive := false } =
      (c.typedBy a facet m k).foldl PropertyRow.type ((a.onRow row).restored facet) := by
  cases a with
  | select facet => cases hplace
  | focus place => exact h facet m k row draft hrow hdraft
  | blur place => exact absurd rfl (hblur place)
  | flip place =>
    rw [InspectorEdit.onRow] at hdraft ⊢
    have hsame := PropertyRow.flip_eq_self hdraft
    rw [hsame] at hdraft ⊢
    exact h facet m k row draft hrow hdraft
  | edit place text =>
    obtain rfl := Option.some.inj hplace
    rw [InspectorEdit.onRow] at hdraft ⊢
    obtain ⟨old, hold⟩ := PropertyRow.exists_draft_of_type hdraft
    have hrestored : (row.type text).restored facet = row.restored facet := by
      rw [PropertyRow.restored, PropertyRow.key_type, PropertyRow.fetched_type,
        PropertyRow.restored]
    have hreplays := h facet m k row old hrow hold
    rw [typedBy_edit hopen, if_pos hat, List.foldl_append, hrestored, ← hreplays]
    exact (row.type_idle text).symm

theorem Turns.replays (hturns : c.Turns operation after)
    (hunblurred : ∀ place, operation ≠ .edit (.blur place))
    (hdistinct : ∀ s, c.inspector.inspection = some s → s.facets.Nodup)
    (h : ∀ s, c.inspector.inspection = some s → c.Replays s) :
    ∀ s, after.inspector.inspection = some s → after.Replays s := by
  cases hturns with
  | opened e =>
    rintro s ⟨⟩ facet m k row draft hrow
    obtain ⟨tab, htab, hrow⟩ := Option.bind_eq_some_iff.mp hrow
    obtain ⟨facet, -, rfl⟩ := List.mem_map.mp (List.mem_of_find?_eq_some htab)
    simp [TabState.tables] at hrow
  | closed => rintro s ⟨⟩
  | refused => exact h
  | @filled s hopen generation facet outcome =>
    rintro filled ⟨⟩ facet' m k row draft hrow hdraft
    by_cases hfacet : facet' = facet
    · subst hfacet
      have hfresh := Inspection.rowAt?_fill hrow
      have hidle : ({ row with isActive := false } : PropertyRow) = row := by
        rw [hfresh]
        rfl
      simp only [if_true, List.foldl_nil]
      rw [hidle]
      exact hfresh
    · simp only [if_neg hfacet]
      rw [Inspection.rowAt?_fill_of_ne (hdistinct _ hopen) outcome hfacet] at hrow
      exact h _ hopen facet' m k row draft hrow hdraft
  | chose hopen hfacet =>
    rintro s ⟨⟩ facet m k row draft hrow
    rw [Inspection.rowAt?_reveal] at hrow
    exact h _ hopen facet m k row draft hrow
  | @acted s hopen a place hplace =>
    rintro changed ⟨⟩ facet m k left draft hleft hdraft
    rw [Inspection.rowAt?_changeAt] at hleft
    by_cases hat : facet = place.facet ∧ s.position place = (m, k)
    · rw [if_pos hat] at hleft
      obtain ⟨row, hrow, rfl⟩ := Option.map_eq_some_iff.mp hleft
      exact (h _ hopen).onRow hopen hplace (fun place heq => hunblurred place (congrArg _ heq)) hat
        hrow hdraft
    · rw [if_neg hat] at hleft
      dsimp only
      rw [typedBy_of_not_at hopen hplace hat]
      exact h _ hopen facet m k left draft hleft hdraft

theorem replays_run {operations : List InspectorOperation}
    (hunblurred : ∀ place, .edit (.blur place) ∉ operations) :
    ∀ s, (run operations).inspector.inspection = some s → (run operations).Replays s := by
  induction operations using List.reverseRecOn with
  | nil => exact nofun
  | append_singleton operations operation ih =>
    have hdistinct := nodup_facets operations
    have hbefore : ∀ place, .edit (.blur place) ∉ operations := fun place hmem =>
      hunblurred place (List.mem_append_left _ hmem)
    rw [run_append_singleton]
    refine (turns_step hdistinct operation).replays (fun place hblur => ?_) hdistinct (ih hbefore)
    exact hunblurred place (List.mem_append_right _ (List.mem_singleton.mpr hblur.symm))

/--
After any operations by which no row was left, take any row with an input, in any tab that is
loaded. Its draft is the text typed into it last, and until then the fetched text. It is marked as
changed exactly if some text that was typed differs from the fetched one. So the marker is right, in
that it stands for a draft that differs from the fetched text, exactly if the fetched text was not
typed again after another one. Leaving the row writes the draft, and asks for a reload of the
previews exactly if the row is marked.
-/
theorem isChanged_run_iff {operations : List InspectorOperation}
    (hunblurred : ∀ place, .edit (.blur place) ∉ operations) {s : Inspection}
    (hopen : (run operations).inspector.inspection = some s) {facet : Facet} {m k : Nat}
    {row : PropertyRow} {draft : String} (hrow : s.rowAt? facet m k = some row)
    (hdraft : row.control = .input draft) :
    let typed := (run operations).typed facet m k
    ∃ fetched, Control.ofProperty row.key row.fetched = .input fetched ∧
      draft = typed.getLastD fetched ∧
      (row.isChanged = true ↔ ∃ text ∈ typed, text ≠ fetched) ∧
      ((row.isChanged = true ↔ draft ≠ fetched) ↔
        ¬(draft = fetched ∧ ∃ text ∈ typed, text ≠ fetched)) ∧
      ∀ place, s.row place = .ok row → ((run operations).inspector.blur place).map Prod.fst =
        .ok (.setProperty s.entityId row.key (row.fetched.retyped draft) ::
          if row.isChanged then [.reloadPreviews] else []) := by
  intro typed
  have hreplays := replays_run hunblurred s hopen facet m k row draft hrow hdraft
  have hfolded : (typed.foldl PropertyRow.type (row.restored facet)).control = .input draft :=
    hreplays ▸ hdraft
  obtain ⟨fetched, hfetched⟩ := PropertyRow.exists_draft_of_foldl_type hfolded
  obtain ⟨hlast, hmarked⟩ := PropertyRow.foldl_type typed hfetched
  have hlast : draft = typed.getLastD fetched := Control.input.inj (hfolded.symm.trans hlast)
  have hmarked : row.isChanged = true ↔ ∃ text ∈ typed, text ≠ fetched := by
    rw [← hreplays] at hmarked
    exact hmarked.trans (or_iff_right Bool.false_ne_true)
  refine ⟨fetched, hfetched, hlast, hmarked, ?_, fun place hplace => ?_⟩
  · rw [hmarked]
    constructor
    · rintro hright ⟨hsame, htexts⟩
      exact hright.mp htexts hsame
    · refine fun hnot =>
        ⟨fun htexts hsame => hnot ⟨hsame, htexts⟩, fun hdiffers => ⟨draft, ?_, hdiffers⟩⟩
      -- a draft that is not the fetched text was typed
      rw [hlast] at hdiffers ⊢
      have hmem : typed.getLastD fetched ∈ fetched :: typed := List.getLastD_mem_cons
      exact (List.mem_cons.mp hmem).resolve_left hdiffers
  · have hleaving : s.leaving row = .setProperty s.entityId row.key (row.fetched.retyped draft) ::
        if row.isChanged then [.reloadPreviews] else [] := by
      rw [Inspection.leaving, PropertyRow.committed?, hdraft]
    rw [Inspector.blur, Inspector.located_eq_ok_iff.mpr ⟨hopen, hplace⟩, ← hleaving]
    rfl

def retitled (texts : List String) : List InspectorOperation :=
  [.inspect ⟨"a", "", none, .content, []⟩, .receive 1 .all (.ok [[("name", .str "A")]])] ++
    texts.map fun text => .edit (.edit ⟨.all, "", "name"⟩ text)

theorem unblurred_retitled (texts : List String) :
    ∀ place, .edit (.blur place) ∉ retitled texts := by
  simp [retitled]

theorem isChanged_run_iff_retitled : (∀ place, .edit (.blur place) ∉ retitled ["B", "C"]) ∧
    ∃ s row, (run (retitled ["B", "C"])).inspector.inspection = some s ∧
      s.rowAt? .all 0 0 = some row ∧
      row.control = .input "C" ∧ Control.ofProperty row.key row.fetched = .input "A" ∧
      row.isChanged = true ∧
      ((run (retitled ["B", "C"])).inspector.blur ⟨.all, "", "name"⟩).map Prod.fst =
        .ok [.setProperty "a" "name" (.str "C"), .reloadPreviews] := by
  have hunblurred := unblurred_retitled ["B", "C"]
  have hfound : ∃ s row, (run (retitled ["B", "C"])).inspector.inspection = some s ∧
      s.rowAt? .all 0 0 = some row ∧
      row.control = .input "C" ∧ s.entityId = "a" ∧ row.key = "name" ∧ row.fetched = .str "A" ∧
      s.row ⟨.all, "", "name"⟩ = .ok row := ⟨_, _, rfl, rfl, rfl, rfl, rfl, rfl, rfl⟩
  obtain ⟨s, row, hopen, hrow, hdraft, hentity, hkey, hvalue, hplace⟩ := hfound
  obtain ⟨fetched, hfetched, -, hmarked, -, hleave⟩ :=
    isChanged_run_iff hunblurred hopen hrow hdraft
  rw [hkey, hvalue] at hfetched
  obtain rfl : "A" = fetched := Control.input.inj hfetched
  have hchanged : row.isChanged = true :=
    hmarked.mpr ⟨"B", (List.mem_cons_self .. : "B" ∈ ["B", "C"]), by decide⟩
  have hblur := hleave _ hplace
  rw [hentity, hkey, hvalue, hchanged] at hblur
  exact ⟨hunblurred, s, row, hopen, hrow, hdraft, by rw [hkey, hvalue]; rfl, hchanged, hblur⟩

/-- A text that is typed over and typed again leaves the marker set and the draft as fetched. -/
theorem isChanged_run_fails : (∀ place, .edit (.blur place) ∉ retitled ["B", "A"]) ∧
    ∃ s row, (run (retitled ["B", "A"])).inspector.inspection = some s ∧
      s.rowAt? .all 0 0 = some row ∧
      row.control = .input "A" ∧ Control.ofProperty row.key row.fetched = .input "A" ∧
      ¬(row.isChanged = true ↔ "A" ≠ "A") ∧
      ((run (retitled ["B", "A"])).inspector.blur ⟨.all, "", "name"⟩).map Prod.fst =
        .ok [.setProperty "a" "name" (.str "A"), .reloadPreviews] := by
  refine ⟨unblurred_retitled _, _, _, rfl, rfl, rfl, rfl, ?_, rfl⟩
  exact fun hright => hright.mp rfl rfl

end InspectorCourse

end ContentConsole
