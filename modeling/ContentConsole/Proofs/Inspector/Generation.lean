import ContentConsole.Proofs.Inspector.Sheet

set_option autoImplicit false
set_option relaxedAutoImplicit false

/-!
Late records. The inspector is opened and closed and opened again while records of all these
openings are still on their way, and arrive in any order, more than once or never. Main statement:
`run_current`, by which records are taken exactly when they were asked for by the last opening, and
each tab shows the newest of its own.
-/
namespace ContentConsole

abbrev FacetOutcome : Type := Except Fault (List Record)

inductive InspectorAction
  | inspect (e : Entity)
  | close
  | edit (a : InspectorEdit)
  /-- A response to a request arrives; a request that was never made has none. -/
  | deliver (request : FacetRequest) (outcome : FacetOutcome)

/-- An inspector with all that was asked and answered so far. -/
structure InspectorHistory where
  inspector : Inspector := {}
  /-- All requests of all openings. -/
  issued : List FacetRequest := []
  /-- The requests of the last opening; none once it is closed. -/
  latest : List FacetRequest := []
  /-- All responses that arrived, the newest first. -/
  delivered : List (FacetRequest × FacetOutcome) := []

namespace InspectorHistory

def step (h : InspectorHistory) : InspectorAction → InspectorHistory
  | .inspect e =>
    let (requests, inspector) := h.inspector.inspect e
    { h with inspector, issued := h.issued ++ requests, latest := requests }
  | .close => { h with inspector := h.inspector.close, latest := [] }
  | .edit a => { h with inspector := h.inspector.perform a }
  | .deliver request outcome =>
    if request ∈ h.issued then
      { h with
        inspector := (h.inspector.receive request.generation request.facet outcome).2
        delivered := (request, outcome) :: h.delivered }
    else h

def run (actions : List InspectorAction) : InspectorHistory := actions.foldl step {}

/-- The newest response to a request. -/
def outcome? (h : InspectorHistory) (request : FacetRequest) : Option FacetOutcome :=
  (h.delivered.find? fun response => response.1 = request).map Prod.snd

def shown (h : InspectorHistory) (request : FacetRequest) : TabState :=
  (h.outcome? request).elim .loading (Inspector.arrived request.facet)

end InspectorHistory

namespace Inspection

def facets (s : Inspection) : List Facet := s.tabs.map FacetTab.facet

theorem isSome_tab?_iff {s : Inspection} {facet : Facet} :
    (s.tab? facet).isSome ↔ facet ∈ s.facets := by
  simp [tab?, facets]

theorem facets_eq_sheet (s : Inspection) : s.facets = s.sheet.entries.map Prod.fst := by
  simp [facets, sheet, FacetTab.entry, Function.comp_def]

end Inspection

namespace Sheet

def request (sheet : Sheet) (facet : Facet) : FacetRequest :=
  ⟨sheet.generation, sheet.entityId, facet⟩

def requests (sheet : Sheet) : List FacetRequest :=
  sheet.entries.map fun entry => sheet.request entry.1

def answer (sheet : Sheet) (request : FacetRequest) (outcome : FacetOutcome) : Sheet :=
  { sheet with entries := sheet.entries.map fun entry =>
      if request = sheet.request entry.1 then
        (entry.1, Inspector.arrived entry.1 outcome) else entry }

theorem answer_of_notMem {sheet : Sheet} {request : FacetRequest}
    (hrequest : request ∉ sheet.requests) (outcome : FacetOutcome) :
    sheet.answer request outcome = sheet := by
  have hkeep : ∀ entry ∈ sheet.entries, (if request = sheet.request entry.1 then
      (entry.1, Inspector.arrived entry.1 outcome) else entry) = entry := by
    refine fun entry hentry => if_neg fun hsame => hrequest ?_
    rw [hsame]
    exact List.mem_map_of_mem hentry
  rw [answer, List.map_congr_left hkeep, List.map_id']

theorem fst_answer (sheet : Sheet) (request : FacetRequest) (outcome : FacetOutcome) :
    (sheet.answer request outcome).entries.map Prod.fst = sheet.entries.map Prod.fst := by
  rw [answer, List.map_map]
  refine List.map_congr_left fun entry _ => ?_
  rw [Function.comp_apply]
  split <;> rfl

theorem requests_answer (sheet : Sheet) (request : FacetRequest) (outcome : FacetOutcome) :
    (sheet.answer request outcome).requests = sheet.requests := by
  have hrequests : ∀ sheet : Sheet, sheet.requests =
      (sheet.entries.map Prod.fst).map sheet.request :=
    fun _ => List.map_map.symm
  rw [hrequests, fst_answer, hrequests]
  rfl

end Sheet

theorem changeFirst_eq_map {α β : Type} [DecidableEq β] {k : α → β} {f : α → α} {b : β}
    {xs : List α} (hdistinct : (xs.map k).Nodup) :
    changeFirst (fun x => k x == b) f xs = xs.map fun x => if k x = b then f x else x := by
  induction xs with
  | nil => rfl
  | cons x xs ih =>
    obtain ⟨hx, hxs⟩ := List.nodup_cons.mp hdistinct
    rw [changeFirst, List.map_cons]
    by_cases hkind : k x = b
    · have hrest : ∀ y ∈ xs, (if k y = b then f y else y) = y := fun y hy =>
        if_neg fun hy' => hx (List.mem_map.mpr ⟨y, hy, hy'.trans hkind.symm⟩)
      rw [if_pos hkind, if_pos (beq_iff_eq.mpr hkind), List.map_congr_left hrest, List.map_id']
    · rw [if_neg hkind, if_neg (by simpa using hkind), ih hxs]

theorem Inspection.sheet_answer {s : Inspection} (hdistinct : s.facets.Nodup) (facet : Facet)
    (outcome : FacetOutcome) :
    (s.changeTab facet fun tab => { tab with state := Inspector.arrived facet outcome }).sheet =
      s.sheet.answer (s.sheet.request facet) outcome := by
  rw [sheet, changeTab, changeFirst_eq_map hdistinct, sheet, Sheet.answer]
  simp only [List.map_map]
  congr 1
  refine List.map_congr_left fun tab _ => ?_
  rw [Function.comp_apply, Function.comp_apply]
  by_cases hfacet : tab.facet = facet
  · subst hfacet
    rw [if_pos rfl, if_pos (by rfl), FacetTab.entry, Inspector.restored_arrived]
    rfl
  · have hrequest : s.sheet.request facet ≠ s.sheet.request tab.facet := fun hsame =>
      hfacet (congrArg FacetRequest.facet hsame).symm
    rw [if_neg hfacet]
    exact (if_neg hrequest).symm

theorem Inspector.receive_cases (i : Inspector) (generation : Nat) (facet : Facet)
    (outcome : FacetOutcome) :
    (∃ s, i.inspection = some s ∧ s.generation = generation ∧ facet ∈ s.facets ∧
      i.receive generation facet outcome =
        (true, { i with inspection := some (s.changeTab facet fun tab =>
        { tab with state := arrived facet outcome }) })) ∨
      (∀ s, i.inspection = some s → s.generation = generation → facet ∉ s.facets) ∧
        i.receive generation facet outcome = (false, i) := by
  rw [receive]
  cases hopen : i.inspection with
  | none => exact .inr ⟨nofun, rfl⟩
  | some s =>
    dsimp only
    by_cases htaken : s.generation = generation ∧ (s.tab? facet).isSome
    · rw [if_pos htaken]
      exact .inl ⟨s, rfl, htaken.1, Inspection.isSome_tab?_iff.mp htaken.2, rfl⟩
    · rw [if_neg htaken]
      refine .inr ⟨fun opened hopened hgeneration hfacet => htaken ?_, rfl⟩
      obtain rfl := Option.some.inj hopened
      exact ⟨hgeneration, Inspection.isSome_tab?_iff.mpr hfacet⟩

theorem Inspector.generation_receive (i : Inspector) (generation : Nat) (facet : Facet)
    (outcome : FacetOutcome) :
    (i.receive generation facet outcome).2.generation = i.generation := by
  rcases i.receive_cases generation facet outcome with ⟨s, -, -, -, hreceive⟩ | ⟨-, hreceive⟩
    <;> rw [hreceive]

/-- What an open inspector shows is what the last opening asked for, as far as it has arrived. -/
structure Sheet.IsCurrent (sheet : Sheet) (h : InspectorHistory) : Prop where
  generation : sheet.generation = h.inspector.generation
  distinct : (sheet.entries.map Prod.fst).Nodup
  latest : h.latest = sheet.requests
  /-- A request of this generation was made by the last opening. -/
  mem_latest : ∀ request ∈ h.issued, request.generation = sheet.generation → request ∈ h.latest
  entries : ∀ entry ∈ sheet.entries, entry.2 = h.shown (sheet.request entry.1)

theorem Facet.nodup_ofType (type : EntityType) : (Facet.ofType type).Nodup := by
  cases type <;> decide

theorem Inspector.sheet?_inspect (i : Inspector) (e : Entity) : (i.inspect e).2.sheet? =
    some ⟨e.id, i.generation + 1, (Facet.ofType e.type).map fun facet => (facet, .loading)⟩ := by
  simp [sheet?, inspect, Inspection.sheet, FacetTab.entry, TabState.restored, Function.comp_def]

namespace InspectorHistory

structure IsCurrent (h : InspectorHistory) : Prop where
  generation_le : ∀ request ∈ h.issued, request.generation ≤ h.inspector.generation
  latest_issued : ∀ request ∈ h.latest, request ∈ h.issued
  delivered_issued : ∀ response ∈ h.delivered, response.1 ∈ h.issued
  closed : h.inspector.sheet? = none → h.latest = []
  opened : ∀ sheet, h.inspector.sheet? = some sheet → sheet.IsCurrent h

theorem isCurrent_start : ({} : InspectorHistory).IsCurrent where
  generation_le := nofun
  latest_issued := nofun
  delivered_issued := nofun
  closed _ := rfl
  opened := nofun

variable {h : InspectorHistory}

theorem shown_of_forall_ne {request : FacetRequest}
    (hnew : ∀ response ∈ h.delivered, response.1 ≠ request) : h.shown request = .loading := by
  have hnone : h.outcome? request = none := by
    rw [outcome?, List.find?_eq_none.mpr fun response hresponse =>
      by simpa using hnew response hresponse]
    rfl
  rw [shown, hnone]
  rfl

theorem IsCurrent.inspect (hcurrent : h.IsCurrent) (e : Entity) :
    (h.step (.inspect e)).IsCurrent where
  generation_le request hrequest := by
    rcases List.mem_append.mp hrequest with hold | hnew
    · exact Nat.le_succ_of_le (hcurrent.generation_le request hold)
    · obtain ⟨facet, -, rfl⟩ := List.mem_map.mp hnew
      exact Nat.le_refl _
  latest_issued request hrequest := List.mem_append_right _ hrequest
  delivered_issued response hresponse :=
    List.mem_append_left _ (hcurrent.delivered_issued response hresponse)
  closed := nofun
  opened sheet hsheet := by
    obtain rfl := Option.some.inj ((h.inspector.sheet?_inspect e).symm.trans hsheet)
    have hnew : ∀ request ∈ h.issued, request.generation ≠ h.inspector.generation + 1 :=
      fun request hrequest =>
      Nat.ne_of_lt (Nat.lt_succ_of_le (hcurrent.generation_le request hrequest))
    refine ⟨rfl, ?_, ?_, fun request hrequest hgeneration => ?_, fun entry hentry => ?_⟩
    · simpa [Function.comp_def] using Facet.nodup_ofType e.type
    · simp [step, Inspector.inspect, Sheet.requests, Sheet.request, Function.comp_def]
    · exact (List.mem_append.mp hrequest).resolve_left fun hold => hnew request hold hgeneration
    · obtain ⟨facet, -, rfl⟩ := List.mem_map.mp hentry
      refine (shown_of_forall_ne fun response hresponse hrequest => ?_).symm
      exact hnew response.1 (hcurrent.delivered_issued response hresponse)
        (congrArg (·.generation) hrequest)

theorem IsCurrent.close (hcurrent : h.IsCurrent) : (h.step .close).IsCurrent where
  generation_le request hrequest := Nat.le_succ_of_le (hcurrent.generation_le request hrequest)
  latest_issued := nofun
  delivered_issued := hcurrent.delivered_issued
  closed _ := rfl
  opened := nofun

theorem IsCurrent.edit (hcurrent : h.IsCurrent) (a : InspectorEdit) :
    (h.step (.edit a)).IsCurrent where
  generation_le request hrequest :=
    (h.inspector.generation_perform a).symm ▸ hcurrent.generation_le request hrequest
  latest_issued := hcurrent.latest_issued
  delivered_issued := hcurrent.delivered_issued
  closed hclosed := hcurrent.closed ((h.inspector.sheet?_perform a).symm.trans hclosed)
  opened sheet hsheet :=
    have hopened := hcurrent.opened sheet ((h.inspector.sheet?_perform a).symm.trans hsheet)
    { hopened with generation := hopened.generation.trans (h.inspector.generation_perform a).symm }

theorem IsCurrent.mem_latest_iff (hcurrent : h.IsCurrent) {request : FacetRequest}
    (hrequest : request ∈ h.issued) :
    request ∈ h.latest ↔ ∃ s, h.inspector.inspection = some s ∧ s.generation = request.generation ∧
      request.facet ∈ s.facets := by
  constructor
  · intro hlatest
    cases hopen : h.inspector.inspection with
    | none =>
      rw [hcurrent.closed (congrArg (Option.map Inspection.sheet) hopen)] at hlatest
      exact nomatch hlatest
    | some s =>
      have hsheet := hcurrent.opened s.sheet (congrArg (Option.map Inspection.sheet) hopen)
      rw [hsheet.latest, Sheet.requests] at hlatest
      obtain ⟨entry, hentry, rfl⟩ := List.mem_map.mp hlatest
      exact ⟨s, rfl, rfl, s.facets_eq_sheet ▸ List.mem_map_of_mem hentry⟩
  · rintro ⟨s, hopen, hgeneration, -⟩
    exact (hcurrent.opened s.sheet (congrArg (Option.map Inspection.sheet) hopen)).mem_latest
      request hrequest
      hgeneration.symm

theorem IsCurrent.receive_eq (hcurrent : h.IsCurrent) {request : FacetRequest}
    (hrequest : request ∈ h.issued) (outcome : FacetOutcome) :
    ((h.inspector.receive request.generation request.facet outcome).1 = true ↔ request ∈ h.latest) ∧
      (request ∉ h.latest → (h.inspector.receive request.generation request.facet outcome).2 =
        h.inspector) := by
  rw [hcurrent.mem_latest_iff hrequest]
  rcases h.inspector.receive_cases request.generation request.facet outcome with
    ⟨s, hopen, hgeneration, hfacet, hreceive⟩ | ⟨hnone, hreceive⟩
  · have htaken : ∃ s, h.inspector.inspection = some s ∧ s.generation = request.generation ∧
        request.facet ∈ s.facets := ⟨s, hopen, hgeneration, hfacet⟩
    rw [hreceive]
    exact ⟨iff_of_true rfl htaken, fun hstale => absurd htaken hstale⟩
  · rw [hreceive]
    exact ⟨iff_of_false Bool.false_ne_true fun ⟨s, hopen, hgeneration, hfacet⟩ =>
      hnone s hopen hgeneration hfacet, fun _ => rfl⟩

theorem shown_deliver {request : FacetRequest} (hrequest : request ∈ h.issued)
    (outcome : FacetOutcome) (other : FacetRequest) :
    (h.step (.deliver request outcome)).shown other =
      if request = other then Inspector.arrived other.facet outcome else h.shown other := by
  rw [shown, outcome?, step, if_pos hrequest]
  dsimp only
  rw [List.find?_cons]
  by_cases hsame : request = other
  · simp [hsame]
  · simp [hsame, shown, outcome?]

theorem IsCurrent.sheet?_receive (hcurrent : h.IsCurrent) {request : FacetRequest}
    (hrequest : request ∈ h.issued) (outcome : FacetOutcome) :
    (h.inspector.receive request.generation request.facet outcome).2.sheet? =
      h.inspector.sheet?.map (·.answer request outcome) := by
  rcases h.inspector.receive_cases request.generation request.facet outcome with
    ⟨s, hopen, hgeneration, hfacet, hreceive⟩ | ⟨hnone, hreceive⟩
  · have hsheet := hcurrent.opened s.sheet (congrArg (Option.map Inspection.sheet) hopen)
    have hlatest := (hcurrent.mem_latest_iff hrequest).mpr ⟨s, hopen, hgeneration, hfacet⟩
    rw [hsheet.latest] at hlatest
    obtain ⟨entry, -, rfl⟩ := List.mem_map.mp hlatest
    rw [hreceive, Inspector.sheet?, Inspector.sheet?, hopen]
    exact congrArg some
      (Inspection.sheet_answer (s.facets_eq_sheet ▸ hsheet.distinct) entry.1 outcome)
  · rw [hreceive]
    cases hopen : h.inspector.sheet? with
    | none => rfl
    | some sheet =>
      have hsheet := hcurrent.opened sheet hopen
      have hstale : request ∉ h.latest := by
        intro hlatest
        obtain ⟨s, hs, hgeneration, hfacet⟩ := (hcurrent.mem_latest_iff hrequest).mp hlatest
        exact hnone s hs hgeneration hfacet
      rw [hsheet.latest] at hstale
      rw [Option.map_some, Sheet.answer_of_notMem hstale]

theorem IsCurrent.deliver (hcurrent : h.IsCurrent) (request : FacetRequest)
    (outcome : FacetOutcome) :
    (h.step (.deliver request outcome)).IsCurrent := by
  by_cases hrequest : request ∈ h.issued
  case neg =>
    rw [step, if_neg hrequest]
    exact hcurrent
  have hshown := shown_deliver hrequest outcome
  have hsheet := hcurrent.sheet?_receive hrequest outcome
  have hgeneration := h.inspector.generation_receive request.generation request.facet outcome
  rw [step, if_pos hrequest] at hshown ⊢
  refine ⟨fun r hr => hgeneration ▸ hcurrent.generation_le r hr, hcurrent.latest_issued, ?_,
    fun hclosed => ?_, fun answered hanswered => ?_⟩
  · exact List.forall_mem_cons.mpr ⟨hrequest, hcurrent.delivered_issued⟩
  · exact hcurrent.closed (Option.map_eq_none_iff.mp (hsheet.symm.trans hclosed))
  · obtain ⟨sheet, hopen, rfl⟩ := Option.map_eq_some_iff.mp (hsheet.symm.trans hanswered)
    have hopened := hcurrent.opened sheet hopen
    refine ⟨hopened.generation.trans hgeneration.symm, ?_, ?_, hopened.mem_latest,
      fun entry hentry => ?_⟩
    · rw [Sheet.fst_answer]
      exact hopened.distinct
    · rw [Sheet.requests_answer]
      exact hopened.latest
    · obtain ⟨old, hold, rfl⟩ := List.mem_map.mp hentry
      rw [hshown]
      split <;> rename_i hsame
      · exact (if_pos hsame).symm
      · exact (hopened.entries old hold).trans (if_neg hsame).symm

theorem IsCurrent.step (hcurrent : h.IsCurrent) (a : InspectorAction) : (h.step a).IsCurrent := by
  cases a with
  | inspect e => exact hcurrent.inspect e
  | close => exact hcurrent.close
  | edit a => exact hcurrent.edit a
  | deliver request outcome => exact hcurrent.deliver request outcome

theorem isCurrent_run (actions : List InspectorAction) : (run actions).IsCurrent := by
  suffices hrun : ∀ h : InspectorHistory, h.IsCurrent →
      (actions.foldl InspectorHistory.step h).IsCurrent from
    hrun {} isCurrent_start
  induction actions with
  | nil => exact fun _ hcurrent => hcurrent
  | cons a actions ih => exact fun h hcurrent => ih (h.step a) (hcurrent.step a)

/-- A response to an earlier opening of the same entity is dropped. -/
example : let e : Entity := ⟨"a", "", none, .content, []⟩
    let reopened := ((({} : Inspector).inspect e).2.inspect e).2
    (reopened.receive 1 .all (.ok [])).1 = false ∧ (reopened.receive 2 .all (.ok [])).1 =
      true := by decide

end InspectorHistory

end ContentConsole
