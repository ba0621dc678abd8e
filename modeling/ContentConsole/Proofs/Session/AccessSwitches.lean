import ContentConsole.Session.Properties
import Mathlib.Algebra.Group.Nat.Even
import Mathlib.Data.List.Induction

set_option autoImplicit false
set_option relaxedAutoImplicit false

/-!
The switches of an access panel in front of a server that may refuse a write. A switch is flipped
before it is written, and stays flipped when the write fails. Main statement:
`isVisibleTo_run_iff`, by which a switch shows what the server keeps exactly if an even number of
its writes failed since one was carried out.
-/
namespace ContentConsole

/-- The server keeps properties: a read answers the one that is kept, a write that succeeds replaces
it and one that fails does not. -/
structure Server.Stores {σ : Type} (server : Server σ)
    (stored : σ → String → String → Json) : Prop where
  get_ok : ∀ {id key state value}, (server.answer (.get id key) state).1 = .ok value →
    value = stored state id key
  get_state : ∀ {id key state}, stored (server.answer (.get id key) state).2 = stored state
  set_ok : ∀ {id key value state}, (server.answer (.set id key value) state).1 = .ok () →
    stored (server.answer (.set id key value) state).2 = fun id' key' =>
      if id' = id ∧ key' = key then value else stored state id' key'
  set_error : ∀ {id key value state e}, (server.answer (.set id key value) state).1 = .error e →
    stored (server.answer (.set id key value) state).2 = stored state

namespace Audience

theorem ofKey?_key (a : Audience) : ofKey? a.key = some a := by cases a <;> decide

theorem key_of_ofKey? {key : String} {a : Audience} (hkey : ofKey? key = some a) : a.key = key := by
  simpa using List.find?_some hkey

theorem key_inj {a b : Audience} : a.key = b.key ↔ a = b := by
  refine ⟨fun hkey => Option.some.inj ?_, congrArg key⟩
  rw [← a.ofKey?_key, hkey, b.ofKey?_key]

end Audience

namespace Session

variable {σ : Type} {s : Session σ} {stored : σ → String → String → Json}
  {panel : AccessPanel} {id : String}

theorem fill_ok (hserver : s.server.Stores stored) (keys : List String) {start : AccessPanel}
    (hfill : (keys.zip (s.askAll (fun s key => s.ask (.get id key)) keys).1).foldlM
      (fun (panel : AccessPanel) (property : String × Except Fault Json) =>
      property.2.map (panel.receive property.1)) start = .ok panel) :
    stored (s.askAll (fun s key => s.ask (.get id key)) keys).2.state = stored s.state ∧
      panel = keys.foldl (fun panel key => panel.receive key (stored s.state id key)) start := by
  induction keys generalizing s start with
  | nil => exact ⟨rfl, (Except.ok.inj hfill).symm⟩
  | cons key keys ih =>
    have hasked : stored (s.ask (.get id key)).2.state = stored s.state := hserver.get_state
    change ((key, (s.ask (.get id key)).1) :: keys.zip _).foldlM _ start = _ at hfill
    rw [List.foldlM_cons] at hfill
    cases hanswer : (s.ask (.get id key)).1 with
    | error e =>
      rw [hanswer] at hfill
      cases hfill
    | ok value =>
      rw [hanswer] at hfill
      obtain ⟨hstate, hpanel⟩ := ih (s := (s.ask (.get id key)).2) hserver hfill
      have hvalue : value = stored s.state id key := hserver.get_ok hanswer
      refine ⟨hstate.trans hasked, ?_⟩
      rw [hpanel, hasked, List.foldl_cons, hvalue]

theorem accessPanel_ok (hserver : s.server.Stores stored)
    (hload : (s.accessPanel id).1 = .ok panel) :
    panel.entityId = id ∧
      ∀ a, panel.isVisibleTo a =
        AccessPanel.isTrue (stored (s.accessPanel id).2.state id a.key) := by
  obtain ⟨hstate, hpanel⟩ := fill_ok hserver AccessPanel.propertyKeys hload
  have hkept : stored (s.accessPanel id).2.state = stored s.state := hstate
  rw [hkept, hpanel]
  exact ⟨rfl, fun a => by cases a <;> rfl⟩

def setReport : Except Fault Unit → Report
  | .ok () => { sets := 1 }
  | .error e => .ofFailure e

theorem apply_setProperty (s : Session σ) (id key : String) (value : Json) :
    s.apply [.setProperty id key value] =
      (setReport (s.ask (.set id key value)).1, (s.ask (.set id key value)).2) := by
  have hproperties : s.applyProperties [.setProperty id key value] =
      (setReport (s.ask (.set id key value)).1, (s.ask (.set id key value)).2) := by
    rw [applyProperties]
    cases hanswer : (s.ask (.set id key value)).1 with
    | ok => simp only [hanswer]; rfl
    | error e => simp only [hanswer]; rfl
  rw [apply, hproperties]
  cases (s.ask (.set id key value)).1 <;> rfl

theorem clickAccess_key (s : Session σ) (panel : AccessPanel) (a : Audience) :
    let asked := s.ask (.set panel.entityId a.key (.bool !panel.isVisibleTo a))
    s.clickAccess panel a.key =
      (.ok (setReport asked.1, panel.put a !panel.isVisibleTo a), asked.2) := by
  intro asked
  rw [clickAccess, AccessPanel.click, Audience.ofKey?_key]
  dsimp only
  rw [apply_setProperty]

theorem clickAccess_of_ofKey?_eq_none (s : Session σ) (panel : AccessPanel) {key : String}
    (hkey : Audience.ofKey? key = none) :
    s.clickAccess panel key = (.error (.notFound s!"access switch {key}"), s) := by
  rw [clickAccess, AccessPanel.click, hkey]

end Session

/-- A panel and the session in front of it, with the writes of each switch that
failed since one was carried out. -/
structure PanelHistory (σ : Type) where
  session : Session σ
  panel : AccessPanel
  failed : Audience → Nat := fun _ => 0

namespace PanelHistory

variable {σ : Type} {h : PanelHistory σ} {stored : σ → String → String → Json}

def click (h : PanelHistory σ) (key : String) : PanelHistory σ :=
  match h.session.clickAccess h.panel key with
  | (.error _, session) => { h with session }
  | (.ok (report, panel), session) =>
    { session
      panel
      failed :=
        fun a => if a.key = key then if report.isClean then 0 else h.failed a + 1 else h.failed a }

def run (s : Session σ) (panel : AccessPanel) (keys : List String) : PanelHistory σ :=
  keys.foldl click { session := s, panel }

/-- What a switch shows and what the server keeps are the same as long as
every failure has a second one. -/
structure Follows (h : PanelHistory σ) (stored : σ → String → String → Json)
    (id : String) : Prop where
  server : h.session.server.Stores stored
  entityId : h.panel.entityId = id
  isVisibleTo : ∀ a, h.panel.isVisibleTo a = AccessPanel.isTrue (stored h.session.state id a.key) ↔
    Even (h.failed a)

theorem click_key (h : PanelHistory σ) (a : Audience) :
    let asked := h.session.ask (.set h.panel.entityId a.key (.bool !h.panel.isVisibleTo a))
    h.click a.key =
      { session := asked.2
        panel := h.panel.put a !h.panel.isVisibleTo a
        failed :=
          fun b => if b = a then if (Session.setReport asked.1).isClean then 0 else h.failed b + 1
          else h.failed b } := by
  intro asked
  rw [click, Session.clickAccess_key]
  simp only [Audience.key_inj]
  rfl

theorem click_of_ofKey?_eq_none (h : PanelHistory σ) {key : String}
    (hkey : Audience.ofKey? key = none) :
    h.click key = h := by
  rw [click, Session.clickAccess_of_ofKey?_eq_none _ _ hkey]

theorem Follows.click {id : String} (hfollows : h.Follows stored id) (key : String) :
    (h.click key).Follows stored id := by
  cases hkey : Audience.ofKey? key with
  | none =>
    rw [click_of_ofKey?_eq_none h hkey]
    exact hfollows
  | some a =>
    obtain rfl := Audience.key_of_ofKey? hkey
    obtain ⟨hserver, hentity, hshown⟩ := hfollows
    rw [click_key]
    refine ⟨hserver, hentity, fun b => ?_⟩
    dsimp only
    cases hanswer :
        (h.session.ask (.set h.panel.entityId a.key (.bool !h.panel.isVisibleTo a))).1 with
    | ok =>
      have hstored :
          stored (h.session.ask
            (.set h.panel.entityId a.key (.bool !h.panel.isVisibleTo a))).2.state = _ :=
        hserver.set_ok hanswer
      rw [hstored, hentity]
      by_cases hb : b = a
      · subst hb
        simp [AccessPanel.put, AccessPanel.isTrue, Session.setReport, Report.isClean]
      · simpa [AccessPanel.put, hb, Audience.key_inj] using hshown b
    | error e =>
      have hstored :
          stored (h.session.ask
            (.set h.panel.entityId a.key (.bool !h.panel.isVisibleTo a))).2.state = _ :=
        hserver.set_error hanswer
      rw [hstored]
      by_cases hb : b = a
      · subst hb
        have hflipped : (!h.panel.isVisibleTo b) =
            AccessPanel.isTrue (stored h.session.state id b.key) ↔
              ¬Even (h.failed b) := by
          rw [← hshown b]
          exact Bool.not_eq
        simpa [AccessPanel.put, Session.setReport, Report.ofFailure, Report.isClean,
          Nat.even_add_one] using hflipped
      · simpa [AccessPanel.put, hb] using hshown b

theorem follows_run {s : Session σ} (hserver : s.server.Stores stored) {id : String}
    {panel : AccessPanel} (hload : (s.accessPanel id).1 = .ok panel) (keys : List String) :
    (run (s.accessPanel id).2 panel keys).Follows stored id := by
  induction keys using List.reverseRecOn with
  | nil =>
    obtain ⟨hentity, hshown⟩ := Session.accessPanel_ok hserver hload
    exact ⟨hserver, hentity, fun a => iff_of_true (hshown a) Even.zero⟩
  | append_singleton keys key ih =>
    rw [run, List.foldl_append]
    exact ih.click key

/--
In front of a server that keeps properties, after a panel was loaded and any switches were clicked,
whichever of the writes failed: a switch shows what the server keeps exactly if an even number of
its writes failed since one of them was carried out, or since the panel was loaded. The next click
on it makes one call, which writes the opposite of what the switch shows, and thus the opposite of
what the server keeps in the same cases. A key without a switch does nothing.
-/
theorem isVisibleTo_run_iff {s : Session σ} (hserver : s.server.Stores stored) {id : String}
    {panel : AccessPanel} (hload : (s.accessPanel id).1 = .ok panel) (keys : List String) :
    let h := run (s.accessPanel id).2 panel keys
    (∀ a, (h.panel.isVisibleTo a = AccessPanel.isTrue (stored h.session.state id a.key) ↔
      Even (h.failed a)) ∧
      ∃ sent, (h.click a.key).session.calls = h.session.calls ++ [.set id a.key (.bool sent)] ∧
        sent = !h.panel.isVisibleTo a ∧
        ((sent = !AccessPanel.isTrue (stored h.session.state id a.key)) ↔ Even (h.failed a))) ∧
      ∀ key, Audience.ofKey? key = none → h.click key = h := by
  intro h
  have hfollows := follows_run hserver hload keys
  refine ⟨fun a => ⟨hfollows.isVisibleTo a, !h.panel.isVisibleTo a, ?_, rfl, ?_⟩,
    fun key hkey => ?_⟩
  · rw [click_key, ← hfollows.entityId]
    rfl
  · rw [← hfollows.isVisibleTo a]
    exact Bool.not_inj_iff
  · exact click_of_ofKey?_eq_none h hkey

def tableServer : Server (List Bool × (String → String → Json)) where
  answer call state :=
    match call with
    | .get id key => (.ok (state.2 id key), state)
    | .set id key value =>
      match state.1 with
      | true :: later =>
        (.ok (), later, fun id' key' => if id' = id ∧ key' = key then value else state.2 id' key')
      | false :: later => (.error (.transport "refused"), later, state.2)
      | [] => (.error (.transport "refused"), [], state.2)
    | .children .. | .records .. => (.ok [], state)
    | .delete _ => (.ok true, state)
    | .upload _ => (.ok (), state)
    | .confirm _ => (true, state)

theorem stores_tableServer : tableServer.Stores Prod.snd where
  get_ok hvalue := (Except.ok.inj hvalue).symm
  get_state := rfl
  set_ok {id key value state} hanswer := by
    match state, hanswer with
    | (true :: _, _), _ => rfl
    | (false :: _, _), hanswer | ([], _), hanswer => cases hanswer
  set_error {id key value state e} hanswer := by
    match state, hanswer with
    | (true :: _, _), hanswer => cases hanswer
    | (false :: _, _), _ | ([], _), _ => rfl

def openSession (outcomes : List Bool) : Session (List Bool × (String → String → Json)) :=
  { server := tableServer, state := (outcomes, fun _ _ => .bool true) }

theorem isVisibleTo_run_iff_oneRefused : tableServer.Stores Prod.snd ∧
    ∃ panel, ((openSession [false, true]).accessPanel "n").1 = .ok panel ∧
      let h :=
        run ((openSession [false, true]).accessPanel "n").2 panel (Audience.all.map Audience.key)
      h.failed .everyone = 1 ∧ h.failed .authenticated = 0 ∧
        h.panel.isVisibleTo .everyone ≠
          AccessPanel.isTrue (h.session.state.2 "n" Audience.everyone.key) ∧
        h.panel.isVisibleTo .authenticated =
          AccessPanel.isTrue (h.session.state.2 "n" Audience.authenticated.key) := by
  have hfollows {panel : AccessPanel}
      (hload : ((openSession [false, true]).accessPanel "n").1 = .ok panel) :=
    isVisibleTo_run_iff (s := openSession [false, true]) stores_tableServer hload
      (Audience.all.map Audience.key)
  refine ⟨stores_tableServer, _, rfl, rfl, rfl, ?_, ?_⟩
  · exact fun hsame => Nat.not_even_one (((hfollows rfl).1 .everyone).1.mp hsame)
  · exact ((hfollows rfl).1 .authenticated).1.mpr Even.zero

/-- After one refused write a switch shows as hidden what the server keeps visible, and the next
click writes what is kept already. -/
theorem isVisibleTo_run_fails : tableServer.Stores Prod.snd ∧
    ∃ panel, ((openSession []).accessPanel "n").1 = .ok panel ∧
      let h := run ((openSession []).accessPanel "n").2 panel [Audience.everyone.key]
      h.panel.isVisibleTo .everyone = false ∧
        AccessPanel.isTrue (h.session.state.2 "n" Audience.everyone.key) = true ∧
        (h.click Audience.everyone.key).session.calls =
          h.session.calls ++ [.set "n" Audience.everyone.key (.bool true)] :=
  ⟨stores_tableServer, _, rfl, rfl, rfl, rfl⟩

end PanelHistory

end ContentConsole
