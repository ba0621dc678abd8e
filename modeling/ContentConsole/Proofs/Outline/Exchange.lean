import ContentConsole.Proofs.Outline.Request

set_option autoImplicit false
set_option relaxedAutoImplicit false

/-!
An outline and a transport that answers its requests at any time and in any order. Main statement:
`shows_latest_iff`, by which what is shown is the answer to the request of the latest opening
exactly as long as no node is opened while a request for it is unanswered.
-/
namespace ContentConsole

def Action.Receives : Action → Prop
  | .receive .. => True
  | _ => False

/-- What happens between an outline and the transport. -/
inductive Event
  /-- Something is done to the outline, other than that children arrive. -/
  | act (a : Action) (hown : ¬a.Receives)
  /-- The answer comes to the request for the node that `k` others for it were taken out before. -/
  | answer (h : Handle) (k : Nat) (children : List Entity)

def Event.IsTransport : Event → Prop
  | .act .takeEffects _ | .answer .. => True
  | .act .. => False

/-- An outline with the effects that were taken out of it in their order, and
the requests answered already. -/
structure Exchange where
  outline : Outline
  taken : List Effect := []
  answered : List (Handle × Nat) := []

namespace Exchange

open Outline (starts_eq_false)

def start (openKeys : OpenKeys) : Exchange := { outline := .start openKeys }

def sent (x : Exchange) (h : Handle) : Nat := x.taken.countP (Effect.asksFor h)

def issued (x : Exchange) (h : Handle) : Nat := x.sent h + x.outline.requests h

/-- The transport has the request and can still answer it. -/
def Held (x : Exchange) (h : Handle) (k : Nat) : Prop := k < x.sent h ∧ (h, k) ∉ x.answered

instance (x : Exchange) (h : Handle) (k : Nat) : Decidable (x.Held h k) :=
  inferInstanceAs (Decidable (_ ∧ _))

/-- The request was issued and not answered. -/
def Unanswered (x : Exchange) (h : Handle) (k : Nat) : Prop := k < x.issued h ∧ (h, k) ∉ x.answered

/-- An answer to the request, if it came now, would be shown. -/
def Shows (x : Exchange) (h : Handle) (k : Nat) : Prop := x.Held h k ∧ x.outline.waits h = true

/-- A toggle would open the node while a request for it is unanswered. -/
def Reopens (x : Exchange) (h : Handle) : Prop :=
  (∃ n, x.outline.node? h = some n ∧ n.expansion = .collapsed) ∧ ∃ k, x.Unanswered h k

def step (x : Exchange) : Event → Exchange
  | .act a _ => { x with outline := x.outline.perform a, taken := x.taken ++ x.outline.handedOut a }
  | .answer h k children =>
    if x.Held h k then
      { x with
        outline := x.outline.perform (.receive h children), answered := (h, k) :: x.answered }
    else x

def run (x : Exchange) (events : List Event) : Exchange := events.foldl step x

def openings (x : Exchange) (h : Handle) : List Event → Nat
  | [] => 0
  | e :: events => (x.outline.starts h (x.step e).outline).toNat + (x.step e).openings h events

variable {x : Exchange} {h : Handle} {k : Nat}

theorem run_append (x : Exchange) (before after : List Event) :
    x.run (before ++ after) = (x.run before).run after :=
  List.foldl_append ..

/-! What holds in every exchange. -/

structure Sound (x : Exchange) : Prop where
  arena : x.outline.Arena
  sent_old : ∀ h, 0 < x.sent h → h < x.outline.nextHandle

theorem sound_start (openKeys : OpenKeys) : (start openKeys).Sound where
  arena := Outline.arena_start openKeys
  sent_old := by simp [sent, start]

theorem step_cases (x : Exchange) (e : Event) :
    (∃ a answered, a ≠ .takeEffects ∧ (∀ h, a = .toggle h → ∃ hown, e = .act (.toggle h) hown) ∧
      (∀ w ∈ x.answered, w ∈ answered) ∧ x.step e = ⟨x.outline.perform a, x.taken, answered⟩) ∨
    x.step e = ⟨x.outline.perform .takeEffects, x.taken ++ x.outline.outbox, x.answered⟩ ∨
    x.step e = x := by
  cases e with
  | act a hown =>
    by_cases htake : a = .takeEffects
    · subst htake
      exact .inr (.inl rfl)
    · have hnone : x.outline.handedOut a = [] := by
        cases a <;> first | rfl | exact absurd rfl htake
      refine .inl ⟨a, x.answered, htake, fun h ha => ⟨ha ▸ hown, by subst ha; rfl⟩, fun _ => id, ?_⟩
      rw [step, hnone, List.append_nil]
  | answer h k children =>
    by_cases hheld : x.Held h k
    · exact .inl
        ⟨.receive h children, (h, k) :: x.answered, nofun, nofun,
        fun _ => List.mem_cons_of_mem _, if_pos hheld⟩
    · exact .inr (.inr (if_neg hheld))

theorem continues_step (hx : x.outline.Arena) (e : Event) :
    x.outline.Continues (x.step e).outline := by
  rcases x.step_cases e with ⟨a, answered, -, -, -, heq⟩ | heq | heq <;> rw [heq]
  · exact hx.continues_perform a
  · exact hx.continues_perform .takeEffects
  · exact .refl _

namespace Sound

theorem step (hx : x.Sound) (e : Event) : (x.step e).Sound := by
  have hnext := (continues_step hx.arena e).nextHandle_le
  rcases x.step_cases e with ⟨a, answered, -, -, -, heq⟩ | heq | heq <;> rw [heq] at hnext ⊢
  · exact ⟨hx.arena.perform a, fun h hsent => Nat.lt_of_lt_of_le (hx.sent_old h hsent) hnext⟩
  · refine ⟨hx.arena.perform .takeEffects, fun h hsent => ?_⟩
    rw [sent, List.countP_append] at hsent
    rcases Nat.add_pos_iff_pos_or_pos.mp hsent with hold | hnew
    · exact hx.sent_old h hold
    · obtain ⟨e, he, hasks⟩ := List.countP_pos_iff.mp hnew
      exact hx.arena.isLive_lt (hx.arena.outbox_live e he h (Outline.node?_of_asksFor hasks))
  · exact hx

theorem run (hx : x.Sound) (events : List Event) : (x.run events).Sound := by
  induction events generalizing x with
  | nil => exact hx
  | cons e events ih => exact ih (hx.step e)

theorem continues_run (hx : x.Sound) (events : List Event) :
    x.outline.Continues (x.run events).outline := by
  induction events generalizing x with
  | nil => exact .refl _
  | cons e events ih => exact (continues_step hx.arena e).trans (ih (hx.step e))

theorem issued_of_le (hx : x.Sound) (hh : x.outline.nextHandle ≤ h) : x.issued h = 0 := by
  have hsent : x.sent h = 0 :=
    Nat.eq_zero_of_not_pos fun hpos => Nat.not_lt.mpr hh (hx.sent_old h hpos)
  have hgone : x.outline.isLive h = false :=
    Bool.eq_false_iff.mpr fun hlive => Nat.not_lt.mpr hh (hx.arena.isLive_lt hlive)
  rw [issued, hsent, hx.arena.requests_of_not_isLive hgone]

theorem issued_step (hx : x.Sound) (e : Event) (hlive : (x.step e).outline.isLive h = true) :
    (x.step e).issued h = x.issued h + (x.outline.starts h (x.step e).outline).toNat := by
  rcases x.step_cases e with ⟨a, answered, htake, -, -, heq⟩ | heq | heq <;> rw [heq] at hlive ⊢
  · have hopens := (hx.arena.opens_perform htake).requests h hlive
    rw [issued, issued, hopens, ← Nat.add_assoc]
    rfl
  · have hempty : (x.outline.perform .takeEffects).requests h = 0 := rfl
    have hnone : x.outline.starts h (x.outline.perform .takeEffects) = false :=
      x.outline.starts_takeEffects h
    rw [hnone, issued, issued, hempty, sent, List.countP_append]
    rfl
  · rw [starts_eq_false id]
    rfl

theorem issued_run (hx : x.Sound) (events : List Event)
    (hlive : (x.run events).outline.isLive h = true) :
    (x.run events).issued h = x.issued h + x.openings h events := by
  induction events generalizing x with
  | nil => rfl
  | cons e events ih =>
    have hx' := hx.step e
    have hfirst : (x.step e).issued h =
        x.issued h + (x.outline.starts h (x.step e).outline).toNat := by
      cases hmid : (x.step e).outline.isLive h with
      | true => exact hx.issued_step e hmid
      | false =>
        -- The node is drawn later, since none comes back.
        have hnext : (x.step e).outline.nextHandle ≤ h := by
          refine Nat.le_of_not_lt fun hlt => ?_
          rw [(hx'.continues_run events).isLive_of_isLive hlt hlive] at hmid
          cases hmid
        have hidle : (x.step e).outline.waits h = true → x.outline.waits h = true := by
          intro hwaits
          rw [Outline.isLive_of_waits hwaits] at hmid
          cases hmid
        rw [hx'.issued_of_le hnext, starts_eq_false hidle,
          hx.issued_of_le (Nat.le_trans (continues_step hx.arena e).nextHandle_le hnext)]
        rfl
    rw [openings, ← Nat.add_assoc, ← hfirst]
    exact ih hx' hlive

end Sound

/-! Nodes with one open request at most. -/

/-- For a node that waits only the latest request is unanswered. -/
def Sole (x : Exchange) : Prop :=
  ∀ h k, x.outline.waits h = true → x.Unanswered h k → k + 1 = x.issued h

theorem answered_step (x : Exchange) (e : Event) : ∀ w ∈ x.answered, w ∈ (x.step e).answered := by
  rcases x.step_cases e with ⟨a, answered, -, -, hanswered, heq⟩ | heq | heq <;> rw [heq]
  · exact hanswered
  · exact fun _ => id
  · exact fun _ => id

theorem Sound.toggled_of_starts (hx : x.Sound) (e : Event) (hh : h < x.outline.nextHandle)
    (hstarts : x.outline.starts h (x.step e).outline = true) :
    (∃ hown, e = .act (.toggle h) hown) ∧ ∃ n, x.outline.node? h = some n ∧
      n.expansion = .collapsed := by
  rcases x.step_cases e with ⟨a, answered, htake, htoggle, -, heq⟩ | heq | heq
    <;> rw [heq] at hstarts
  · obtain ⟨ha, hclosed⟩ := (hx.arena.opens_perform htake).old h hh hstarts
    exact ⟨htoggle h ha, hclosed⟩
  · have hnone : x.outline.starts h (x.outline.perform .takeEffects) = false :=
      x.outline.starts_takeEffects h
    rw [hnone] at hstarts
    cases hstarts
  · rw [starts_eq_false id] at hstarts
    cases hstarts

theorem Sole.step (hs : x.Sole) (hx : x.Sound) {e : Event}
    (he : ∀ h hown, e = .act (.toggle h) hown → ¬x.Reopens h) : (x.step e).Sole := by
  rintro h k hwaits ⟨hk, hopen⟩
  have hissued := hx.issued_step e (Outline.isLive_of_waits hwaits)
  have hbefore : (h, k) ∉ x.answered := fun hmem => hopen (answered_step x e _ hmem)
  cases hstarts : x.outline.starts h (x.step e).outline with
  | false =>
    have hwaited : x.outline.waits h = true := by simpa [Outline.starts, hwaits] using hstarts
    rw [hstarts] at hissued
    rw [hissued] at hk ⊢
    exact hs h k hwaited ⟨hk, hbefore⟩
  | true =>
    rw [hstarts] at hissued
    have hnew : ¬k < x.issued h := by
      intro hold
      have hh : h < x.outline.nextHandle := by
        refine Nat.lt_of_not_le fun hle => ?_
        rw [hx.issued_of_le hle] at hold
        cases hold
      obtain ⟨⟨hown, htoggle⟩, hclosed⟩ := hx.toggled_of_starts e hh hstarts
      exact he h hown htoggle ⟨hclosed, k, hold, hbefore⟩
    rw [hissued] at hk ⊢
    exact congrArg Nat.succ (Nat.le_antisymm (Nat.le_of_lt_succ hk) (Nat.not_lt.mp hnew))

theorem Sole.run (hs : x.Sole) (hx : x.Sound) {events : List Event}
    (hnone : ∀ before h hown rest, events = before ++ .act (.toggle h) hown :: rest →
      ¬(x.run before).Reopens h) :
    (x.run events).Sole := by
  induction events generalizing x with
  | nil => exact hs
  | cons e events ih =>
    refine ih (hs.step hx fun h hown heq => ?_) (hx.step e) fun before h hown rest heq => ?_
    · exact hnone [] h hown events (heq ▸ rfl)
    · exact hnone (e :: before) h hown rest (congrArg (List.cons e) heq)

theorem step_answer_of_not_shows (hshows : ¬x.Shows h k) (children : List Entity) :
    (x.step (.answer h k children)).outline = x.outline := by
  rw [step]
  split
  · rename_i hheld
    refine Outline.receive_of_not_fetching fun n hn hfetching => hshows ⟨hheld, ?_⟩
    exact Outline.waits_iff.mpr ⟨n, hn, hfetching⟩
  · rfl

theorem Reopens.shows (hx : x.Sound) (hreopens : x.Reopens h) (hown hown') :
    ∃ k, (x.run [.act (.toggle h) hown, .act .takeEffects hown']).Shows h k ∧
      k + 1 < (x.run [.act (.toggle h) hown, .act .takeEffects hown']).issued h := by
  obtain ⟨⟨n, hn, hclosed⟩, k, hk, hopen⟩ := hreopens
  obtain ⟨hmem, rfl⟩ := Outline.mem_of_node? hn
  have hopened : x.outline.perform (.toggle n.handle) = x.outline.openNode n.handle := by
    rw [hx.arena.perform_toggle hmem, hclosed]
  have hwaits : (x.outline.perform (.toggle n.handle)).waits n.handle = true := by
    rw [hopened, hx.arena.waits_openNode hmem, beq_self_eq_true, Bool.true_or]
  have hrequests : (x.outline.perform (.toggle n.handle)).requests n.handle =
      x.outline.requests n.handle + 1 := by
    rw [hopened, hx.arena.requests_openNode hmem, beq_self_eq_true]
    rfl
  have hsent : (x.run [.act (.toggle n.handle) hown, .act .takeEffects hown']).sent n.handle =
      x.issued n.handle + 1 := by
    change (x.taken ++ [] ++ (x.outline.perform (.toggle n.handle)).outbox).countP
      (Effect.asksFor n.handle) = _
    rw [List.append_nil, List.countP_append, issued, Nat.add_assoc, ← hrequests]
    rfl
  have hlt := Nat.succ_lt_succ hk
  refine ⟨k, ⟨⟨?_, hopen⟩, hwaits⟩, Nat.lt_of_lt_of_le ?_ (Nat.le_add_right _ _)⟩
  · rw [hsent]
    exact Nat.lt_succ_of_lt hk
  · rw [hsent]
    exact hlt

/--
For a node that is there as many requests were issued as it was opened, so that the last one
is that of its latest opening. However the transport takes requests out and answers them from
some point of a run on, only answers to the request of the latest opening are shown, exactly
if no toggle up to the end of the run opens a node while a request for it is unanswered. An
answer that is not shown is dropped.
-/
theorem shows_latest_iff (openKeys : OpenKeys) (events : List Event) :
    (∀ h, ((start openKeys).run events).outline.isLive h = true →
      ((start openKeys).run events).issued h = (start openKeys).openings h events) ∧
    (∀ h k children, ¬((start openKeys).run events).Shows h k →
      (((start openKeys).run events).step (.answer h k children)).outline =
        ((start openKeys).run events).outline) ∧
    ((∀ before rest moves, events = before ++ rest → (∀ e ∈ moves, e.IsTransport) →
        ∀ h k, ((start openKeys).run (before ++ moves)).Shows h k →
          k + 1 = (start openKeys).openings h (before ++ moves)) ↔
      ∀ before h hown rest, events = before ++ .act (.toggle h) hown :: rest →
        ¬((start openKeys).run before).Reopens h) := by
  have hx := sound_start openKeys
  have hissued : ∀ events h, ((start openKeys).run events).outline.isLive h = true →
      ((start openKeys).run events).issued h = (start openKeys).openings h events := by
    intro events h hlive
    rw [hx.issued_run events hlive, hx.issued_of_le (Nat.zero_le h), Nat.zero_add]
  refine ⟨hissued events,
    fun h k children hshows => step_answer_of_not_shows hshows children, ?_, ?_⟩
  · intro hlatest before h hown rest hevents hreopens
    obtain ⟨k, hshows, hlt⟩ := hreopens.shows (hx.run before) hown id
    rw [← run_append] at hshows hlt
    have hsplit : events = (before ++ [.act (.toggle h) hown]) ++ rest := by
      rw [hevents, List.append_assoc]
      rfl
    have hmoves : before ++ [.act (.toggle h) hown, .act .takeEffects id] =
        (before ++ [.act (.toggle h) hown]) ++ [.act .takeEffects id] := by
      rw [List.append_assoc]
      rfl
    have hsame := hissued _ h (Outline.isLive_of_waits hshows.2)
    rw [hmoves] at hshows hlt hsame
    have hk :=
      hlatest _ rest [.act .takeEffects id] hsplit
        (fun e he => List.mem_singleton.mp he ▸ trivial) h k hshows
    rw [← hsame] at hk
    exact Nat.ne_of_lt hlt hk
  · intro hnone before rest moves hevents hmoves h k hshows
    have hsole : ((start openKeys).run before).Sole := by
      refine Sole.run (fun h k hwaits => ?_) hx fun pre h hown post hbefore => ?_
      · cases hwaits
      · refine hnone pre h hown (post ++ rest) ?_
        rw [hevents, hbefore, List.append_assoc, List.cons_append]
    have hlast : (((start openKeys).run before).run moves).Sole := by
      refine hsole.run (hx.run before) fun pre h hown post heq => ?_
      have htransport :=
        hmoves (.act (.toggle h) hown) (heq ▸ List.mem_append_right _ (List.mem_cons_self ..))
      cases htransport
    rw [run_append] at hshows
    have hlive := Outline.isLive_of_waits hshows.2
    have hsame := hissued (before ++ moves) h (run_append (start openKeys) before moves ▸ hlive)
    rw [run_append] at hsame
    rw [← hsame]
    exact hlast h k hshows.2 ⟨Nat.lt_of_lt_of_le hshows.1.1 (Nat.le_add_right _ _), hshows.1.2⟩

def reopened : List Event :=
  [.act (.draw ⟨"e", "", none, .emptyElement, []⟩ none none true true) id, .act (.toggle 0) id,
    .act .takeEffects id, .act (.toggle 0) id, .act (.toggle 0) id, .act .takeEffects id]

/-- The answer to the request from before the node was closed is shown,
and the node waits no more. -/
theorem shows_outdated :
    let x := (start .empty).run reopened
    (start .empty).openings 0 reopened = 2 ∧ x.Shows 0 0 ∧ x.Held 0 1 ∧
      (x.step (.answer 0 0 [⟨"old", "", none, .content, []⟩])).outline.nodes.map
        (fun n => (n.entityId, n.parent, n.expansion)) =
          [("e", none, .expanded), ("old", some 0, .leaf)] :=
  ⟨by rfl, ⟨by decide, by rfl⟩, by decide, by rfl⟩

end Exchange

end ContentConsole
