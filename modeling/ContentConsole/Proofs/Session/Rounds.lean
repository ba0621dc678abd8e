import ContentConsole.Proofs.Outline.Queue
import ContentConsole.Proofs.Session.Failure
import ContentConsole.Proofs.Session.Reach
import Mathlib.Algebra.GroupWithZero.Nat

set_option autoImplicit false
set_option relaxedAutoImplicit false

/-!
The rounds in which effects are carried out. Main statement: `runEffects_rounds`, by which each
round makes the calls of the effects taken at its start, in order and no others, the next round
takes what was queued meanwhile, and the report counts what succeeded.
-/
namespace ContentConsole

def Effect.set? : Effect → Option Call
  | .setProperty id key value => some (.set id key value)
  | _ => none

def Effect.isPreview : Effect → Bool
  | .reloadPreviews => true
  | _ => false

def Call.isSet : Call → Bool
  | .set .. => true
  | _ => false

def Server.succeeded {σ : Type} (server : Server σ) (state : σ) : List Call → List Call
  | [] => []
  | call :: calls =>
    (if (call.failure? (server.answer call state).1).isNone then [call] else []) ++
      succeeded server (server.answer call state).2 calls

theorem Server.succeeded_append {σ : Type} (server : Server σ) (state : σ)
    (calls calls' : List Call) :
    server.succeeded state (calls ++ calls') =
      server.succeeded state calls ++ server.succeeded (server.after state calls) calls' := by
  induction calls generalizing state with
  | nil => rfl
  | cons call calls ih =>
    rw [List.cons_append, succeeded, succeeded, ih, List.append_assoc]
    rfl

def Report.counts (r : Report) : Nat × Nat × Nat := (r.sets, r.uploads, r.previews)

theorem Report.counts_append (a b : Report) : (a ++ b).counts = a.counts + b.counts := rfl

def Outline.committed (o : Outline) : List ((Handle × Entity) × Except Fault Unit) → Nat
  | [] => 0
  | ((h, e), outcome) :: rest =>
    (if outcome.isOk && o.isLive h then 1 else 0) +
      committed (o.settleUpload h (outcome.mapError (Fault.ofUpload e.id))).2 rest

/-- A round: the effects that it carries out, and the session that they were taken from. -/
structure Round (σ : Type) where
  effects : List Effect
  start : Session σ

namespace Session

variable {σ : Type}

def queuedBy (s : Session σ) (h : Handle) : Except Fault (List Entity) → List Effect
  | .ok children => s.outline.askedOn h children
  | .error _ => []

def queuedEach (s : Session σ) : List (Handle × Except Fault (List Entity)) → List Effect
  | [] => []
  | (h, answer) :: rest => s.queuedBy h answer ++ queuedEach (s.takeChildren h answer).2 rest

def uploadOutcomes (s : Session σ) (effects : List Effect) :
    List ((Handle × Entity) × Except Fault Unit) :=
  let staged := effects.filterMap Effect.upload?
  staged.zip (s.askAll upload staged).1

def fetchAnswers (s : Session σ) (effects : List Effect) :
    List (Handle × Except Fault (List Entity)) :=
  let wanted := effects.filterMap Effect.fetch?
  (wanted.map Prod.fst).zip (s.askAll fetch wanted).1

end Session

namespace Round

variable {σ : Type} (r : Round σ)

/-- The session after the round. -/
def finish : Session σ := (r.start.apply r.effects).2

def afterSets : Session σ := (r.start.applyProperties r.effects).2

def afterUploads : Session σ := (r.afterSets.applyUploads r.effects).2

/-- The calls of a round, kind by kind in the order of the effects. Uploads
accepted unasked need no call. -/
def calls : List Call :=
  r.effects.filterMap Effect.set? ++
    (if r.start.acceptsUploads then [] else (r.effects.filterMap Effect.upload?).map fun staged =>
      .upload staged.2) ++
      (r.effects.filterMap Effect.fetch?).map fun wanted => .children wanted.2.1 wanted.2.2

/-- The number of uploads that succeed while their node is there. -/
def committed : Nat := r.start.outline.committed (r.afterSets.uploadOutcomes r.effects)

def queued : List Effect :=
  (r.afterUploads.askAll Session.fetch (r.effects.filterMap Effect.fetch?)).2.queuedEach
    (r.afterUploads.fetchAnswers r.effects)

end Round

namespace Session

variable {σ : Type} {s s' s'' : Session σ}

/-- From `s` to `s'` there are rounds, of which each takes all that the
one before left in the outbox. -/
inductive Rounds : Session σ → List (Round σ) → Session σ → Prop
  | done (s : Session σ) : Rounds s [] s
  | next {s s' : Session σ} {rounds : List (Round σ)} (r : Round σ)
      (heffects : r.effects = s.outline.outbox) (hsome : r.effects ≠ [])
      (hstart : r.start = { s with outline := s.outline.takeEffects.2 })
      (hrest : Rounds r.finish rounds s') : Rounds s (r :: rounds) s'

/-- Between two sessions calls are made, of which so many set a property and do not fail. -/
structure Tallies (s : Session σ) (made : List Call) (count : Nat) (s' : Session σ) : Prop where
  calls : s.Calls made s'
  sets : (s.server.succeeded s.state made).countP Call.isSet = count

namespace Tallies

variable {made made' : List Call} {count count' : Nat}

theorem of_calls (h : s.Calls [] s') : s.Tallies [] 0 s' := ⟨h, rfl⟩

theorem refl (s : Session σ) : s.Tallies [] 0 s := .of_calls (.refl s)

theorem trans (h : s.Tallies made count s') (h' : s'.Tallies made' count' s'') :
    s.Tallies (made ++ made') (count + count') s'' where
  calls := h.calls.trans h'.calls
  sets := by
    have hrest := h'.sets
    rw [h.calls.server, h.calls.state] at hrest
    rw [Server.succeeded_append, List.countP_append, h.sets, hrest]

theorem ask (s : Session σ) (call : Call) :
    s.Tallies [call] (if call.isSet && (call.failure? (s.ask call).1).isNone then 1 else 0)
      (s.ask call).2 where
  calls := calls_ask s call
  sets := by
    have hone : s.server.succeeded s.state [call] =
        if (call.failure? (s.ask call).1).isNone then [call] else [] := List.append_nil _
    rw [hone]
    cases (call.failure? (s.ask call).1).isNone <;> cases hset : call.isSet <;> simp [hset]

end Tallies

/-! The phases of a round. -/

theorem tallies_applyProperties (effects : List Effect) (s : Session σ) : ∃ sets,
    s.Tallies (effects.filterMap Effect.set?) sets (s.applyProperties effects).2 ∧
      (s.applyProperties effects).1.counts = (sets, 0, effects.countP Effect.isPreview) := by
  induction effects generalizing s with
  | nil => exact ⟨0, .refl s, rfl⟩
  | cons effect effects ih =>
    cases effect with
    | setProperty id key value =>
      obtain ⟨sets, hrest, hcounts⟩ := ih (s.ask (.set id key value)).2
      have hall := (Tallies.ask s (.set id key value)).trans hrest
      rw [applyProperties]
      dsimp only
      split <;> rename_i hanswer <;> rw [hanswer] at hall
      · refine ⟨1 + sets, hall, ?_⟩
        rw [Report.counts_append, hcounts]
        simp [Report.counts, Effect.isPreview]
      · refine ⟨0 + sets, hall, ?_⟩
        rw [Report.counts_append, hcounts]
        simp [Report.counts, Report.ofFailure, Effect.isPreview]
    | reloadPreviews =>
      obtain ⟨sets, hrest, hcounts⟩ := ih s
      refine ⟨sets, hrest, ?_⟩
      rw [applyProperties, Report.counts_append, hcounts, List.countP_cons_of_pos rfl]
      simp [Report.counts, Nat.add_comm]
    | fetchChildren | upload => exact ih s

theorem acceptsUploads_upload (s : Session σ) (w : Handle × Entity) :
    (s.upload w).2.acceptsUploads = s.acceptsUploads := by
  rw [asked_upload s w]

theorem tallies_upload (s : Session σ) (w : Handle × Entity) :
    s.Tallies (if s.acceptsUploads then [] else [.upload w.2]) 0 (s.upload w).2 := by
  rw [upload]
  split
  · exact .refl s
  · exact .ask s (.upload w.2)

theorem tallies_uploads (staged : List (Handle × Entity)) (s : Session σ) :
    s.Tallies (if s.acceptsUploads then [] else staged.map fun w => .upload w.2) 0
      (s.askAll upload staged).2 := by
  induction staged generalizing s with
  | nil =>
    rw [List.map_nil, ite_self]
    exact .refl s
  | cons w staged ih =>
    have hrest := ih (s.upload w).2
    rw [acceptsUploads_upload] at hrest
    have hall := (tallies_upload s w).trans hrest
    cases haccepts : s.acceptsUploads <;> rw [haccepts] at hall <;> exact hall

theorem tallies_fetches (wanted : List (Handle × String × Option String)) (s : Session σ) :
    s.Tallies (wanted.map fun w => .children w.2.1 w.2.2) 0 (s.askAll fetch wanted).2 := by
  induction wanted generalizing s with
  | nil => exact .refl s
  | cons w wanted ih => exact (Tallies.ask s (.children w.2.1 w.2.2)).trans (ih (s.fetch w).2)

theorem calls_settleEach (settled : List ((Handle × Entity) × Except Fault Unit)) (s : Session σ) :
    s.Calls [] (s.settleEach settled).2 := by
  induction settled generalizing s with
  | nil => exact .refl s
  | cons first rest ih =>
    exact (calls_outline s _).trans
      (ih { s with outline := (s.outline.settleUpload first.1.1 _).2 })

theorem calls_takeChildren (s : Session σ) (h : Handle) (answer : Except Fault (List Entity)) :
    s.Calls [] (s.takeChildren h answer).2 := by
  unfold takeChildren
  split
  · exact .refl s
  · cases answer with
    | ok children =>
      dsimp only
      split <;> exact calls_outline s _
    | error e =>
      dsimp only
      split
      · exact calls_outline s _
      · exact .refl s

theorem calls_takeEach (answers : List (Handle × Except Fault (List Entity))) (s : Session σ) :
    s.Calls [] (s.takeEach answers).2 := by
  induction answers generalizing s with
  | nil => exact .refl s
  | cons first rest ih => exact (calls_takeChildren s first.1 first.2).trans (ih _)

/-! What the phases count. -/

theorem isOk_settleUpload (o : Outline) (h : Handle) (outcome : Except Fault Unit) :
    (o.settleUpload h outcome).1.isOk = (outcome.isOk && o.isLive h) := by
  cases outcome with
  | error e => rfl
  | ok _ =>
    rw [Outline.settleUpload, Outline.isLive]
    cases hn : o.node? h with
    | none =>
      rw [Outline.get, hn]
      rfl
    | some n =>
      rw [Outline.get_eq_ok_iff.mpr hn]
      rfl

theorem isOk_mapError {α : Type} (f : Fault → Fault) (answer : Except Fault α) :
    (answer.mapError f).isOk = answer.isOk := by
  cases answer <;> rfl

theorem counts_settleEach (settled : List ((Handle × Entity) × Except Fault Unit)) (s : Session σ) :
    ((s.settleEach settled).1.foldr
      (fun result report => uploadReport result ++ report) {}).counts =
      (0, s.outline.committed settled, 0) := by
  induction settled generalizing s with
  | nil => rfl
  | cons first rest ih =>
    obtain ⟨⟨h, e⟩, outcome⟩ := first
    have hrest :=
      ih { s with outline := (s.outline.settleUpload h (outcome.mapError (Fault.ofUpload e.id))).2 }
    have hfirst : ∀ result, (uploadReport result).counts =
        (0, if result.isOk then 1 else 0, 0) := by
      intro result
      cases result <;> rfl
    rw [settleEach, List.foldr_cons, Report.counts_append, hrest, hfirst, isOk_settleUpload,
      isOk_mapError]
    simp [Outline.committed]

theorem counts_takeChildren (s : Session σ) (h : Handle) (answer : Except Fault (List Entity)) :
    (s.takeChildren h answer).1.counts = 0 := by
  unfold takeChildren
  split
  · rfl
  · cases answer with
    | ok children =>
      dsimp only
      split <;> rfl
    | error e =>
      dsimp only
      split <;> rfl

theorem counts_takeEach (answers : List (Handle × Except Fault (List Entity))) (s : Session σ) :
    (s.takeEach answers).1.counts = 0 := by
  induction answers generalizing s with
  | nil => rfl
  | cons first rest ih =>
    rw [takeEach, Report.counts_append, counts_takeChildren, ih]
    rfl

theorem counts_persisted (s : Session σ) : s.persisted.1.counts = 0 := by
  unfold persisted
  split <;> rfl

/-! One round. -/

variable (r : Round σ)

theorem tallies_round : ∃ sets, r.start.Tallies r.calls sets r.finish ∧
    (r.start.apply r.effects).1.counts =
      (sets, r.committed, r.effects.countP Effect.isPreview) := by
  obtain ⟨sets, hset, hcounts⟩ := tallies_applyProperties r.effects r.start
  have hasked : r.start.Asked r.afterSets := asked_applyProperties r.effects
  have haccepts : r.afterSets.acceptsUploads = r.start.acceptsUploads := by rw [hasked]
  have hupload := (tallies_uploads (r.effects.filterMap Effect.upload?) r.afterSets).trans
    (.of_calls (calls_settleEach (r.afterSets.uploadOutcomes r.effects) _))
  have hfetch := (tallies_fetches (r.effects.filterMap Effect.fetch?) r.afterUploads).trans
    (.of_calls (calls_takeEach (r.afterUploads.fetchAnswers r.effects) _))
  rw [List.append_nil] at hupload hfetch
  rw [haccepts] at hupload
  refine ⟨sets, (hset.trans hupload).trans hfetch, ?_⟩
  have hcommitted : (r.afterSets.applyUploads r.effects).1.counts = (0, r.committed, 0) := by
    have hsettled := counts_settleEach (r.afterSets.uploadOutcomes r.effects)
      (r.afterSets.askAll upload (r.effects.filterMap Effect.upload?)).2
    rw [(asked_askAll asked_upload _).1.outline, hasked.outline] at hsettled
    exact hsettled
  have htaken : (r.afterUploads.applyFetches r.effects).1.counts = 0 :=
    counts_takeEach (r.afterUploads.fetchAnswers r.effects) _
  change ((r.start.applyProperties r.effects).1 ++ (r.afterSets.applyUploads r.effects).1 ++
    (r.afterUploads.applyFetches r.effects).1).counts = _
  rw [Report.counts_append, Report.counts_append, hcounts, hcommitted, htaken]
  exact Prod.ext rfl (Prod.ext (Nat.zero_add _) rfl)

theorem queues_settleEach (settled : List ((Handle × Entity) × Except Fault Unit)) {s : Session σ}
    (ha : s.outline.Arena) : s.outline.Queues [] (s.settleEach settled).2.outline := by
  induction settled generalizing s with
  | nil => exact .refl ha
  | cons first rest ih =>
    obtain ⟨⟨h, e⟩, outcome⟩ := first
    have hfirst := ha.queues_settleUpload h (outcome.mapError (Fault.ofUpload e.id))
    have hrest := ih (s := { s with outline := (s.outline.settleUpload h _).2 }) hfirst.arena
    exact hfirst.trans hrest ha

theorem queues_takeChildren {s : Session σ} (ha : s.outline.Arena) (h : Handle)
    (answer : Except Fault (List Entity)) :
    s.outline.Queues (s.queuedBy h answer) (s.takeChildren h answer).2.outline := by
  cases answer with
  | ok children =>
    rw [takeChildren_ok]
    exact ha.queues_receive h children
  | error e =>
    unfold takeChildren
    split
    · exact .refl ha
    · dsimp only
      split
      · rename_i habandon
        exact ha.queues_abandonFetch habandon
      · exact .refl ha

theorem queues_takeEach (answers : List (Handle × Except Fault (List Entity))) {s : Session σ}
    (ha : s.outline.Arena) :
    s.outline.Queues (s.queuedEach answers) (s.takeEach answers).2.outline := by
  induction answers generalizing s with
  | nil => exact .refl ha
  | cons first rest ih =>
    have hfirst := queues_takeChildren ha first.1 first.2
    exact hfirst.trans (ih hfirst.arena) ha

theorem queues_round (ha : r.start.outline.Arena) :
    r.start.outline.Queues r.queued r.finish.outline := by
  have hset : r.start.Asked r.afterSets := asked_applyProperties r.effects
  have huploaded :=
    (asked_askAll asked_upload (r.effects.filterMap Effect.upload?) (s := r.afterSets)).1
  have hfetched :=
    (asked_askAll asked_fetch (r.effects.filterMap Effect.fetch?) (s := r.afterUploads)).1
  have hsettle := queues_settleEach (r.afterSets.uploadOutcomes r.effects)
    (s := (r.afterSets.askAll upload (r.effects.filterMap Effect.upload?)).2)
    (by rwa [huploaded.outline, hset.outline])
  have htake := queues_takeEach (r.afterUploads.fetchAnswers r.effects)
    (s := (r.afterUploads.askAll fetch (r.effects.filterMap Effect.fetch?)).2)
    (by
      rw [hfetched.outline]
      exact hsettle.arena)
  rw [huploaded.outline, hset.outline] at hsettle
  rw [hfetched.outline] at htake
  exact hsettle.trans htake ha

/-! All rounds. -/

variable {r} {rounds : List (Round σ)}

theorem Rounds.start (h : s.Rounds rounds s') (ha : s.outline.takeEffects.2.Arena) :
    ∀ r ∈ rounds, r.start.outline.Arena ∧ r.start.outline.outbox = [] := by
  induction h with
  | done s => exact nofun
  | next r heffects hsome hstart hrest ih =>
    have harena : r.start.outline.Arena := by rwa [hstart]
    have hempty : r.start.outline.outbox = [] := by rw [hstart]; rfl
    have hfinish := (queues_round r harena).arena
    intro k hk
    rcases List.mem_cons.mp hk with rfl | hk
    · exact ⟨harena, hempty⟩
    · exact ih { hfinish with outbox_live := nofun } k hk

theorem rounds_drain (bound : Nat) (s : Session σ) : ∃ rounds sets, rounds.length ≤ bound ∧
    s.Rounds rounds (s.drain bound).2 ∧
    ((s.drain bound).2.outline.outbox = [] ∨ rounds.length = bound) ∧
    s.Tallies (rounds.flatMap Round.calls) sets (s.drain bound).2 ∧
    (s.drain bound).1.counts =
      (sets, (rounds.map Round.committed).sum,
        (rounds.flatMap Round.effects).countP Effect.isPreview) := by
  induction bound generalizing s with
  | zero => exact ⟨[], 0, Nat.le_refl _, .done s, .inr rfl, .refl s, rfl⟩
  | succ bound ih =>
    rw [drain]
    split
    · rename_i outline htake
      obtain ⟨hempty, houtline⟩ := Prod.mk.inj htake
      have hsame : outline = s.outline := by
        rw [← houtline, ← hempty]
      rw [hsame]
      exact ⟨[], 0, Nat.zero_le _, .done s, .inl hempty, .refl s, rfl⟩
    · rename_i effects outline hsome htake
      have heffects : s.outline.outbox = effects := congrArg Prod.fst htake
      let r : Round σ := ⟨effects, { s with outline }⟩
      obtain ⟨rounds, others, hlength, hrounds, hend, htallies, hcounts⟩ := ih r.finish
      obtain ⟨sets, hround, hfirst⟩ := tallies_round r
      have hstart : s.Tallies [] 0 r.start := .of_calls (calls_outline s outline)
      refine ⟨r :: rounds, sets + others, Nat.succ_le_succ hlength,
        .next r heffects.symm hsome (by rw [htake]) hrounds, ?_, ?_, ?_⟩
      · exact hend.imp_right (congrArg Nat.succ)
      · have hall := (hstart.trans hround).trans htallies
        rwa [Nat.zero_add] at hall
      · change ((r.start.apply r.effects).1 ++ (r.finish.drain bound).1).counts = _
        rw [Report.counts_append, hfirst, hcounts]
        simp [List.countP_append]

/--
Effects are carried out in at most 64 rounds, the next one with all that was left in the outbox,
until it is empty. In a round the calls of its effects are made, kind by kind in their order, and no
others; what is in the outbox afterwards was queued in the round, and all of it but what is for a
node that is gone. The report counts the calls that set a property without failure, the uploads that
succeeded while their node was there, and the previews.
-/
theorem runEffects_rounds (s₀ : Session σ) (openKeys : OpenKeys) (actions : List UserAction)
    (outbox : List Effect) :
    let s₁ := ({ s₀ with outline := .start openKeys } : Session σ).run actions
    let s : Session σ := { s₁ with outline := { s₁.outline with outbox } }
    ∃ rounds s', rounds.length ≤ 64 ∧ s.Rounds rounds s' ∧
      (s'.outline.outbox = [] ∨ rounds.length = 64) ∧ s.runEffects.2.outline = s'.outline ∧
      s.Calls (rounds.flatMap Round.calls) s.runEffects.2 ∧
      (∀ r ∈ rounds, r.start.Calls r.calls r.finish ∧
        r.finish.outline.outbox = r.queued.filter fun e => e.node?.all r.finish.outline.isLive) ∧
      s.runEffects.1.sets =
        (s.server.succeeded s.state (rounds.flatMap Round.calls)).countP Call.isSet ∧
      s.runEffects.1.uploads = (rounds.map Round.committed).sum ∧
      s.runEffects.1.previews = (rounds.flatMap Round.effects).countP Effect.isPreview := by
  intro s₁ s
  have ha : s.outline.takeEffects.2.Arena :=
    { (reachable_run s₀ openKeys actions).arena with outbox_live := nofun }
  obtain ⟨rounds, sets, hlength, hrounds, hend, htallies, hcounts⟩ := rounds_drain maxRounds s
  have hrun : s.runEffects.2.outline = (s.drain maxRounds).2.outline ∧
      s.runEffects.1.counts = (s.drain maxRounds).1.counts ∧
        (s.drain maxRounds).2.Calls [] s.runEffects.2 := by
    rw [runEffects]
    dsimp only
    split
    · exact ⟨rfl, rfl, .refl _⟩
    · rw [persisted_snd, persist_outline, Report.counts_append, counts_persisted]
      exact ⟨rfl, rfl, calls_persist _⟩
  obtain ⟨houtline, hsame, hsaved⟩ := hrun
  rw [hcounts] at hsame
  obtain ⟨hsets, hrest⟩ := Prod.mk.inj hsame
  obtain ⟨huploads, hpreviews⟩ := Prod.mk.inj hrest
  refine ⟨rounds, (s.drain maxRounds).2, hlength, hrounds, hend, houtline, ?_, fun r hr => ?_, ?_,
    huploads, hpreviews⟩
  · have hall := htallies.calls.trans hsaved
    rwa [List.append_nil] at hall
  · obtain ⟨hstart, hempty⟩ := hrounds.start ha r hr
    obtain ⟨_, hround, -⟩ := tallies_round r
    have houtbox := (queues_round r hstart).outbox
    rw [hempty] at houtbox
    exact ⟨hround.calls, houtbox⟩
  · rw [htallies.sets]
    exact hsets

end Session

end ContentConsole
