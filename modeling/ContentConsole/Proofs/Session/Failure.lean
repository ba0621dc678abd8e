import ContentConsole.Proofs.Session.UserAction
import Mathlib.Algebra.Order.Group.Multiset

set_option autoImplicit false
set_option relaxedAutoImplicit false

/-!
What becomes of the failures of calls. The log of a session says which calls were made, and
replaying it against the server says which of them failed. Main statement: `runEffects_accounts`, by
which the failures of the calls are those in the report, apart from the fetches whose node went away
in the round that asked for its children: their failures are lost.
-/
namespace ContentConsole

def failed? {α : Type} : Except Fault α → Option Fault
  | .ok _ => none
  | .error e => some e

def Call.failure? : (call : Call) → call.Answer → Option Fault
  | .children .., answer | .delete _, answer | .set .., answer | .get ..,
      answer | .records .., answer =>
    failed? answer
  | .upload e, answer => (failed? answer).map (Fault.ofUpload e.id)
  | .confirm _, _ => none

namespace Server

variable {σ : Type}

def after (server : Server σ) (state : σ) (calls : List Call) : σ :=
  calls.foldl (fun state call => (server.answer call state).2) state

def failures (server : Server σ) (state : σ) : List Call → List Fault
  | [] => []
  | call :: calls =>
    (call.failure? (server.answer call state).1).toList ++
      failures server (server.answer call state).2 calls

theorem after_append (server : Server σ) (state : σ) (calls calls' : List Call) :
    server.after state (calls ++ calls') = server.after (server.after state calls) calls' :=
  List.foldl_append

theorem failures_append (server : Server σ) (state : σ) (calls calls' : List Call) :
    server.failures state (calls ++ calls') =
      server.failures state calls ++ server.failures (server.after state calls) calls' := by
  induction calls generalizing state with
  | nil => rfl
  | cons call calls ih =>
    rw [List.cons_append, failures, failures, ih, List.append_assoc]
    rfl

end Server

namespace Session

variable {σ : Type} {s s' s'' : Session σ}

/-- The session `s'` comes of `s` by some calls, and whatever was done between them. -/
structure Calls (s : Session σ) (calls : List Call) (s' : Session σ) : Prop where
  server : s'.server = s.server
  log : s'.calls = s.calls ++ calls
  state : s'.state = s.server.after s.state calls

/-- The failures that calls from this session on are answered with. -/
def failures (s : Session σ) (calls : List Call) : List Fault := s.server.failures s.state calls

namespace Calls

variable {calls calls' : List Call}

theorem refl (s : Session σ) : s.Calls [] s := ⟨rfl, (List.append_nil _).symm, rfl⟩

theorem trans (h : s.Calls calls s') (h' : s'.Calls calls' s'') :
    s.Calls (calls ++ calls') s'' where
  server := h'.server.trans h.server
  log := by rw [h'.log, h.log, List.append_assoc]
  state := by rw [h'.state, h.server, h.state, Server.after_append]

theorem failures_append (h : s.Calls calls s') (calls' : List Call) :
    s.failures (calls ++ calls') = s.failures calls ++ s'.failures calls' := by
  rw [failures, failures, failures, Server.failures_append, h.server, h.state]

end Calls

theorem calls_ask (s : Session σ) (call : Call) : s.Calls [call] (s.ask call).2 := ⟨rfl, rfl, rfl⟩

theorem failures_ask (s : Session σ) (call : Call) :
    s.failures [call] = (call.failure? (s.ask call).1).toList := List.append_nil _

theorem filterMap_cons_toList {α β : Type} (f : α → Option β) (x : α) (xs : List α) :
    (x :: xs).filterMap f = (f x).toList ++ xs.filterMap f := by
  rw [List.filterMap_cons]
  cases f x <;> rfl

theorem calls_askAll {α β : Type} {ask : Session σ → α → β × Session σ}
    (failure? : α → β → Option Fault)
    (hask : ∀ s x, ∃ calls, s.Calls calls (ask s x).2 ∧
      s.failures calls = (failure? x (ask s x).1).toList)
    (xs : List α) (s : Session σ) : ∃ calls, s.Calls calls (s.askAll ask xs).2 ∧
      s.failures calls = (xs.zip (s.askAll ask xs).1).filterMap fun p => failure? p.1 p.2 := by
  induction xs generalizing s with
  | nil => exact ⟨[], .refl s, rfl⟩
  | cons x xs ih =>
    obtain ⟨first, hfirst, hfailed⟩ := hask s x
    obtain ⟨rest, hrest, hothers⟩ := ih (ask s x).2
    refine ⟨first ++ rest, hfirst.trans hrest, ?_⟩
    rw [hfirst.failures_append, hfailed, hothers]
    change _ = ((x, (ask s x).1) :: xs.zip ((ask s x).2.askAll ask xs).1).filterMap _
    rw [filterMap_cons_toList]

theorem calls_upload (s : Session σ) (staged : Handle × Entity) :
    ∃ calls, s.Calls calls (s.upload staged).2 ∧
    s.failures calls = ((failed? (s.upload staged).1).map (Fault.ofUpload staged.2.id)).toList := by
  rw [upload]
  split
  · exact ⟨[], .refl s, rfl⟩
  · exact ⟨[.upload staged.2], calls_ask s _, failures_ask s _⟩

theorem calls_fetch (s : Session σ) (wanted : Handle × String × Option String) :
    ∃ calls, s.Calls calls (s.fetch wanted).2 ∧
      s.failures calls = (failed? (s.fetch wanted).1).toList :=
  ⟨[.children wanted.2.1 wanted.2.2], calls_ask s _, failures_ask s _⟩

/-! What is lost. -/

def lostEach (s : Session σ) : List (Handle × Except Fault (List Entity)) → List Fault
  | [] => []
  | (h, answer) :: rest =>
    (if s.outline.isLive h then [] else (failed? answer).toList) ++
      lostEach (s.takeChildren h answer).2 rest

def lostFetches (s : Session σ) (effects : List Effect) : List Fault :=
  let wanted := effects.filterMap Effect.fetch?
  let (answers, s) := s.askAll fetch wanted
  s.lostEach ((wanted.map Prod.fst).zip answers)

def lostIn (s : Session σ) (effects : List Effect) : List Fault :=
  ((s.applyProperties effects).2.applyUploads effects).2.lostFetches effects

/-- The failures that emptying the outbox loses. -/
def lost (s : Session σ) : Nat → List Fault
  | 0 => []
  | rounds + 1 =>
    match s.outline.takeEffects with
    | ([], _) => []
    | (effects, outline) =>
      lostIn { s with outline } effects ++ lost ({ s with outline }.apply effects).2 rounds

/-! What balances. -/

/-- A fault that no call was answered with: an answer came for a node that is gone. -/
def IsOfGoneNode (e : Fault) : Prop := ∃ h, e = .unknownNode h

/-- Between two sessions no call is made, and the failures owed are reported or lost. -/
structure Settles (s : Session σ) (owed reported lost : List Fault) (s' : Session σ) : Prop where
  calls : s.Calls [] s'
  balance : ∃ gone : List Fault, (∀ e ∈ gone, IsOfGoneNode e) ∧
    (reported : Multiset Fault) + lost = owed + gone

/-- Between two sessions the failures of all calls are reported or lost. -/
structure Accounts (s : Session σ) (reported lost : List Fault) (s' : Session σ) : Prop where
  balance : ∃ calls, s.Calls calls s' ∧ ∃ gone : List Fault, (∀ e ∈ gone, IsOfGoneNode e) ∧
    (reported : Multiset Fault) + lost = s.failures calls + gone

theorem forall_mem_append_gone {gone gone' : List Fault} (h : ∀ e ∈ gone, IsOfGoneNode e)
    (h' : ∀ e ∈ gone', IsOfGoneNode e) : ∀ e ∈ gone ++ gone', IsOfGoneNode e :=
  List.forall_mem_append.mpr ⟨h, h'⟩

theorem balance_append {r r' l l' o o' g g' : List Fault} (h : (r : Multiset Fault) + l = o + g)
    (h' : (r' : Multiset Fault) + l' = o' + g') :
    ((r ++ r' : List Fault) : Multiset Fault) + ((l ++ l' : List Fault) : Multiset Fault) =
      ((o ++ o' : List Fault) : Multiset Fault) + ((g ++ g' : List Fault) : Multiset Fault) := by
  simp only [← Multiset.coe_add]
  calc (r + r' + (l + l') : Multiset Fault) = (r + l) + (r' + l') := add_add_add_comm ..
    _ = (o + g) + (o' + g') := by rw [h, h']
    _ = o + o' + (g + g') := add_add_add_comm ..

variable {owed owed' reported reported' lost lost' : List Fault}

namespace Settles

theorem refl (s : Session σ) : s.Settles [] [] [] s := ⟨.refl s, [], nofun, rfl⟩

theorem trans (h : s.Settles owed reported lost s') (h' : s'.Settles owed' reported' lost' s'') :
    s.Settles (owed ++ owed') (reported ++ reported') (lost ++ lost') s'' := by
  obtain ⟨hcalls, gone, hgone, hbalance⟩ := h
  obtain ⟨hcalls', gone', hgone', hbalance'⟩ := h'
  exact ⟨hcalls.trans hcalls', gone ++ gone', forall_mem_append_gone hgone hgone',
    balance_append hbalance hbalance'⟩

end Settles

namespace Accounts

theorem refl (s : Session σ) : s.Accounts [] [] s := ⟨[], .refl s, [], nofun, rfl⟩

theorem trans (h : s.Accounts reported lost s') (h' : s'.Accounts reported' lost' s'') :
    s.Accounts (reported ++ reported') (lost ++ lost') s'' := by
  obtain ⟨calls, hcalls, gone, hgone, hbalance⟩ := h
  obtain ⟨calls', hcalls', gone', hgone', hbalance'⟩ := h'
  refine ⟨calls ++ calls', hcalls.trans hcalls', gone ++ gone',
    forall_mem_append_gone hgone hgone', ?_⟩
  rw [hcalls.failures_append]
  exact balance_append hbalance hbalance'

theorem of_settles {calls : List Call} (hcalls : s.Calls calls s')
    (h : s'.Settles (s.failures calls) reported lost s'') : s.Accounts reported lost s'' := by
  obtain ⟨hcalls', hbalance⟩ := h
  refine ⟨calls, ?_, hbalance⟩
  simpa using hcalls.trans hcalls'

end Accounts

/-! The parts of a round. -/

theorem accounts_applyProperties (effects : List Effect) (s : Session σ) :
    s.Accounts (s.applyProperties effects).1.failures [] (s.applyProperties effects).2 := by
  induction effects generalizing s with
  | nil => exact .refl s
  | cons effect effects ih =>
    cases effect with
    | setProperty id key value =>
      have hset : s.Accounts (failed? (s.ask (.set id key value)).1).toList []
          (s.ask (.set id key value)).2 :=
        ⟨[.set id key value], calls_ask s _, [], nofun, by rw [failures_ask]; rfl⟩
      have hall := hset.trans (ih (s.ask (.set id key value)).2)
      rw [applyProperties]
      dsimp only
      split <;> rename_i hanswer <;> rw [hanswer] at hall <;> exact hall
    | reloadPreviews | fetchChildren | upload => exact ih s

theorem calls_outline (s : Session σ) (outline : Outline) : s.Calls [] { s with outline } :=
  ⟨rfl, (List.append_nil _).symm, rfl⟩

theorem isOfGoneNode_of_get {o : Outline} {h : Handle} {e : Fault}
    (hget : o.get h = .error e) : IsOfGoneNode e := by
  rw [Outline.get] at hget
  split at hget
  · cases hget
  · exact ⟨h, (Except.error.inj hget).symm⟩

theorem settles_settleUpload (s : Session σ) (h : Handle) (outcome : Except Fault Unit) :
    s.Settles (failed? outcome).toList (failed? (s.outline.settleUpload h outcome).1).toList []
      { s with outline := (s.outline.settleUpload h outcome).2 } := by
  refine ⟨calls_outline s _, ?_⟩
  cases outcome with
  | error e => exact ⟨[], nofun, rfl⟩
  | ok _ =>
    rw [Outline.settleUpload]
    cases hget : s.outline.get h with
    | ok n => exact ⟨[], nofun, rfl⟩
    | error e => exact ⟨[e], List.forall_mem_singleton.mpr (isOfGoneNode_of_get hget), rfl⟩

theorem failed?_mapError {α : Type} (f : Fault → Fault) (answer : Except Fault α) :
    failed? (answer.mapError f) = (failed? answer).map f := by
  cases answer <;> rfl

theorem settles_settleEach (settled : List ((Handle × Entity) × Except Fault Unit))
    (s : Session σ) :
    s.Settles (settled.filterMap fun p => (failed? p.2).map (Fault.ofUpload p.1.2.id))
      ((s.settleEach settled).1.filterMap failed?) [] (s.settleEach settled).2 := by
  induction settled generalizing s with
  | nil => exact .refl s
  | cons first rest ih =>
    obtain ⟨⟨h, e⟩, outcome⟩ := first
    have hall := (settles_settleUpload s h (outcome.mapError (Fault.ofUpload e.id))).trans (ih _)
    rw [← filterMap_cons_toList, failed?_mapError] at hall
    rw [filterMap_cons_toList]
    exact hall

theorem failures_uploadReport (results : List (Except Fault Unit)) :
    (results.foldr (fun result report => uploadReport result ++ report) {}).failures =
      results.filterMap failed? := by
  induction results with
  | nil => rfl
  | cons result results ih =>
    rw [List.foldr_cons, List.filterMap_cons, ← ih]
    cases result <;> rfl

theorem accounts_applyUploads (effects : List Effect) (s : Session σ) :
    s.Accounts (s.applyUploads effects).1.failures [] (s.applyUploads effects).2 := by
  obtain ⟨calls, hcalls, hfailures⟩ :=
    calls_askAll (fun staged outcome => (failed? outcome).map (Fault.ofUpload staged.2.id))
      calls_upload (effects.filterMap Effect.upload?) s
  rw [applyUploads]
  dsimp only
  rw [failures_uploadReport]
  refine .of_settles hcalls ?_
  rw [hfailures]
  exact settles_settleEach _ _

theorem isOfGoneNode_of_receive {o o' : Outline} {h : Handle} {children : List Entity} {e : Fault}
    (hreceive : o.receive h children = (.error e, o')) : IsOfGoneNode e := by
  have hanswer := congrArg Prod.fst hreceive
  rw [Outline.receive] at hanswer
  cases hget : o.get h with
  | error missing =>
    rw [hget] at hanswer
    obtain rfl := Except.error.inj hanswer
    exact isOfGoneNode_of_get hget
  | ok n =>
    simp only [hget] at hanswer
    split at hanswer
    · cases hanswer
    · split at hanswer <;> rename_i hagain
      · obtain rfl := Except.error.inj hanswer
        exact isOfGoneNode_of_get hagain
      · cases hanswer

theorem settles_takeChildren (s : Session σ) (h : Handle) (answer : Except Fault (List Entity)) :
    s.Settles (failed? answer).toList (s.takeChildren h answer).1.failures
      (if s.outline.isLive h then [] else (failed? answer).toList) (s.takeChildren h answer).2 := by
  unfold takeChildren
  cases hlive : s.outline.isLive h with
  | false => exact ⟨.refl s, [], nofun, by simp [failed?]⟩
  | true =>
    obtain ⟨n, hn⟩ := Outline.exists_node?_of_isLive hlive
    simp only [Bool.not_true, Bool.false_eq_true, if_false, if_true]
    cases answer with
    | ok children =>
      dsimp only
      split <;> rename_i hreceive
      · exact ⟨calls_outline s _, [], nofun, rfl⟩
      · rename_i e outline
        refine ⟨calls_outline s _, [e], List.forall_mem_singleton.mpr ?_, rfl⟩
        exact isOfGoneNode_of_receive hreceive
    | error e =>
      dsimp only
      obtain ⟨outline, habandon⟩ : ∃ outline, s.outline.abandonFetch h = .ok outline := by
        rw [Outline.abandonFetch, Outline.get_eq_ok_iff.mpr hn]
        dsimp only
        split <;> exact ⟨_, rfl⟩
      rw [habandon]
      exact ⟨calls_outline s _, [], nofun, rfl⟩

theorem settles_takeEach (answers : List (Handle × Except Fault (List Entity))) (s : Session σ) :
    s.Settles (answers.filterMap fun p => failed? p.2) (s.takeEach answers).1.failures
      (s.lostEach answers)
      (s.takeEach answers).2 := by
  induction answers generalizing s with
  | nil => exact .refl s
  | cons first rest ih =>
    obtain ⟨h, answer⟩ := first
    have hall := (settles_takeChildren s h answer).trans (ih (s.takeChildren h answer).2)
    rw [filterMap_cons_toList]
    exact hall

theorem accounts_applyFetches (effects : List Effect) (s : Session σ) :
    s.Accounts (s.applyFetches effects).1.failures (s.lostFetches effects)
      (s.applyFetches effects).2 := by
  obtain ⟨calls, hcalls, hfailures⟩ :=
    calls_askAll (fun _ answer => failed? answer) calls_fetch (effects.filterMap Effect.fetch?) s
  have howed : (((effects.filterMap Effect.fetch?).zip
      (s.askAll fetch (effects.filterMap Effect.fetch?)).1).filterMap fun p => failed? p.2) =
        ((((effects.filterMap Effect.fetch?).map Prod.fst).zip
          (s.askAll fetch (effects.filterMap Effect.fetch?)).1).filterMap fun p =>
            failed? p.2) := by
    rw [List.zip_map_left, List.filterMap_map]
    rfl
  refine .of_settles hcalls ?_
  rw [hfailures, howed]
  exact settles_takeEach _ _

theorem accounts_apply (effects : List Effect) (s : Session σ) :
    s.Accounts (s.apply effects).1.failures (s.lostIn effects) (s.apply effects).2 := by
  have hproperties := accounts_applyProperties effects s
  have huploads := accounts_applyUploads effects (s.applyProperties effects).2
  have hfetches :=
    accounts_applyFetches effects ((s.applyProperties effects).2.applyUploads effects).2
  exact (hproperties.trans huploads).trans hfetches

theorem accounts_drain (rounds : Nat) (s : Session σ) :
    s.Accounts (s.drain rounds).1.failures (s.lost rounds) (s.drain rounds).2 := by
  induction rounds generalizing s with
  | zero => exact .refl s
  | succ rounds ih =>
    rcases htake : s.outline.takeEffects with ⟨effects, outline⟩
    have htaken : s.Accounts [] [] { s with outline } :=
      .of_settles (.refl s) ⟨calls_outline s outline, [], nofun, rfl⟩
    rw [drain, lost, htake]
    cases effects with
    | nil => exact htaken
    | cons effect effects =>
      exact htaken.trans ((accounts_apply (effect :: effects) { s with outline }).trans (ih _))

theorem calls_persist (s : Session σ) : s.Calls [] s.persist.2 := by
  have hsame : s.persist.2.server = s.server ∧ s.persist.2.calls = s.calls ∧
      s.persist.2.state = s.state := by
    unfold persist
    split
    · exact ⟨rfl, rfl, rfl⟩
    · split <;> exact ⟨rfl, rfl, rfl⟩
  exact ⟨hsame.1, hsame.2.1.trans (List.append_nil _).symm, hsame.2.2⟩

/--
Carrying out effects makes some calls. Their failures are in the report, apart from those of fetches
whose node was gone by their turn; nothing else is in it but answers for gone nodes and a failure to
save. So every failure is in the report if none is lost.
-/
theorem runEffects_accounts (s : Session σ) : ∃ calls own, s.Calls calls s.runEffects.2 ∧
    (s.runEffects.1.failures : Multiset Fault) + s.lost maxRounds = s.failures calls + own ∧
      (∀ e ∈ own, IsOfGoneNode e ∨ (s.drain maxRounds).2.persist.1 = .error e) ∧
        (s.lost maxRounds = [] → (s.failures calls : Multiset Fault) ≤
          s.runEffects.1.failures) := by
  obtain ⟨calls, hcalls, gone, hgone, hbalance⟩ := accounts_drain maxRounds s
  suffices hall : ∃ own : List Fault, s.Calls calls s.runEffects.2 ∧
      (s.runEffects.1.failures : Multiset Fault) + s.lost maxRounds = s.failures calls + own ∧
        ∀ e ∈ own, IsOfGoneNode e ∨ (s.drain maxRounds).2.persist.1 = .error e by
    obtain ⟨own, hrun, hbalance, hown⟩ := hall
    refine ⟨calls, own, hrun, hbalance, hown, fun hnone => ?_⟩
    rw [hnone] at hbalance
    exact Multiset.le_iff_exists_add.mpr ⟨own, by simpa using hbalance⟩
  rw [runEffects]
  dsimp only
  split
  · exact ⟨gone, hcalls, hbalance, fun e he => .inl (hgone e he)⟩
  · have hsaved := hcalls.trans (calls_persist (s.drain maxRounds).2)
    rw [List.append_nil] at hsaved
    rw [persisted]
    split <;> rename_i hpersist <;> rw [hpersist] at hsaved
    · refine ⟨gone, hsaved, ?_, fun e he => .inl (hgone e he)⟩
      rw [← hbalance]
      exact congrArg (fun r : List Fault => (r : Multiset Fault) + s.lost maxRounds)
        (List.append_nil _)
    · rename_i e saved
      refine ⟨gone ++ [e], hsaved, ?_, ?_⟩
      · change (((s.drain maxRounds).1.failures ++ [e] : List Fault) : Multiset Fault) +
          s.lost maxRounds = _
        rw [← Multiset.coe_add, ← Multiset.coe_add, add_right_comm, hbalance, add_assoc]
      · refine List.forall_mem_append.mpr ⟨fun e he => .inl (hgone e he), ?_⟩
        exact List.forall_mem_singleton.mpr (.inr (congrArg Prod.fst hpersist))

def refusingServer : Server Unit where
  answer call state := (match call with
    | .children .. => .error (.transport "children")
    | .delete _ | .set .. | .get .. | .records .. => .error (.transport "refused")
    | .upload _ => .error (.transport "upload")
    | .confirm _ => true, state)

def reopenedImage : Session Unit :=
  let start : Session Unit :=
    { server := refusingServer, state := (), acceptsUploads := false
      outline := .start (OpenKeys.empty.insert ⟨"i", none, none⟩) }
  start.perform (.view (.draw ⟨"i", "", none, .image, []⟩ none none true true))

/-- The image is not stored and removed, so that it goes untold that its
children were not found either. -/
theorem runEffects_loses : ∃ calls, reopenedImage.Calls calls reopenedImage.runEffects.2 ∧
    Fault.transport "children" ∈ reopenedImage.failures calls ∧
      .transport "children" ∉ reopenedImage.runEffects.1.failures :=
  ⟨[.upload ⟨"i", "", none, .image, []⟩, .children "i" none], ⟨rfl, rfl, rfl⟩, by decide, by decide⟩

end Session

end ContentConsole
