import ContentConsole.Outline.Expand
import ContentConsole.Session.Basic

set_option autoImplicit false
set_option relaxedAutoImplicit false

/-!
Carrying out effects. A round takes everything out of the outbox: first the properties are set in
order, then the uploads are made and settled, then the children are fetched and drawn. Drawing may
ask for more, so rounds follow one another until the outbox is empty or `maxRounds` are done.
-/
namespace ContentConsole.Session

variable {σ : Type}

def maxRounds : Nat := 64

/-- Sets properties in order, a failure not stopping those behind it, and counts previews. -/
def applyProperties (s : Session σ) : List Effect → Report × Session σ
  | [] => ({}, s)
  | .setProperty id key value :: rest =>
    let (answer, s) := s.ask (.set id key value)
    let (report, s) := s.applyProperties rest
    match answer with
    | .ok () => ({ sets := 1 } ++ report, s)
    | .error e => (.ofFailure e ++ report, s)
  | .reloadPreviews :: rest =>
    let (report, s) := s.applyProperties rest
    ({ previews := 1 } ++ report, s)
  | .fetchChildren .. :: rest | .upload .. :: rest => s.applyProperties rest

/-- Uploads an entity, unless uploads are accepted unasked. -/
def upload (s : Session σ) (staged : Handle × Entity) : Except Fault Unit × Session σ :=
  if s.acceptsUploads then (.ok (), s) else s.ask (.upload staged.2)

def settleEach (s : Session σ) :
    List ((Handle × Entity) × Except Fault Unit) → List (Except Fault Unit) × Session σ
  | [] => ([], s)
  | ((h, e), outcome) :: rest =>
    let (result, outline) := s.outline.settleUpload h (outcome.mapError (Fault.ofUpload e.id))
    let (results, s) := settleEach { s with outline } rest
    (result :: results, s)

/-- Uploads all staged nodes, then commits or removes each by its own outcome. -/
def settleUploads (s : Session σ) (staged : List (Handle × Entity)) :
    List (Except Fault Unit) × Session σ :=
  let (outcomes, s) := s.askAll upload staged
  s.settleEach (staged.zip outcomes)

def uploadReport : Except Fault Unit → Report
  | .ok () => { uploads := 1 }
  | .error e => .ofFailure e

def applyUploads (s : Session σ) (effects : List Effect) : Report × Session σ :=
  let (results, s) := s.settleUploads (effects.filterMap Effect.upload?)
  (results.foldr (fun result report => uploadReport result ++ report) {}, s)

def fetch (s : Session σ) (wanted : Handle × String × Option String) :
    Except Fault (List Entity) × Session σ :=
  s.ask (.children wanted.2.1 wanted.2.2)

def takeChildren (s : Session σ) (h : Handle)
    (answer : Except Fault (List Entity)) : Report × Session σ :=
  if !s.outline.isLive h then ({}, s)
  else
    match answer with
    | .ok children =>
      match s.outline.receive h children with
      | (.ok drawn, outline) => ({ attached := drawn.length }, { s with outline })
      | (.error e, outline) => (.ofFailure e, { s with outline })
    | .error e =>
      match s.outline.abandonFetch h with
      | .ok outline => (.ofFailure e, { s with outline })
      | .error gone => (.ofFailure gone ++ .ofFailure e, s)

def takeEach (s : Session σ) :
    List (Handle × Except Fault (List Entity)) → Report × Session σ
  | [] => ({}, s)
  | (h, answer) :: rest =>
    let (first, s) := s.takeChildren h answer
    let (others, s) := s.takeEach rest
    (first ++ others, s)

def applyFetches (s : Session σ) (effects : List Effect) : Report × Session σ :=
  let wanted := effects.filterMap Effect.fetch?
  let (answers, s) := s.askAll fetch wanted
  s.takeEach ((wanted.map Prod.fst).zip answers)

/-- One round: carries out the given effects and no others. -/
def apply (s : Session σ) (effects : List Effect) : Report × Session σ :=
  let (properties, s) := s.applyProperties effects
  let (uploads, s) := s.applyUploads effects
  let (fetches, s) := s.applyFetches effects
  (properties ++ uploads ++ fetches, s)

def drain (s : Session σ) : Nat → Report × Session σ
  | 0 => ({}, s)
  | rounds + 1 =>
    match s.outline.takeEffects with
    | ([], outline) => ({}, { s with outline })
    | (effects, outline) =>
      let (first, s) := { s with outline }.apply effects
      let (others, s) := s.drain rounds
      (first ++ others, s)

/-- Carries out everything in the outbox, and saves the open keys if that changed them. -/
def runEffects (s : Session σ) : Report × Session σ :=
  let before := s.outline.openKeys
  let (report, s) := s.drain maxRounds
  if s.outline.openKeys = before then (report, s)
  else
    let (saved, s) := s.persisted
    (report ++ saved, s)

end ContentConsole.Session
