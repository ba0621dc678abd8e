import ContentConsole.Console.Run
import ContentConsole.Proofs.Rest.Transfers
import ContentConsole.Proofs.Session.UserAction

set_option autoImplicit false
set_option relaxedAutoImplicit false

/-!
How the commands that change one entity begin: the console connects, asks for the type and the name
of the entity, loads the open keys and draws the entity as a node of its own. Until then it only
reads. Main statements: `exists_resolve` and `shows_of_withKeys`.
-/
namespace ContentConsole

open Http (Transfer Network)

namespace Outline

def rootNode (e : Entity) (upload : UploadState) : Node :=
  { freshNode ⟨none, none, none, false, false⟩ e with upload }

def single (openKeys : OpenKeys) (n : Node) : Outline where
  nodes := [n]
  roots := [0]
  nextHandle := 1
  openKeys := openKeys

theorem draw_start (keys : OpenKeys) {e : Entity} (hmembers : e.hasMembers = false) :
    let drawn := (Outline.start keys).draw e none none false false
    drawn.1.handle = 0 ∧ (drawn.2 = .single keys (rootNode e .notRequired) ∨
      drawn.2 = { Outline.single keys (rootNode e .pending) with outbox := [.upload 0 e] }) := by
  obtain ⟨id, name, resourceId, kind, children⟩ := e
  cases kind with
  | resource | component | content | user => exact ⟨rfl, .inl rfl⟩
  | image | file => exact ⟨rfl, .inr rfl⟩
  | folder folders images files =>
    have hnil : folders ++ images ++ files = [] := by
      simpa [Entity.hasMembers, Kind.members] using hmembers
    obtain ⟨hboth, rfl⟩ := List.append_eq_nil_iff.mp hnil
    obtain ⟨rfl, rfl⟩ := List.append_eq_nil_iff.mp hboth
    exact ⟨rfl, .inl rfl⟩
  | group users =>
    obtain rfl : users = [] := by simpa [Entity.hasMembers, Kind.members] using hmembers
    exact ⟨rfl, .inl rfl⟩
  | element typeName elements =>
    obtain rfl : elements = [] := by simpa [Entity.hasMembers, Kind.members] using hmembers
    exact ⟨rfl, .inl rfl⟩

end Outline

namespace Session

variable {σ : Type} {client : RestClient} {network : Network σ} {agrees : Bool}

/-- A session over a network with a log that has shown nothing yet. -/
structure Connected (client : RestClient) (network : Network σ) (agrees : Bool)
    (s : Session (σ × List Transfer)) : Prop where
  server : s.server = client.server network.logged agrees
  outline : ∃ keys, s.outline = .start keys
  acceptsUploads : s.acceptsUploads = true

theorem Connected.of_asked {s s' : Session (σ × List Transfer)}
    (h : Connected client network agrees s) (hasked : s.Asked s') :
    Connected client network agrees s' :=
  hasked ▸ ⟨h.server, h.outline, h.acceptsUploads⟩

/-- A session over a network with a log that shows one entity, as a single root. -/
structure ShowsOne (client : RestClient) (network : Network σ) (agrees : Bool) (e : Entity)
    (s : Session (σ × List Transfer)) : Prop where
  server : s.server = client.server network.logged agrees
  outline : ∃ keys upload, s.outline = .single keys (Outline.rootNode e upload)

theorem drain_upload {s : Session (σ × List Transfer)} (haccepts : s.acceptsUploads = true)
    {keys : OpenKeys} {e : Entity}
    (houtline : s.outline =
      { Outline.single keys (Outline.rootNode e .pending) with outbox := [.upload 0 e] })
    (rounds : Nat) :
    (s.drain (rounds + 1)).2 =
      { s with outline := .single keys (Outline.rootNode e .committed) } := by
  obtain ⟨server, state, files, calls, outline, inspector, pageSize, acceptsUploads, keyFile⟩ := s
  subst haccepts houtline
  exact drain_snd_of_outbox_eq_nil rfl rounds

theorem runEffects_of_openKeys_eq {s : Session σ}
    (h : (s.drain maxRounds).2.outline.openKeys = s.outline.openKeys) :
    s.runEffects = s.drain maxRounds := by
  rw [runEffects]
  exact if_pos h

theorem Connected.draw {s : Session (σ × List Transfer)} (hs : Connected client network agrees s)
    {e : Entity} (hmembers : e.hasMembers = false) :
    (s.draw e none none false false).1.handle = 0 ∧
      ShowsOne client network agrees e (s.draw e none none false false).2.2 ∧
      (s.draw e none none false false).2.2.state = s.state := by
  obtain ⟨keys, hkeys⟩ := hs.outline
  obtain ⟨hhandle, houtline⟩ := Outline.draw_start keys hmembers
  have hdraw : (s.draw e none none false false).2.2 =
      ({ s with outline := ((Outline.start keys).draw e none none false false).2 } :
        Session _).runEffects.2 := by
    rw [Session.draw, hkeys]
  rw [hdraw, Session.draw, hkeys]
  obtain hplain | hupload := houtline
  · refine ⟨hhandle, ?_⟩
    have hdrain := drain_of_outbox_eq_nil
      (s := { s with outline := .single keys (Outline.rootNode e .notRequired) }) rfl maxRounds
    rw [hplain, runEffects_of_openKeys_eq (by rw [hdrain]), hdrain]
    exact ⟨⟨hs.server, keys, .notRequired, rfl⟩, rfl⟩
  · refine ⟨hhandle, ?_⟩
    have hdrain := drain_upload
      (s := { s with outline :=
        { Outline.single keys (Outline.rootNode e .pending) with outbox := [.upload 0 e] } })
      hs.acceptsUploads rfl 63
    rw [hupload, runEffects_of_openKeys_eq (by rw [maxRounds, hdrain]; rfl), maxRounds, hdrain]
    exact ⟨⟨hs.server, keys, .committed, rfl⟩, rfl⟩

end Session

namespace Console

open Session (Connected ShowsOne)

variable {σ : Type} {client : RestClient} {network : Network σ} {agrees : Bool}
  {s s' : Session (σ × List Transfer)}

theorem connected_connect (c : Console) (w : World σ) (client : RestClient) (agrees : Bool) :
    Connected client w.network agrees (c.connect w.logged client agrees) :=
  ⟨rfl, ⟨.empty, rfl⟩, rfl⟩

theorem connected_withKeys (hs : Connected client network agrees s) {c : Console}
    (h : c.withKeys s = .ok s') : Connected client network agrees s' ∧ s'.state = s.state := by
  unfold withKeys at h
  split at h
  · cases h
    exact ⟨hs, rfl⟩
  · rename_i path _
    cases hload : OpenKeys.load s.files path with
    | error e =>
      rw [Session.withKeyFile, hload] at h
      cases h
    | ok keys =>
      rw [Session.withKeyFile, hload] at h
      cases h
      exact ⟨⟨hs.server, ⟨keys, rfl⟩, hs.acceptsUploads⟩, rfl⟩

/-- With the open keys loaded, an entity without members is drawn as a
single root; nobody is asked. -/
theorem shows_of_withKeys (hs : Connected client network agrees s) {c : Console}
    (hkeys : c.withKeys s = .ok s') {e : Entity} (hmembers : e.hasMembers = false) :
    (s'.draw e none none false false).1.handle = 0 ∧
      ShowsOne client network agrees e (s'.draw e none none false false).2.2 ∧
      (s'.draw e none none false false).2.2.state = s.state := by
  obtain ⟨hstarted, hstate⟩ := connected_withKeys hs hkeys
  obtain ⟨hhandle, hshown, hdrawn⟩ := hstarted.draw hmembers
  exact ⟨hhandle, hshown, hdrawn.trans hstate⟩

theorem hasMembers_toEntity (type : String) (name : Option String) (id : String) :
    (({ type, name } : Wire).toEntity id).hasMembers = false := by
  simp only [Entity.hasMembers, Wire.toEntity, Wire.kind]
  cases EntityType.ofName type <;> rfl

/-- The entity is known only if its type was read. -/
theorem exists_resolve (hs : Connected client network agrees s) (id : String) :
    ∃ reads, (resolve s id none).2.state.2 = s.state.2 ++ reads ∧
      (∀ x ∈ reads, x.request.method = .get) ∧
      Connected client network agrees (resolve s id none).2 ∧
      ∀ entity, (resolve s id none).1 = .ok entity → entity.id = id ∧ entity.hasMembers = false ∧
        ∃ x ∈ reads, ∃ type, x.Gives (client.getRequest id)
          (fun url => RestClient.propertyOf url "type") type := by
  have htyped := hs.of_asked (s.asked_ask (.get id "type"))
  obtain ⟨typeSent, htypeLog, htype⟩ := Session.exists_answers_ask hs.server (.get id "type")
  obtain ⟨nameSent, hnameLog, hname⟩ := Session.exists_answers_ask htyped.server (.get id "name")
  refine ⟨typeSent ++ nameSent, ?_, ?_, htyped.of_asked (Session.asked_ask _ _), ?_⟩
  · rw [← List.append_assoc, ← htypeLog]
    exact hnameLog
  · intro x hx
    obtain hx | hx := List.mem_append.mp hx
    · exact RestClient.method_getRequest (htype.request_eq x hx)
    · exact RestClient.method_getRequest (hname.request_eq x hx)
  · intro entity hentity
    cases hanswer : (s.ask (.get id "type")).1 with
    | error e =>
      simp only [resolve, hanswer] at hentity
      cases hentity
    | ok type =>
      simp only [resolve, hanswer] at hentity
      cases hentity
      rw [hanswer] at htype
      obtain ⟨x, hx, hgives⟩ := htype.exists_gives RestClient.isSuccess_of_propertyOf
      exact ⟨rfl, hasMembers_toEntity _ _ id, x, by rw [hx]; simp, type, hgives⟩

/-! ## Runs -/

/-- The client of an invocation, made of the settings that it loads. -/
def ClientOf (w : World σ) (i : Invocation) (client : RestClient) : Prop :=
  ∃ settings, Settings.load w.files (settingsPathIn w.files i.settingsPath) w.env = .ok settings ∧
    RestClient.ofSettings settings.server = .ok client

theorem clientOf_iff_of_start {w : World σ} {i : Invocation} {format : OutputFormat} {c : Console}
    (hstart : start w i format = .ok c) : ClientOf w i client ↔ c.client = .ok client := by
  simp only [start] at hstart
  split at hstart
  · rename_i settings hload
    cases hstart
    constructor
    · rintro ⟨settings', hload', hclient⟩
      cases hload.symm.trans hload'
      rw [Console.client, hclient]
      rfl
    · intro hclient
      refine ⟨settings, hload, ?_⟩
      cases hsettings : RestClient.ofSettings settings.server with
      | error e =>
        rw [Console.client, hsettings] at hclient
        cases hclient
      | ok client' =>
        rw [Console.client, hsettings] at hclient
        cases hclient
        rfl
  · cases hstart

theorem display_of_start {w : World σ} {i : Invocation} {format : OutputFormat} {c : Console}
    (hstart : start w i format = .ok c) : c.display = ⟨format, hasColors w.env⟩ := by
  simp only [start] at hstart
  split at hstart <;> cases hstart
  rfl

structure EndsWith (exit : Exit (σ × List Transfer)) (notes : List Line)
    (outcome : Outcome (σ × List Transfer)) : Prop where
  state : exit.state = outcome.state
  error : exit.code = 0 ↔ outcome.error = none
  lines : exit.code = 0 → exit.lines = notes ++ outcome.lines

theorem run_logged {w : World σ} {args : List String} {i : Invocation}
    (hread : Invocation.read args w.env = .ok i) :
    (run w.logged args).code ≠ 0 ∧ (run w.logged args).state.2 = [] ∨
      ∃ c, start w i (formatOf i.format).1 = .ok c ∧
        EndsWith (run w.logged args) (formatOf i.format).2 (c.perform w.logged i.command) := by
  have hreadLogged : Invocation.read args w.logged.env = .ok i := hread
  have hstartLogged : ∀ format, start w.logged i format = start w i format := fun _ => rfl
  rw [run, hreadLogged]
  simp only [runInvocation, hstartLogged]
  cases hstart : start w i (formatOf i.format).1 with
  | error e => exact .inl ⟨Nat.one_ne_zero, rfl⟩
  | ok c =>
    refine .inr ⟨c, rfl, ?_⟩
    cases herror : (c.perform w.logged i.command).error with
    | none =>
      simp only [herror]
      exact ⟨rfl, iff_of_true rfl herror, fun _ => rfl⟩
    | some e =>
      simp only [herror]
      exact ⟨rfl, iff_of_false e.code_ne_zero (by simp [herror]), fun h => absurd h e.code_ne_zero⟩

end Console

end ContentConsole
