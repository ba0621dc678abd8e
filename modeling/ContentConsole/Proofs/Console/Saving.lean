import ContentConsole.Proofs.Console.OneEntity

set_option autoImplicit false
set_option relaxedAutoImplicit false

/-!
The commands that write one property, and what their end says about the server. Setting a property
ends with 0 exactly if the server saved it; a renaming ends with 0 also when the server refused it,
and only its last line tells. Main statement: `run_saved_iff`.
-/
namespace ContentConsole

open Http (Transfer Network)

namespace RestClient

variable {client : RestClient} {agrees : Bool} {id key : String} {value : Json}
  {reads sent : List Transfer}

/-- The change was asked for, and the server answered that with success. -/
def Saved (client : RestClient) (id key : String) (value : Json) (log : List Transfer) : Prop :=
  ∃ x ∈ log, client.setRequest id key value = .ok x.request ∧
    ∃ response, x.answer = .ok response ∧ response.isSuccess = true

theorem not_saved_of_get (hreads : ∀ x ∈ reads, x.request.method = .get) :
    ¬client.Saved id key value reads := by
  rintro ⟨x, hx, hrequest, -⟩
  exact absurd ((hreads x hx).symm.trans (method_setRequest hrequest)) (by decide)

theorem saved_append_iff (hreads : ∀ x ∈ reads, x.request.method = .get) :
    client.Saved id key value (reads ++ sent) ↔ client.Saved id key value sent := by
  constructor
  · rintro ⟨x, hx, hsaved⟩
    obtain hx | hx := List.mem_append.mp hx
    · exact absurd ⟨x, hx, hsaved⟩ (not_saved_of_get hreads)
    · exact ⟨x, hx, hsaved⟩
  · rintro ⟨x, hx, hsaved⟩
    exact ⟨x, List.mem_append_right _ hx, hsaved⟩

theorem accepted_map_eq_ok_iff {url : Url} {r : Http.Response} :
    (accepted url r).map (fun _ => ()) = .ok () ↔ r.isSuccess = true := by
  unfold accepted
  split
  · exact iff_of_true rfl ‹_›
  · exact iff_of_false nofun ‹_›

theorem Answers.saved_iff {answer : Except Fault Unit}
    (h : client.Answers agrees (.set id key value) sent answer) :
    client.Saved id key value sent ↔ answer = .ok () := by
  cases h with
  | unsent => exact iff_of_false (not_saved_of_get (List.forall_mem_nil _)) nofun
  | unanswered r hrequest reason =>
    refine iff_of_false ?_ nofun
    rintro ⟨x, hx, -, response, hresponse, -⟩
    rw [List.mem_singleton.mp hx] at hresponse
    cases hresponse
  | answered r hrequest response =>
    refine Iff.trans ⟨?_, fun hsuccess => ?_⟩ accepted_map_eq_ok_iff.symm
    · rintro ⟨x, hx, -, response', hresponse, hsuccess⟩
      rw [List.mem_singleton.mp hx] at hresponse
      cases hresponse
      exact hsuccess
    · exact ⟨_, List.mem_singleton_self _, hrequest, response, rfl, hsuccess⟩

end RestClient

namespace Session

variable {σ : Type} {s : Session σ}

theorem drain_of_apply {effects : List Effect} {outline : Outline} {report : Report}
    {s' : Session σ} (heffects : effects ≠ [])
    (htake : s.outline.takeEffects = (effects, outline))
    (happly : ({ s with outline } : Session σ).apply effects = (report, s'))
    (hdone : s'.outline.outbox = []) (rounds : Nat) :
    s.drain (rounds + 1) = (report ++ {}, s') := by
  cases effects with
  | nil => exact absurd rfl heffects
  | cons effect effects =>
    rw [drain, htake]
    dsimp only
    rw [happly]
    dsimp only
    rw [drain_of_outbox_eq_nil hdone]

theorem editThenEnter_root (keys : OpenKeys) (e : Entity) (upload : UploadState) (name : String) :
    ∃ n, editThenEnter (.single keys (Outline.rootNode e upload)) 0 name =
      (.ok (some name),
        { Outline.single keys n with
          outbox := [.setProperty e.id "name" (.str name), .reloadPreviews] }) :=
  ⟨_, rfl⟩

theorem exists_apply_setProperty (s : Session σ) (id key : String) (value : Json) :
    ∃ report, s.apply [.setProperty id key value, .reloadPreviews] =
      (report, (s.ask (.set id key value)).2) ∧
      (report.isClean = true ↔ (s.ask (.set id key value)).1 = .ok ()) := by
  rw [apply, applyProperties]
  rcases s.ask (.set id key value) with ⟨e | _, asked⟩
  · exact ⟨_, rfl, iff_of_false Bool.false_ne_true (by simp)⟩
  · exact ⟨_, rfl, iff_of_true rfl rfl⟩

theorem isClean_append_empty (report : Report) : (report ++ {}).isClean = report.isClean :=
  congrArg List.isEmpty (List.append_nil _)

theorem exists_runEffects_setProperty {keys : OpenKeys} {n : Node} {id key : String}
    {value : Json}
    (houtline : s.outline =
      { Outline.single keys n with outbox := [.setProperty id key value, .reloadPreviews] }) :
    ∃ report asked, s.runEffects = (report, asked) ∧
      asked.state = (s.ask (.set id key value)).2.state ∧
      (report.isClean = true ↔ (s.ask (.set id key value)).1 = .ok ()) := by
  obtain ⟨report, happly, hclean⟩ :=
    exists_apply_setProperty { s with outline := .single keys n } id key value
  have htake : s.outline.takeEffects =
      ([.setProperty id key value, .reloadPreviews], .single keys n) := by
    rw [houtline]
    rfl
  have hdrain := drain_of_apply (List.cons_ne_nil _ _) htake happly rfl 63
  have hkeys : (s.drain maxRounds).2.outline.openKeys = s.outline.openKeys := by
    rw [maxRounds, hdrain, houtline]
    rfl
  refine ⟨_, _, (runEffects_of_openKeys_eq hkeys).trans hdrain, rfl, ?_⟩
  rw [isClean_append_empty]
  exact hclean

theorem exists_rename_root {keys : OpenKeys} {e : Entity} {upload : UploadState}
    (houtline : s.outline = .single keys (Outline.rootNode e upload)) (name : String) :
    ∃ report asked, s.rename 0 name = (.ok (some name, report), asked) ∧
      asked.state = (s.ask (.set e.id "name" (.str name))).2.state ∧
      (report.isClean = true ↔ (s.ask (.set e.id "name" (.str name))).1 = .ok ()) := by
  obtain ⟨n, hedit⟩ := editThenEnter_root keys e upload name
  obtain ⟨report, asked, hrun, hstate, hclean⟩ :=
    exists_runEffects_setProperty
      (s := { s with
        outline :=
          { Outline.single keys n with
            outbox := [.setProperty e.id "name" (.str name), .reloadPreviews] } })
      rfl
  refine ⟨report, asked, ?_, hstate, hclean⟩
  rw [rename, houtline, hedit]
  dsimp only
  rw [hrun]

end Session

def Command.change? : Command → Option (String × String × Json)
  | .rename id name => some (id, "name", .str name)
  | .set id key word => some (id, key, Console.valueOf word)
  | .tree .. | .inspect .. | .delete .. | .keys .. | .settings .. => none

namespace Console

variable {σ : Type} {w : World σ} {i : Invocation} {c : Console} {client : RestClient}

/-- The line that ends a renaming which the server did not take. -/
def unsaved (display : Display) (id : String) : Line :=
  display.error s!"Rename of {id} was not saved"

theorem success_ne_unsaved (display : Display) (message id : String) :
    display.success message ≠ unsaved display id :=
  fun h => absurd (congrArg Line.stream h) (show Stream.output ≠ Stream.errors by decide)

theorem saved_set_iff (hclient : c.client = .ok client) (id key word : String) :
    client.Saved id key (valueOf word) (c.set w.logged id key word).state.2 ↔
      (c.set w.logged id key word).error = none := by
  have hconnected := c.connected_connect w client false
  unfold set
  rw [hclient]
  dsimp only
  split
  · exact iff_of_false (RestClient.not_saved_of_get (List.forall_mem_nil _)) nofun
  rename_i s hkeys
  obtain ⟨hstarted, hstate⟩ := connected_withKeys hconnected hkeys
  obtain ⟨sent, hlog, hanswer⟩ :=
    Session.exists_answers_ask hstarted.server (.set id key (valueOf word))
  rw [hstate] at hlog
  have hsent : (s.ask (.set id key (valueOf word))).2.state.2 = sent := hlog
  split
  all_goals
    rename_i hask
    rw [hask] at hsent hanswer
    obtain rfl := hsent
    refine hanswer.saved_iff.trans ?_
  · exact iff_of_false nofun nofun
  · exact iff_of_true rfl rfl

theorem saved_rename_iff (hclient : c.client = .ok client) (id name : String) :
    client.Saved id "name" (.str name) (c.rename w.logged id name).state.2 ↔
      (c.rename w.logged id name).error = none ∧
        (c.rename w.logged id name).lines.getLast? ≠ some (unsaved c.display id) := by
  have hconnected := c.connected_connect w client false
  unfold rename
  rw [hclient]
  dsimp only
  obtain ⟨reads, hreads, hmethods, hs, hentity⟩ := exists_resolve hconnected id
  split
  · rename_i hresolve
    rw [hresolve] at hreads
    obtain rfl : _ = reads := hreads
    exact iff_of_false (RestClient.not_saved_of_get hmethods) nofun
  rename_i entity s hresolve
  rw [hresolve] at hreads hs hentity
  obtain ⟨rfl, hmembers, -⟩ := hentity entity rfl
  have hread : s.state.2 = reads := hreads
  split
  · exact iff_of_false (RestClient.not_saved_of_get (hread ▸ hmethods)) nofun
  rename_i s hkeys
  obtain ⟨hhandle, hshown, hdrawn⟩ := shows_of_withKeys hs hkeys hmembers
  obtain ⟨keys, upload, houtline⟩ := hshown.outline
  obtain ⟨report, asked, hrename, hasked, hclean⟩ := Session.exists_rename_root houtline name
  obtain ⟨sent, hlog, hanswer⟩ :=
    Session.exists_answers_ask hshown.server (.set entity.id "name" (.str name))
  rw [← hasked, hdrawn, hread] at hlog
  have hsaved : client.Saved entity.id "name" (.str name) asked.state.2 ↔
      report.isClean = true := by
    rw [hlog, RestClient.saved_append_iff hmethods, hanswer.saved_iff, hclean]
  rw [hhandle, hrename]
  refine hsaved.trans ?_
  dsimp only
  cases report.isClean with
  | true =>
    refine iff_of_true rfl ⟨rfl, fun hlast => ?_⟩
    have hline := List.getLast?_concat.symm.trans hlast
    exact success_ne_unsaved _ _ _ (Option.some.inj hline)
  | false => exact iff_of_false Bool.false_ne_true fun h => h.2 List.getLast?_concat

theorem lines_rename_ne_nil {id name : String} (hend : (c.rename w id name).error = none) :
    (c.rename w id name).lines ≠ [] := by
  unfold rename at hend ⊢
  split at hend
  · cases hend
  split at hend
  · cases hend
  split at hend
  · cases hend
  dsimp only at hend ⊢
  split at hend
  · cases hend
  exact List.append_ne_nil_of_right_ne_nil _ (List.cons_ne_nil _ _)

theorem error_perform_ne_none {command : Command} {change : String × String × Json}
    (hchange : command.change? = some change) {e : String} (hclient : c.client = .error e)
    (w : World σ) : (c.perform w command).error ≠ none := by
  cases command with
  | rename id name =>
    rw [perform, rename, hclient]
    exact Option.some_ne_none (CommandError.reported e)
  | set id key word =>
    rw [perform, set, hclient]
    exact Option.some_ne_none (CommandError.reported e)
  | tree | inspect | delete | keys | settings => cases hchange

theorem saved_perform_iff {command : Command} {id key : String} {value : Json}
    (hchange : command.change? = some (id, key, value)) (hclient : c.client = .ok client) :
    client.Saved id key value (c.perform w.logged command).state.2 ↔
      (c.perform w.logged command).error = none ∧ ∀ name, command = .rename id name →
        (c.perform w.logged command).lines.getLast? ≠ some (unsaved c.display id) := by
  cases command with
  | rename id name =>
    obtain ⟨rfl, rfl, rfl⟩ := by
      simpa only [Command.change?, Option.some.injEq, Prod.mk.injEq] using hchange
    rw [perform, saved_rename_iff hclient id name]
    refine and_congr_right fun _ => ⟨?_, fun h => h name rfl⟩
    rintro h _ ⟨⟩
    exact h
  | set id key word =>
    obtain ⟨rfl, rfl, rfl⟩ := by
      simpa only [Command.change?, Option.some.injEq, Prod.mk.injEq] using hchange
    rw [perform, saved_set_iff hclient id key word]
    exact ⟨fun h => ⟨h, nofun⟩, And.left⟩
  | tree | inspect | delete | keys | settings => cases hchange

/--
What a command writes is saved exactly if the run ends with 0 and, for a renaming, not with
the line that it was not saved.
-/
theorem run_saved_iff (w : World σ) {args : List String} {i : Invocation} {id key : String}
    {value : Json} (hread : Invocation.read args w.env = .ok i)
    (hchange : i.command.change? = some (id, key, value)) :
    let exit := run w.logged args
    (∃ client, ClientOf w i client ∧ client.Saved id key value exit.state.2) ↔
      exit.code = 0 ∧ ∀ name, i.command = .rename id name →
        exit.lines.getLast? ≠ some (unsaved ⟨(formatOf i.format).1, hasColors w.env⟩ id) := by
  intro exit
  obtain ⟨hcode, hnone⟩ | ⟨c, hstart, hend⟩ := run_logged hread
  · refine iff_of_false ?_ fun h => hcode h.1
    rintro ⟨client, -, hsaved⟩
    exact RestClient.not_saved_of_get (hnone ▸ List.forall_mem_nil _) hsaved
  cases hclient : c.client with
  | error e =>
    refine iff_of_false ?_ fun h => error_perform_ne_none hchange hclient w.logged
      (hend.error.mp h.1)
    rintro ⟨client, hof, -⟩
    cases hclient.symm.trans ((clientOf_iff_of_start hstart).mp hof)
  | ok client =>
    have hof : ∀ client', ClientOf w i client' ↔ client = client' := fun client' => by
      rw [clientOf_iff_of_start hstart, hclient, Except.ok.injEq]
    simp only [hof, exists_eq_left', exit, hend.state, hend.error]
    rw [saved_perform_iff hchange hclient]
    refine and_congr_right fun herror => ?_
    rw [hend.lines (hend.error.mpr herror), display_of_start hstart]
    refine forall_congr' fun name => imp_congr_right fun hcommand => ?_
    have hlines : (c.perform w.logged i.command).lines ≠ [] := by
      rw [hcommand, perform] at herror ⊢
      exact lines_rename_ne_nil herror
    rw [List.getLast?_append_of_ne_nil _ hlines]

def strictServer (status : Nat) : Network Unit where
  send r state :=
    match r.method with
    | .get =>
      (.ok ⟨200, "\x7b\"result\": [\x7b\"type\": \"Content\", \"name\": \"Old\"\x7d]\x7d"⟩, state)
    | _ => (.ok ⟨status, ""⟩, state)

theorem run_saved_iff_new :
    let w : World Unit :=
      { files := .empty, env := fun _ => none, network := strictServer 200, state := () }
    ∃ client, ClientOf w ⟨.rename "n1" "New", none, "plain", false⟩ client ∧
      client.Saved "n1" "name" (.str "New")
        (run w.logged ["-o", "plain", "rename", "n1", "New"]).state.2 := by
  intro w
  have hread : Invocation.read ["-o", "plain", "rename", "n1", "New"] w.env =
    .ok ⟨.rename "n1" "New", none, "plain", false⟩ := rfl
  refine (run_saved_iff w hread rfl).mpr ⟨?_, fun name _ => ?_⟩
  · decide +kernel
  · decide +kernel

/-- A renaming that the server refuses ends with 0 as well. -/
theorem run_unsaved :
    let w : World Unit := {
      files := .empty
      env := fun name => [(Settings.rootVariable, "http://cms.test/r")].lookup name
      network := strictServer 500
      state := () }
    let i : Invocation := ⟨.rename "n1" "New", none, "plain", false⟩
    let exit := run w.logged ["-o", "plain", "rename", "n1", "New"]
    Invocation.read ["-o", "plain", "rename", "n1", "New"] w.env = .ok i ∧ exit.code = 0 ∧
      ¬∃ client, ClientOf w i client ∧ client.Saved "n1" "name" (.str "New") exit.state.2 := by
  intro w i exit
  refine ⟨rfl, by decide +kernel, ?_⟩
  rintro ⟨client, -, x, hx, hrequest, response, hresponse, hsuccess⟩
  have hrefused : ∀ x ∈ exit.state.2,
      x.request.method = .put → (x.answer.toOption.any fun r => r.isSuccess) = false := by
        decide +kernel
  have hanswer := hrefused x hx (RestClient.method_setRequest hrequest)
  rw [hresponse] at hanswer
  exact Bool.false_ne_true (hanswer.symm.trans hsuccess)

end Console

end ContentConsole
