import ContentConsole.Proofs.Session.KeyFile
import ContentConsole.Proofs.Session.Reach

set_option autoImplicit false
set_option relaxedAutoImplicit false

/-!
A node that opens and gets no children. Opening sets the state of the node, remembers its key and
asks for the children; the failure of the fetch takes all three back. Main statement:
`toggle_failed`, by which the outline is as it was, and what is left are the call, the state of the
server and two saves of the keys.
-/
namespace ContentConsole

theorem OpenKeys.erase_insert {s : OpenKeys} {key : OpenKey} (h : key ∉ s) :
    (s.insert key).erase key = s := by
  refine eq_of_mem_iff fun x => ?_
  rw [mem_erase, mem_insert]
  constructor
  · rintro ⟨rfl | hx, hne⟩
    · exact absurd rfl hne
    · exact hx
  · intro hx
    exact ⟨.inr hx, fun heq => h (heq ▸ hx)⟩

theorem Report.append_assoc (a b c : Report) : a ++ b ++ c = a ++ (b ++ c) :=
  (Report.mk.injEq ..).mpr ⟨Nat.add_assoc .., Nat.add_assoc .., Nat.add_assoc .., Nat.add_assoc ..,
    List.append_assoc ..⟩

namespace Outline

variable {o : Outline} {n : Node}

theorem Arena.update_update_eq_self (ha : o.Arena) (hn : n ∈ o.nodes) {f g : Node → Node}
    (hf : KeepsPlace f) (hback : g (f n) = n) : (o.update n.handle f).update n.handle g = o := by
  have hnodes : ((o.update n.handle f).update n.handle g).nodes = o.nodes := by
    rw [Outline.update, Outline.update, List.map_map, List.map_congr_left (g := id), List.map_id]
    intro m hm
    by_cases hhandle : m.handle = n.handle
    · obtain rfl := ha.eq_of_handle hm hn hhandle
      simp [(hf m).1, hback]
    · simp [hhandle]
  exact congrArg (fun nodes => { o with nodes }) hnodes

def waiting (o : Outline) (n : Node) : Outline :=
  { o.update n.handle (Node.inState .fetching) with openKeys := o.openKeys.insert n.key }

theorem Arena.takeEffects_openNode (ha : o.Arena) (hn : n ∈ o.nodes) (hempty : o.outbox = []) :
    (o.openNode n.handle).takeEffects =
      ([.fetchChildren n.handle n.entityId n.resourceId], o.waiting n) := by
  rw [ha.openNode_eq hn, takeEffects, Outline.push, waiting]
  simp only [Outline.update, hempty, List.nil_append]

theorem Arena.abandonFetch_waiting (ha : o.Arena) (hn : n ∈ o.nodes)
    (hclosed : n.expansion = .collapsed) (hkey : n.key ∉ o.openKeys) :
    (o.waiting n).abandonFetch n.handle = .ok o := by
  have hget : (o.waiting n).get n.handle = .ok (n.inState .fetching) :=
    get_eq_ok_iff.mpr (ha.node?_update_self (keepsPlace_inState .fetching) hn)
  have hback : Node.inState .collapsed (n.inState .fetching) = n := by
    rw [← hclosed]
    rfl
  have hnode := ha.update_update_eq_self hn (keepsPlace_inState .fetching) hback
  rw [Outline.abandonFetch, hget]
  simp only [Node.inState_expansion, ne_eq, not_true_eq_false, if_false, Node.inState_key]
  change Except.ok
    { (o.update n.handle (Node.inState .fetching)).update n.handle (Node.inState .collapsed) with
    openKeys := (o.openKeys.insert n.key).erase n.key } = _
  rw [hnode, OpenKeys.erase_insert hkey]

end Outline

namespace Session

variable {σ : Type} {s : Session σ}

/-- What saving the keys two times in a row leaves in the files, and the failures of saving. -/
structure SavesTwice (s : Session σ) (files : Files) (unsaved : List Fault) : Prop where
  none : s.keyFile = none → files = s.files ∧ unsaved = []
  ok : ∀ path, s.keyFile = some path → ∀ saved, s.outline.openKeys.save s.files path = .ok saved →
    OpenKeys.load files path = .ok s.outline.openKeys ∧ unsaved = []
  error : ∀ path, s.keyFile = some path → ∀ fault, s.outline.openKeys.save s.files path =
    .error fault →
    files = s.files ∧ unsaved = [fault, fault]

theorem exists_savesTwice (s : Session σ) : ∃ files unsaved, s.SavesTwice files unsaved ∧
    s.persisted.2.persisted.2 = { s with files } ∧
      s.persisted.1 ++ s.persisted.2.persisted.1 = { failures := unsaved } := by
  obtain hnone | ⟨path, hpath⟩ := Option.eq_none_or_eq_some s.keyFile
  · have hpersisted : s.persisted = ({}, s) := by rw [persisted, persist, hnone]
    rw [hpersisted, hpersisted]
    exact ⟨s.files, [], ⟨fun _ => ⟨rfl, rfl⟩, by simp [hnone], by simp [hnone]⟩, rfl, rfl⟩
  · cases hsave : s.outline.openKeys.save s.files path with
    | error fault =>
      have hpersisted : s.persisted = (.ofFailure fault, s) := by
        rw [persisted, persist, hpath]
        simp only [hsave]
      rw [hpersisted, hpersisted]
      exact ⟨s.files, [fault, fault],
        ⟨by simp [hpath], by simp [hpath, hsave], by simp [hpath, hsave]⟩, rfl, rfl⟩
    | ok saved =>
      obtain ⟨again, hagain⟩ := OpenKeys.exists_save_again hsave
      have hfirst : s.persisted = ({}, { s with files := saved }) := by
        rw [persisted, persist, hpath]
        simp only [hsave]
      have hsecond : ({ s with files := saved } : Session σ).persisted =
          ({}, { s with files := again }) := by
        rw [persisted, persist]
        simp only [hpath, hagain]
      have hload : OpenKeys.load again path = .ok s.outline.openKeys := OpenKeys.load_of_save hagain
      rw [hfirst, hsecond]
      exact ⟨again, [], ⟨by simp [hpath], by simp [hpath, hload], by simp [hpath, hsave]⟩, rfl, rfl⟩

theorem apply_fetch_error {h : Handle} {id : String} {resourceId : Option String} {e : Fault}
    {outline : Outline} (hfail : (s.server.answer (.children id resourceId) s.state).1 = .error e)
    (hlive : s.outline.isLive h = true) (habandon : s.outline.abandonFetch h = .ok outline) :
    s.apply [.fetchChildren h id resourceId] =
      (.ofFailure e, { (s.ask (.children id resourceId)).2 with outline }) := by
  let asked := (s.ask (.children id resourceId)).2
  have htake : asked.takeChildren h (.error e) = (.ofFailure e, { asked with outline }) := by
    rw [takeChildren]
    simp only [asked, ask, hlive, habandon, Bool.not_true, Bool.false_eq_true, if_false]
  have hfetch : s.fetch (h, id, resourceId) = (.error e, asked) := Prod.ext hfail rfl
  have hasked : s.askAll fetch [(h, id, resourceId)] = ([.error e], asked) := by
    simp only [askAll, hfetch]
  have hfetches : s.applyFetches [.fetchChildren h id resourceId] =
      (.ofFailure e, { asked with outline }) := by
    change ((s.askAll fetch [(h, id, resourceId)]).2.takeEach
      ([h].zip (s.askAll fetch [(h, id, resourceId)]).1)) = _
    rw [hasked, List.zip_cons_cons, takeEach, htake]
    rfl
  change (({} ++ {} ++ (s.applyFetches [.fetchChildren h id resourceId]).1 : Report),
    (s.applyFetches [.fetchChildren h id resourceId]).2) = _
  rw [hfetches]
  rfl

theorem drain_openNode (ha : s.outline.Arena) (hempty : s.outline.outbox = []) {n : Node}
    (hn : n ∈ s.outline.nodes) (hclosed : n.expansion = .collapsed)
    (hkey : n.key ∉ s.outline.openKeys) {e : Fault}
    (hfail : (s.server.answer (.children n.entityId n.resourceId) s.state).1 = .error e)
    (rounds : Nat) :
    ({ s with outline := s.outline.openNode n.handle } : Session σ).drain (rounds + 1) =
      (.ofFailure e, (s.ask (.children n.entityId n.resourceId)).2) := by
  let waiting : Session σ := { s with outline := s.outline.waiting n }
  let asked := (s.ask (.children n.entityId n.resourceId)).2
  have hlive : waiting.outline.isLive n.handle = true :=
    (Outline.isLive_update (Outline.keepsPlace_inState .fetching) n.handle n.handle).trans
      (Outline.isLive_of_mem hn)
  have happly : waiting.apply [.fetchChildren n.handle n.entityId n.resourceId] =
      (.ofFailure e, asked) :=
    apply_fetch_error hfail hlive (ha.abandonFetch_waiting hn hclosed hkey)
  have hrest : asked.drain rounds = ({}, asked) :=
    drain_of_outbox_eq_nil (s := asked) hempty rounds
  rw [drain]
  simp only [ha.takeEffects_openNode hn hempty]
  rw [happly]
  dsimp only
  rw [hrest]
  rfl

/--
A node that is closed and not remembered as open is toggled, and the server fails to give its
children. The toggle ends well with the node closed and reports the failure. The outline, the keys
and the inspector are as they were; the call and the state of the server are what is left, and the
keys have been saved. If saving works, the file gives the keys of the outline, which it gave before
exactly if it was up to date; if saving fails, it fails both times.
-/
theorem toggle_failed (hs : s.outline.Reachable) (hempty : s.outline.outbox = []) {n : Node}
    (hn : n ∈ s.outline.nodes) (hclosed : n.expansion = .collapsed)
    (hkey : n.key ∉ s.outline.openKeys) {e : Fault}
    (hfail : (s.server.answer (.children n.entityId n.resourceId) s.state).1 = .error e) :
    ∃ files unsaved, s.SavesTwice files unsaved ∧
      s.toggle n.handle = (.ok (.collapsed, { failures := e :: unsaved }), { s with
        state := (s.server.answer (.children n.entityId n.resourceId) s.state).2
        calls := s.calls ++ [.children n.entityId n.resourceId]
        files }) ∧
      ∀ path saved, s.keyFile = some path → s.outline.openKeys.save s.files path = .ok saved →
        (OpenKeys.load files path = OpenKeys.load s.files path ↔
          OpenKeys.load s.files path = .ok s.outline.openKeys) := by
  have ha := hs.arena
  let asked := (s.ask (.children n.entityId n.resourceId)).2
  obtain ⟨files, unsaved, hsaves, hleft, hreported⟩ := exists_savesTwice asked
  have hdrained := drain_openNode ha hempty hn hclosed hkey hfail 63
  have hopened : (s.outline.openNode n.handle).openKeys = s.outline.openKeys.insert n.key := by
    rw [ha.openNode_eq hn]
    rfl
  have hchanged : asked.outline.openKeys ≠ s.outline.openKeys.insert n.key := by
    intro heq
    refine hkey ?_
    change n.key ∈ asked.outline.openKeys
    rw [heq, OpenKeys.mem_insert]
    exact .inl rfl
  have hrun : ({ s with outline := s.outline.openNode n.handle } : Session σ).runEffects =
      (.ofFailure e ++ asked.persisted.1, asked.persisted.2) := by
    rw [runEffects, maxRounds, hdrained]
    simp only [hopened]
    rw [if_neg hchanged]
  have htoggle : s.outline.toggle n.handle = .ok (.fetching, s.outline.openNode n.handle) := by
    rw [ha.toggle_eq hn, hclosed]
  have hget : ({ asked with files } : Session σ).outline.get n.handle = .ok n :=
    Outline.get_eq_ok_iff.mpr (ha.node?_handle hn)
  refine ⟨files, unsaved, ⟨hsaves.none, hsaves.ok, hsaves.error⟩, ?_,
    fun path saved hpath hsave => ?_⟩
  · rw [toggle, htoggle]
    dsimp only
    rw [hrun]
    dsimp only
    rw [hleft, hget]
    dsimp only
    rw [hclosed, Report.append_assoc, hreported]
    rfl
  · rw [(hsaves.ok path hpath saved hsave).1, eq_comm]
    rfl

def beforeToggle (files : Files) (openKeys : OpenKeys) : Session Unit :=
  { reluctantSession with
    files, keyFile := some "x/keys.json"
    outline := (Outline.start .empty).run
      [.draw ⟨"b", "", none, .emptyElement, []⟩ none none true true, .retrack openKeys] }

theorem toggle_failed_saved :
    let openKeys := OpenKeys.ofList [⟨"a", none, none⟩]
    ∃ saved files, openKeys.save .empty "x/keys.json" = .ok saved ∧
      let s := beforeToggle saved openKeys
      s.toggle 0 = (.ok (.collapsed, { failures := [.notFound "b"] }),
        { s with state := (), calls := [.children "b" none], files }) ∧
      OpenKeys.load files "x/keys.json" = OpenKeys.load s.files "x/keys.json" := by
  intro openKeys
  obtain ⟨saved, hsaved⟩ :=
    OpenKeys.exists_save (fun content => ⟨_, by rfl⟩ : Files.empty.CanSave "x/keys.json")
    openKeys
  obtain ⟨again, hagain⟩ := OpenKeys.exists_save_again hsaved
  let s := beforeToggle saved openKeys
  have hs : s.outline.Reachable := ⟨_, _, rfl⟩
  obtain ⟨n, hn, hhandle, hkey, hclosed⟩ :
      ∃ n ∈ s.outline.nodes, n.handle = 0 ∧ n.key = ⟨"b", none, none⟩ ∧ n.expansion = .collapsed :=
    ⟨_, List.mem_singleton.mpr rfl, rfl, rfl, rfl⟩
  have hnew : n.key ∉ s.outline.openKeys := by
    rw [hkey]
    change (⟨"b", none, none⟩ : OpenKey) ∉ openKeys
    decide
  have hid : n.entityId = "b" := congrArg OpenKey.entityId hkey
  have hresource : n.resourceId = none := congrArg OpenKey.resourceId hkey
  have hfail : (s.server.answer (.children n.entityId n.resourceId) s.state).1 =
      .error (.notFound "b") := by
    rw [hid]
    rfl
  obtain ⟨files, unsaved, hsaves, htoggle, hsame⟩ := toggle_failed hs rfl hn hclosed hnew hfail
  rw [hhandle, hid, hresource, (hsaves.ok _ rfl again hagain).2] at htoggle
  exact ⟨saved, files, hsaved, htoggle,
    (hsame _ again rfl hagain).mpr (OpenKeys.load_of_save hsaved)⟩

/--
Where a text stands in the way of the folder of the file, the failures of saving are
reported beside that of the server. Where keys were edited by hand, which saves nothing, the
file is only now brought up to date.
-/
theorem toggle_failed_saving :
    let blocked := beforeToggle ⟨[(["x"], .text "")]⟩ .empty
    let behind := beforeToggle .empty (.ofList [⟨"z", none, none⟩])
    (∀ s, s = blocked ∨ s = behind → s.outline.Reachable ∧ s.outline.outbox = [] ∧
      (∃ n ∈ s.outline.nodes, n.handle = 0 ∧ n.expansion = .collapsed ∧ n.key ∉ s.outline.openKeys ∧
        (s.server.answer (.children n.entityId n.resourceId) s.state).1 = .error (.notFound "b"))) ∧
    (blocked.toggle 0).1 = .ok (.collapsed, { failures :=
      [.notFound "b", .io "File exists (os error 17)", .io "File exists (os error 17)"] }) ∧
    behind.files.CanSave "x/keys.json" ∧
    (OpenKeys.load behind.files "x/keys.json").toOption = some .empty ∧
    (behind.toggle 0).1 = .ok (.collapsed, { failures := [.notFound "b"] }) ∧
    (OpenKeys.load (behind.toggle 0).2.files "x/keys.json").toOption =
      some (.ofList [⟨"z", none, none⟩]) := by
  intro blocked behind
  refine ⟨?_, by rfl, fun content => ⟨_, by rfl⟩, by decide +kernel, by rfl, by decide +kernel⟩
  rintro s (rfl | rfl)
  · exact ⟨⟨_, _, rfl⟩, rfl, _, List.mem_singleton.mpr rfl, rfl, rfl, by decide, rfl⟩
  · exact ⟨⟨_, _, rfl⟩, rfl, _, List.mem_singleton.mpr rfl, rfl, rfl, by decide, rfl⟩

end Session

end ContentConsole
