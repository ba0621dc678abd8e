import ContentConsole.Proofs.Url.Joining
import ContentConsole.Rest.Server

set_option autoImplicit false
set_option relaxedAutoImplicit false

/-!
Where the requests of the console go. Main statement: `sent_below_root_iff`, by which what is sent
about an entity goes to the entity's place below the root exactly if the entity's id is plain.
-/
namespace ContentConsole

open Http (Network Request Response)

def Http.Network.recording (reply : Request → Except String Response) : Network (List Request) :=
  ⟨fun r sent => (reply r, sent ++ [r])⟩

/-- The id that a call is about and the part of the entity that it asks
for; two calls ask for nothing. -/
def Call.target? : Call → Option (String × Option String)
  | .children id _ => some (id, some "children")
  | .delete id | .set id _ _ | .get id _ => some (id, none)
  | .records id facet _ => some (id, some facet.segment)
  | .upload _ | .confirm _ => none

namespace Call

/-- The URL is the place of what the call is about. -/
def OnTarget (root : Url) (call : Call) (u : Url) : Prop :=
  ∃ id part, call.target? = some (id, part) ∧ Url.OnTarget root id part u

/-- The call is about an id, and the id is plain. -/
def IsPlain (call : Call) : Prop := ∃ id part, call.target? = some (id, part) ∧ Url.IsPlain id part

theorem exists_target_iff {call : Call} {id : String} {part : Option String}
    (h : call.target? = some (id, part)) {P : String → Option String → Prop} :
    (∃ id part, call.target? = some (id, part) ∧ P id part) ↔ P id part := by
  constructor
  · rintro ⟨id', part', h', hP⟩
    cases h.symm.trans h'
    exact hP
  · exact fun hP => ⟨id, part, h, hP⟩

theorem isWord_target {call : Call} {id : String} {part : Option String}
    (h : call.target? = some (id, part)) : Url.IsWord part := by
  have hchildren : Url.IsWord (some "children") := by
    rintro _ ⟨⟩
    exact ⟨by decide, List.all_eq_true.mp (by decide)⟩
  have hfacet : ∀ facet : Facet, Url.IsWord (some facet.segment) := by
    rintro facet _ ⟨⟩
    cases facet
    all_goals exact ⟨by decide, List.all_eq_true.mp (by decide)⟩
  cases call with
  | children =>
    cases h
    exact hchildren
  | records _ facet =>
    cases h
    exact hfacet facet
  | delete | set | get =>
    cases h
    exact nofun
  | upload | confirm => cases h

end Call

namespace Url

def SamePlace (u v : Url) : Prop :=
  u.scheme = v.scheme ∧ u.authority.map Authority.host = v.authority.map Authority.host ∧
    u.authority.map Authority.port = v.authority.map Authority.port ∧ u.path = v.path

theorem SamePlace.onTarget_iff {root u v : Url} {id : String} {part : Option String}
    (h : u.SamePlace v) : OnTarget root id part u ↔ OnTarget root id part v := by
  obtain ⟨hscheme, hhost, hport, hpath⟩ := h
  constructor
  · rintro ⟨hscheme', hhost', hport', hpath'⟩
    exact ⟨hscheme ▸ hscheme', hhost ▸ hhost', hport ▸ hport', hpath ▸ hpath'⟩
  · rintro ⟨hscheme', hhost', hport', hpath'⟩
    exact ⟨hscheme.trans hscheme', hhost.trans hhost', hport.trans hport', hpath ▸ hpath'⟩

theorem samePlace_withoutUser (u : Url) : u.withoutUser.SamePlace u := by
  obtain ⟨scheme, authority, path, query, fragment⟩ := u
  cases authority <;> exact ⟨rfl, rfl, rfl, rfl⟩

theorem samePlace_addQuery (u : Url) (name value : String) :
    (u.addQuery name value).SamePlace u := by
  rw [addQuery]
  split <;> exact ⟨rfl, rfl, rfl, rfl⟩

theorem SamePlace.trans {u v w : Url} (h : u.SamePlace v) (h' : v.SamePlace w) : u.SamePlace w :=
  ⟨h.1.trans h'.1, h.2.1.trans h'.2.1, h.2.2.1.trans h'.2.2.1, h.2.2.2.trans h'.2.2.2⟩

end Url

namespace RestClient

/-- What is sent over the network to answer a call. -/
def sent (c : RestClient) (reply : Request → Except String Response) (agrees : Bool)
    (call : Call) : List Request :=
  (c.answer (.recording reply) agrees call []).2

variable {c : RestClient} {reply : Request → Except String Response} {agrees : Bool}

theorem isRoot_of_ofSettings {settings : ServerSettings} (hc : ofSettings settings = .ok c)
    (hserved : Http.isServed c.root.scheme = true) : c.root.IsRoot := by
  rw [ofSettings] at hc
  split at hc
  · cases hc
  · rename_i root hread
    cases hc
    have hscheme : root.withSlash.scheme = root.scheme := by
      rw [Url.withSlash]
      split <;> split <;> rfl
    have hnamed : root.scheme = "http" ∨ root.scheme = "https" := by
      simpa [Http.isServed, hscheme] using hserved
    have hspecial : Url.isSpecialScheme root.scheme = true := by
      rcases hnamed with heq | heq <;> rw [heq] <;> decide
    have hfile : root.scheme ≠ "file" := by
      rcases hnamed with heq | heq <;> rw [heq] <;> decide
    obtain ⟨parts, hpath⟩ := Url.exists_segments_of_read hread hspecial hfile
    exact Url.isRoot_withSlash hspecial hfile hpath

theorem request_of_mem {α : Type} {request : Except Fault Request}
    {read : Url → Response → Except Fault α} {r : Request}
    (hr : r ∈ (perform (.recording reply) request read []).2) : request = .ok r := by
  cases request with
  | error e => cases hr
  | ok r' =>
    have hperform : (perform (.recording reply) (.ok r') read []).2 =
        ((Network.recording reply).exchange r' []).2 := by
      rw [perform]
      split <;> rename_i heq <;> rw [heq]
    rw [hperform, Network.exchange] at hr
    have hsent : r ∈ [r'] := by
      split at hr
      · cases hr
      · split at hr
        · cases hr
        · split at hr
          · cases hr
          · split at hr
            all_goals
              rename_i heq
              rwa [← congrArg Prod.snd heq] at hr
    rw [List.mem_singleton.mp hsent]

theorem exists_join_of_urlOf {id : String} {part : Option String} {request : Url → Request}
    {r : Request} (hrequest : (c.urlOf id part).map request = .ok r)
    (hplace : ∀ u, (request u).url.SamePlace u) :
    ∃ s u, s.toList = id.toList ++ Url.tailOf part ∧ c.root.join s = .ok u ∧ r.url.SamePlace u := by
  have hjoined : ∀ (s : String) (fault : Url.ReadError → Fault),
      ((c.root.join s).mapError fault).map request = .ok r → ∃ u, c.root.join s = .ok u ∧
        r.url.SamePlace u := by
    intro s fault hmap
    cases hjoin : c.root.join s with
    | error e =>
      rw [hjoin] at hmap
      cases hmap
    | ok u =>
      rw [hjoin] at hmap
      cases hmap
      exact ⟨u, rfl, hplace u⟩
  unfold urlOf at hrequest
  cases part with
  | none =>
    obtain ⟨u, hu⟩ := hjoined _ _ hrequest
    exact ⟨_, u, (List.append_nil _).symm, hu⟩
  | some name =>
    obtain ⟨u, hu⟩ := hjoined _ _ hrequest
    have htext : (id ++ "/" ++ name).toList = id.toList ++ '/' :: name.toList := by simp
    exact ⟨_, u, htext, hu⟩

theorem exists_join_of_sent {call : Call} {id : String} {part : Option String}
    (htarget : call.target? = some (id, part)) {r : Request} (hr : r ∈ c.sent reply agrees call) :
    ∃ s u, s.toList = id.toList ++ Url.tailOf part ∧ c.root.join s = .ok u ∧ r.url.SamePlace u := by
  rw [sent] at hr
  cases call with
  | children _ resourceId =>
    cases htarget
    refine exists_join_of_urlOf (request_of_mem hr) fun u => ?_
    cases resourceId with
    | none => exact u.samePlace_withoutUser
    | some resource => exact (Url.samePlace_withoutUser _).trans (u.samePlace_addQuery _ _)
  | records =>
    cases htarget
    exact exists_join_of_urlOf (request_of_mem hr) fun u =>
      (Url.samePlace_withoutUser _).trans (u.samePlace_addQuery _ _)
  | delete | set | get =>
    cases htarget
    exact exists_join_of_urlOf (request_of_mem hr) Url.samePlace_withoutUser
  | upload | confirm => cases htarget

theorem sent_eq_nil {call : Call} (htarget : call.target? = none) :
    c.sent reply agrees call = [] := by
  cases call with
  | upload | confirm => rfl
  | children | delete | set | get | records => cases htarget

/--
For every root with a scheme that is served and for every call: all that is sent goes to the scheme,
the host and the port of the root, and to the root's path with the encoded id and the part's name
behind it, exactly if nothing is sent or the id is plain.
-/
theorem sent_below_root_iff {settings : ServerSettings} (hc : ofSettings settings = .ok c)
    (hserved : Http.isServed c.root.scheme = true) (reply : Request → Except String Response)
    (agrees : Bool) (call : Call) :
    (∀ r ∈ c.sent reply agrees call, call.OnTarget c.root r.url) ↔
      c.sent reply agrees call = [] ∨ call.IsPlain := by
  have hroot := isRoot_of_ofSettings hc hserved
  cases htarget : call.target? with
  | none =>
    have hnone : c.sent reply agrees call = [] := sent_eq_nil htarget
    rw [hnone]
    exact iff_of_true nofun (.inl rfl)
  | some target =>
    obtain ⟨id, part⟩ := target
    have hiff : ∀ r ∈ c.sent reply agrees call, call.OnTarget c.root r.url ↔ call.IsPlain := by
      intro r hr
      obtain ⟨s, u, hs, hjoin, hplace⟩ := exists_join_of_sent htarget hr
      rw [Call.OnTarget, Call.IsPlain, Call.exists_target_iff htarget,
        Call.exists_target_iff htarget, hplace.onTarget_iff]
      exact Url.onTarget_join_iff hroot (Call.isWord_target htarget) hs hjoin
    constructor
    · intro hall
      cases hsent : c.sent reply agrees call with
      | nil => exact .inl rfl
      | cons r rest =>
        have hr : r ∈ c.sent reply agrees call := hsent ▸ List.mem_cons_self ..
        exact .inr ((hiff r hr).mp (hall r hr))
    · rintro (hnone | hplain) r hr
      · rw [hnone] at hr
        cases hr
      · exact (hiff r hr).mpr hplain

/-! A root with the path `/r`, and a session. -/

def cmsSettings : ServerSettings := { rootUrl := "http://cms.test/r", sessionToken := some "tok" }

def cmsClient : RestClient where
  root :=
    { scheme := "http"
      authority := some { host := .name "cms.test" }
      path := .segments ["r", ""] }
  sessionHeader := "X-Session-Token"
  sessionToken := some "tok"

def noRecords (_ : Request) : Except String Response := .ok ⟨200, "\x7b\"result\": []\x7d"⟩

theorem ofSettings_cmsSettings : ofSettings cmsSettings = .ok cmsClient := by
  have hread : (ofSettings cmsSettings).toOption = some cmsClient := by decide +kernel
  cases hc : ofSettings cmsSettings with
  | error e =>
    rw [hc] at hread
    cases hread
  | ok c =>
    rw [hc] at hread
    exact congrArg Except.ok (Option.some.inj hread)

theorem sent_below_root_n1 :
    (cmsClient.sent noRecords true (.children "n é" (some "r9"))).map (fun r => r.url.text) =
        ["http://cms.test/r/n%20%C3%A9/children?resourceId=r9"] ∧
      ∀ r ∈ cmsClient.sent noRecords true (.children "n é" (some "r9")),
        (Call.children "n é" (some "r9")).OnTarget cmsClient.root r.url := by
  have hchars : "n é".toList = ['n', ' ', 'é'] := rfl
  have hplain : Url.IsPlain "n é" (some "children") := {
    unmarked := by simp [hchars]
    starts := by simp [hchars]
    ends := nofun
    no_scheme := by decide
    no_dots := by decide
    named := by decide }
  refine ⟨by decide +kernel, ?_⟩
  exact (sent_below_root_iff ofSettings_cmsSettings (by decide) noRecords true _).mpr
    (.inr ⟨_, _, rfl, hplain⟩)

/-- An id with slashes in front takes the request, and the session, to another host. -/
theorem set_leaves_host :
    ofSettings cmsSettings = .ok cmsClient ∧ Http.isServed cmsClient.root.scheme = true ∧
      (cmsClient.sent noRecords true (.set "//other.test/x" "k" (.str "v"))).map
          (fun r => (r.url.text, r.headers.head?)) =
        [("http://other.test/x", some ("x-session-token", "tok"))] ∧
      ¬∀ r ∈ cmsClient.sent noRecords true (.set "//other.test/x" "k" (.str "v")),
        (Call.set "//other.test/x" "k" (.str "v")).OnTarget cmsClient.root r.url := by
  refine ⟨ofSettings_cmsSettings, by decide, by decide +kernel, fun hall => ?_⟩
  obtain ⟨r, hr, hhost⟩ :
      ∃ r ∈ cmsClient.sent noRecords true (.set "//other.test/x" "k" (.str "v")),
      r.url.authority.map Url.Authority.host = some (.name "other.test") := by decide +kernel
  obtain ⟨_, _, -, htarget⟩ := hall r hr
  have helsewhere : some (.name "other.test") ≠
      cmsClient.root.authority.map Url.Authority.host := by
    decide
  exact helsewhere (hhost.symm.trans htarget.host)

end RestClient

end ContentConsole
