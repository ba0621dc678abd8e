import ContentConsole.Proofs.Outline.Queue
import ContentConsole.Proofs.Outline.TreeForm
import ContentConsole.Proofs.Session.Reach
import ContentConsole.Proofs.Session.Regrowth

set_option autoImplicit false
set_option relaxedAutoImplicit false

/-!
Drawing a graph that is laid out as a tree. Main statement: `drawTree_whole_iff`, by which the tree
is drawn whole below the first node that shows its root, and so stands below the new node exactly if
no earlier node shows the root in its resource, or there is nothing to draw below it.
-/
namespace ContentConsole

namespace Session

variable {σ : Type} {s : Session σ} {root : Entity}

theorem apply_uploads (huploads : s.UploadsSucceed) {effects : List Effect}
    (hfetch : effects.filterMap Effect.fetch? = []) :
    (s.apply effects).2.outline = s.outline.settleAll (effects.filterMap Effect.upload?) := by
  have hset := asked_applyProperties effects (s := s)
  have hupload := applyUploads_ok (hset.uploadsSucceed huploads) effects
  have hfetched (s' : Session σ) : (s'.applyFetches effects).2 = s' := by
    rw [applyFetches, hfetch]
    rfl
  have heq : (s.apply effects).2 = ((s.applyProperties effects).2.applyUploads effects).2 := by
    change (((s.applyProperties effects).2.applyUploads effects).2.applyFetches effects).2 = _
    rw [hfetched]
  rw [heq, hupload.outline, hset.outline]

theorem drain_uploads (huploads : s.UploadsSucceed)
    (hfetch : s.outline.outbox.filterMap Effect.fetch? = []) (rounds : Nat) :
    (s.drain (rounds + 1)).2.outline =
      s.outline.takeEffects.2.settleAll (s.outline.outbox.filterMap Effect.upload?) := by
  rw [drain]
  split
  · rename_i outline htake
    obtain ⟨hempty, rfl⟩ := Prod.mk.inj htake
    rw [hempty]
    rfl
  · rename_i effects outline _ htake
    obtain ⟨rfl, rfl⟩ := Prod.mk.inj htake
    have hround :=
      apply_uploads (s := { s with outline := s.outline.takeEffects.2 }) huploads hfetch
    have hempty :
        (apply { s with outline := s.outline.takeEffects.2 } s.outline.outbox).2.outline.outbox =
        [] := by
      rw [hround, Outline.settleAll_outbox]
      rfl
    have hlast := drain_snd_of_outbox_eq_nil hempty rounds
    exact (congrArg Session.outline hlast).trans hround

theorem runEffects_uploads (huploads : s.UploadsSucceed)
    (hfetch : s.outline.outbox.filterMap Effect.fetch? = []) : s.runEffects.2.outline =
      s.outline.takeEffects.2.settleAll (s.outline.outbox.filterMap Effect.upload?) := by
  have hdrain : (s.drain maxRounds).2.outline = _ := drain_uploads huploads hfetch 63
  rw [runEffects]
  dsimp only
  split
  · exact hdrain
  · rw [persisted_snd, persist_outline]
    exact hdrain

theorem drawTree_eq (ha : s.outline.Arena) (hroot : root.hasMembers = false) :
    (s.drawTree root).1.handle = s.outline.nextHandle ∧ (s.drawTree root).2.2 =
      ({ s with outline := (s.outline.withRoot root).drawTree root root.ownResource } :
        Session σ).runEffects.2 := by
  obtain ⟨n, hnode, hresource, -⟩ := ha.exists_node_withRoot hroot
  have hdrawn : (s.outline.draw root none none false false).1.handle = s.outline.nextHandle :=
    Outline.drawAt_handle _ root
  rw [drawTree, hroot, Bool.false_and]
  refine ⟨hdrawn, ?_⟩
  have hfound : ((s.outline.draw root none none false false).2.node?
      (s.outline.draw root none none false false).1.handle).bind Node.resourceId =
        root.ownResource := by
    rw [hdrawn]
    change ((s.outline.withRoot root).node? _).bind _ = _
    rw [hnode, ← hresource]
    rfl
  dsimp only
  rw [hfound]
  rfl

theorem exists_drawTree (ha : s.outline.Arena) (hroot : root.IsTreeForm)
    (hpending : ∀ e ∈ s.outline.outbox, e.node? = none) (huploads : s.UploadsSucceed) : ∃ p staged,
      (s.outline.withRoot root).IsHost root.id root.ownResource p ∧
      (∀ w ∈ staged, w.1 = s.outline.nextHandle) ∧
        (s.drawTree root).2.2.outline =
          (s.outline.withTree root p).takeEffects.2.settleAll staged := by
  obtain ⟨n, asked, -, houtbox, -, -, -, -, hasked⟩ := ha.exists_withRoot hroot.hasMembers
  obtain ⟨p, hhost, hdrawn⟩ := ha.exists_host hroot.hasMembers
  have hplan : s.outline.withTree root p =
      (s.outline.withRoot root).layout (Outline.treePlace p root) (.ofTrees root.children) :=
    (ha.withRoot root).drawPlan_below rfl rfl hhost.isLive _
  have hsame : (s.outline.withTree root p).outbox = s.outline.outbox ++ asked := by
    rw [hplan, Outline.layout, Plan.effects_eq_nil rfl (Plan.uploaded_ofTrees root.children),
      List.append_nil, houtbox]
  have heach : ∀ e ∈ s.outline.outbox ++ asked, e.node? = none ∨
      e = .upload s.outline.nextHandle root := by
    intro e he
    exact (List.mem_append.mp he).imp (hpending e) (hasked e)
  have hfetch : (s.outline.outbox ++ asked).filterMap Effect.fetch? = [] := by
    refine List.filterMap_eq_nil_iff.mpr fun e he => ?_
    rcases heach e he with hnone | rfl
    · cases e with
      | fetchChildren => cases hnone
      | upload | setProperty | reloadPreviews => rfl
    · rfl
  refine ⟨p, (s.outline.outbox ++ asked).filterMap Effect.upload?, hhost, fun w hw => ?_, ?_⟩
  · obtain ⟨e, he, hupload⟩ := List.mem_filterMap.mp hw
    rcases heach e he with hnone | rfl
    · cases e with
      | upload => cases hnone
      | fetchChildren | setProperty | reloadPreviews => cases hupload
    · cases hupload
      rfl
  · rw [(drawTree_eq ha hroot.hasMembers).2, hdrawn, ← hsame]
    rw [← hsame] at hfetch
    exact runEffects_uploads (s := { s with outline := s.outline.withTree root p }) huploads hfetch

/-- To look at, the outline behind a drawing of a tree is the one with the tree drawn below `p`. -/
structure DrawnBelow (s : Session σ) (root : Entity) (p : Handle) (o' : Outline) : Prop where
  isHost : (s.outline.withRoot root).IsHost root.id root.ownResource p
  arena : o'.Arena
  shown : ∀ x, (s.outline.withTree root p).isLive x = true →
    o'.shown x = (s.outline.withTree root p).shown x
  mem : ∀ n ∈ (s.outline.withTree root p).nodes, n.handle ≠ s.outline.nextHandle → n ∈ o'.nodes

theorem exists_drawnBelow (ha : s.outline.Arena) (hroot : root.IsTreeForm)
    (hpending : ∀ e ∈ s.outline.outbox, e.node? = none) (huploads : s.UploadsSucceed) :
    ∃ p, s.DrawnBelow root p (s.drawTree root).2.2.outline := by
  obtain ⟨p, staged, hhost, hstaged, houtline⟩ := exists_drawTree ha hroot hpending huploads
  have htaken : (s.outline.withTree root p).takeEffects.2.Arena :=
    { ha.withTree root p with outbox_live := nofun }
  have hnodes : (s.outline.withTree root p).takeEffects.2.nodes =
      (s.outline.withTree root p).nodes :=
    rfl
  rw [houtline]
  refine ⟨p, hhost, htaken.settleAll staged, fun x hx => ?_, fun n hn hne => ?_⟩
  · rw [htaken.shown_settleAll staged hx, Outline.shown_of_nodes_eq hnodes]
  · refine Outline.mem_settleAll (hnodes ▸ hn) fun w hw => ?_
    rw [hstaged w hw]
    exact hne

namespace DrawnBelow

variable {p : Handle} {o' : Outline}

theorem shown_host (hd : s.DrawnBelow root p o') (ha : s.outline.Arena) (hroot : root.IsTreeForm) :
    o'.shown p = (s.outline.withRoot root).shown p ++ Entity.treesLines 1 root.children := by
  have hp := hd.isHost.isLive
  rw [hd.shown p (ha.isLive_withTree hp hp), ← Plan.lines_ofTrees 1 root.children fun e he =>
    hroot.child he]
  exact (ha.withRoot root).shown_drawPlan rfl rfl rfl hp _

theorem mem_of_ne (hd : s.DrawnBelow root p o') (ha : s.outline.Arena)
    (hroot : root.hasMembers = false) {n : Node} (hn : n ∈ s.outline.nodes) (hne : n.handle ≠ p) :
    n ∈ o'.nodes := by
  have hmem : n ∈ (s.outline.withTree root p).nodes :=
    (ha.withRoot root).mem_drawPlan_of_ne rfl rfl hd.isHost.isLive _ (ha.mem_withRoot hroot hn) hne
  exact hd.mem n hmem (Nat.ne_of_lt (ha.handle_lt n hn))

theorem place_of_forall_mem (hd : s.DrawnBelow root p o') (ha : s.outline.Arena)
    (hroot : root.IsTreeForm) (hall : ∀ n ∈ s.outline.nodes, n ∈ o'.nodes) : root.children = [] ∨
      ∀ n ∈ s.outline.nodes, n.entityId = root.id → n.resourceId ≠ root.ownResource := by
  rcases ha.host_cases hroot.hasMembers hd.isHost with ⟨-, hnone⟩ | ⟨n, hn, rfl, -⟩
  · exact .inr hnone
  · -- The earlier node would show the tree below it, though neither it nor anything
    -- below it changed.
    have hlive := Outline.isLive_of_mem hn
    have hwhole := hd.shown_host ha hroot
    rw [ha.shown_of_subset hd.arena hall hlive,
      ha.shown_of_subset (ha.withRoot root) (fun m hm => ha.mem_withRoot hroot.hasMembers hm) hlive,
      List.self_eq_append_right, Entity.treesLines_eq_nil_iff] at hwhole
    exact .inl hwhole

theorem whole_of_children_eq_nil (hd : s.DrawnBelow root p o') (ha : s.outline.Arena)
    (hroot : root.hasMembers = false) (hchildren : root.children = []) :
    o'.shown s.outline.nextHandle = root.treeLines 0 ∧ ∀ n ∈ s.outline.nodes, n ∈ o'.nodes := by
  have hgrown := Outline.withTree_of_children_eq_nil (o := s.outline) hchildren p
  obtain ⟨n, hnode, -⟩ := ha.exists_node_withRoot hroot
  have hlive : (s.outline.withTree root p).isLive s.outline.nextHandle = true := by
    rw [hgrown]
    exact Outline.isLive_of_node? hnode
  refine ⟨?_, fun m hm => hd.mem m ?_ (Nat.ne_of_lt (ha.handle_lt m hm))⟩
  · rw [hd.shown _ hlive, hgrown, ha.shown_withRoot hroot, Entity.treeLines_eq, hchildren]
    rfl
  · rw [hgrown]
    exact ha.mem_withRoot hroot hm

theorem whole_of_forall_ne (hd : s.DrawnBelow root p o') (ha : s.outline.Arena)
    (hroot : root.IsTreeForm)
    (hnone : ∀ n ∈ s.outline.nodes, n.entityId = root.id → n.resourceId ≠ root.ownResource) :
    o'.shown s.outline.nextHandle = root.treeLines 0 ∧ ∀ n ∈ s.outline.nodes, n ∈ o'.nodes := by
  rcases ha.host_cases hroot.hasMembers hd.isHost with ⟨rfl, -⟩ | ⟨n, hn, -, hid, hresource⟩
  · refine ⟨?_, fun n hn => hd.mem_of_ne ha hroot.hasMembers hn (Nat.ne_of_lt (ha.handle_lt n hn))⟩
    rw [hd.shown_host ha hroot, ha.shown_withRoot hroot.hasMembers, Entity.treeLines_eq]
    rfl
  · exact absurd hresource (hnone n hn hid)

end DrawnBelow

/--
The tree of a root is drawn whole, behind all that the first node that shows the root in its
resource has below it already; all other nodes are unchanged. So the new node shows the tree,
and no earlier node is changed, exactly if there is nothing to draw below it or no earlier node
shows the root in its resource.
-/
theorem drawTree_whole_iff (hs : s.outline.Reachable) (hroot : root.IsTreeForm)
    (hpending : ∀ e ∈ s.outline.outbox, e.node? = none) (huploads : s.UploadsSucceed) :
    let h := (s.drawTree root).1.handle
    let o' := (s.drawTree root).2.2.outline
    (∃ p, (s.outline.withRoot root).IsHost root.id root.ownResource p ∧
      o'.shown p = (s.outline.withRoot root).shown p ++ Entity.treesLines 1 root.children ∧
        ∀ n ∈ s.outline.nodes, n.handle ≠ p → n ∈ o'.nodes) ∧
      ((o'.shown h = root.treeLines 0 ∧ ∀ n ∈ s.outline.nodes, n ∈ o'.nodes) ↔
        root.children = [] ∨
          ∀ n ∈ s.outline.nodes, n.entityId = root.id → n.resourceId ≠ root.ownResource) := by
  intro h o'
  have ha := hs.arena
  obtain ⟨p, hd⟩ := exists_drawnBelow ha hroot hpending huploads
  have hhandle : h = s.outline.nextHandle := (drawTree_eq ha hroot.hasMembers).1
  refine ⟨⟨p, hd.isHost, hd.shown_host ha hroot,
    fun n hn hne => hd.mem_of_ne ha hroot.hasMembers hn hne⟩, ?_⟩
  rw [hhandle]
  constructor
  · rintro ⟨-, hall⟩
    exact hd.place_of_forall_mem ha hroot hall
  · rintro (hchildren | hnone)
    · exact hd.whole_of_children_eq_nil ha hroot.hasMembers hchildren
    · exact hd.whole_of_forall_ne ha hroot hnone

/-! Two roots with a part in common. -/

def page : Entity := ⟨"p", "", none, .content, [⟨"c", "", none, .content, []⟩]⟩

def partOfPage : Entity := ⟨"c", "", none, .content, [⟨"x", "", none, .content, []⟩]⟩

theorem isTreeForm_content {id childId : String} :
    Entity.IsTreeForm ⟨id, "", none, .content, [⟨childId, "", none, .content, []⟩]⟩ := by
  refine Entity.isTreeForm_iff.mpr ⟨rfl, fun child hchild => ?_⟩
  obtain rfl := List.mem_singleton.mp hchild
  exact Entity.isTreeForm_iff.mpr ⟨rfl, fun child hchild => absurd hchild List.not_mem_nil⟩

theorem reachable_givenBy (kids : String → Option String → List Entity)
    (actions : List UserAction) : (givenBy kids actions).outline.Reachable :=
  reachable_run { server := giving kids, state := () } .empty actions

theorem drawTree_whole_page :
    let s := givenBy childless [.drawTree partOfPage]
    let o' := (s.drawTree page).2.2.outline
    s.outline.shown 0 = partOfPage.treeLines 0 ∧
      o'.shown (s.drawTree page).1.handle = page.treeLines 0 ∧
      ∀ n ∈ s.outline.nodes, n ∈ o'.nodes := by
  intro s o'
  obtain ⟨-, hiff⟩ := drawTree_whole_iff (s := s) (reachable_givenBy _ _)
    (isTreeForm_content : page.IsTreeForm) (by decide +kernel) (.inr fun _ _ => rfl)
  exact ⟨by decide +kernel, hiff.mpr (.inr (by decide +kernel))⟩

/-- Behind the page, its part is drawn below the content of the page. -/
theorem drawTree_elsewhere :
    let s := givenBy childless [.drawTree page]
    let o' := (s.drawTree partOfPage).2.2.outline
    s.outline.Reachable ∧ partOfPage.IsTreeForm ∧ s.outline.outbox = [] ∧ s.UploadsSucceed ∧
      (s.drawTree partOfPage).1.handle = 2 ∧
        partOfPage.treeLines 0 = [(0, "c", "Content", .leaf), (1, "x", "Content", .leaf)] ∧
          o'.shown 2 = [(0, "c", "Content", .leaf)] ∧
            o'.shown 0 =
              [(0, "p", "Content", .leaf), (1, "c", "Content", .leaf), (2, "x", "Content", .leaf)] ∧
              ¬∀ n ∈ s.outline.nodes, n ∈ o'.nodes := by
  intro s o'
  exact ⟨reachable_givenBy _ _, isTreeForm_content, List.isEmpty_iff.mp (by decide +kernel),
    .inr fun _ _ => rfl,
    by decide +kernel, by decide +kernel, by decide +kernel, by decide +kernel, by decide +kernel⟩

end Session

end ContentConsole
