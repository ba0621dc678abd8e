import ContentConsole.Proofs.Outline.BranchDrawing
import ContentConsole.Proofs.Outline.Removal
import ContentConsole.Proofs.Session.UserAction

set_option autoImplicit false
set_option relaxedAutoImplicit false

/-!
Uploads settled one after the other. A node that is committed and a node that is removed do not
touch each other's subtrees, so removals and commits change places, and those that are left are
all removals first and then all commits. Main statement: `settleUploads_exact`, by which each
entry ends by its own outcome, whatever stands before it, and what is left is told by the
entries and outcomes in any order.
-/
namespace ContentConsole

namespace Outline

variable {o : Outline}

theorem restrict_update {f : Node → Node} (hf : KeepsPlace f) {keep : Handle → Bool}
    (htrim : ∀ n, (f n).trim keep = f (n.trim keep)) (h : Handle) :
    (o.update h f).restrict keep = (o.restrict keep).update h f := by
  have hkept : ∀ n : Node, keep (if n.handle = h then f n else n).handle = keep n.handle := by
    intro n
    split
    · rw [(hf n).1]
    · rfl
  have hmarked : ∀ n : Node, (if n.handle = h then f n else n).trim keep =
      if (n.trim keep).handle = h then f (n.trim keep) else n.trim keep := by
    intro n
    rw [Node.trim_handle]
    split
    · exact htrim n
    · rfl
  rw [restrict, restrict, update, update]
  simp only [List.filter_map, List.map_map, Function.comp_def, hkept, hmarked]

namespace Arena

theorem prune_update (ha : o.Arena) {f : Node → Node} (hf : KeepsPlace f)
    (htrim : ∀ (keep : Handle → Bool) n, (f n).trim keep = f (n.trim keep)) (h top : Handle) :
    (o.update h f).prune top = (o.prune top).update h f := by
  have ha' := ha.update hf h
  rw [ha'.prune_eq_restrict, ha.prune_eq_restrict, ← restrict_update hf (htrim _)]
  refine ha'.restrict_congr fun x hx => ?_
  rw [Bool.eq_iff_iff, ha'.outside_iff hx, ha.outside_iff (isLive_update hf h x ▸ hx),
    below_update hf]

theorem foldl_prune_update (ha : o.Arena) {f : Node → Node} (hf : KeepsPlace f)
    (htrim : ∀ (keep : Handle → Bool) n, (f n).trim keep = f (n.trim keep)) (h : Handle)
    (tops : List Handle) :
    tops.foldl Outline.prune (o.update h f) = (tops.foldl Outline.prune o).update h f := by
  induction tops generalizing o with
  | nil => rfl
  | cons top tops ih =>
    rw [List.foldl_cons, ha.prune_update hf htrim, ih (ha.prune top)]
    rfl

theorem foldl_prune_congr (ha : o.Arena) {tops tops' : List Handle}
    (hlive : ∀ h ∈ tops, o.isLive h = true) (hsame : ∀ h, h ∈ tops' ↔ h ∈ tops) :
    tops'.foldl Outline.prune o = tops.foldl Outline.prune o := by
  obtain ⟨stays, hstays, hfold⟩ := ha.foldl_prune_eq_restrict hlive
  obtain ⟨stays', hstays', hfold'⟩ :=
    ha.foldl_prune_eq_restrict fun h hh => hlive h ((hsame h).mp hh)
  have hkept : stays' = stays := by
    funext x
    rw [Bool.eq_iff_iff, hstays, hstays']
    simp only [hsame]
  rw [hfold, hfold', hkept]

end Arena

def commitAll (o : Outline) (handles : List Handle) : Outline :=
  { o with nodes := o.nodes.map fun n => if n.handle ∈ handles then n.commit else n }

theorem commitAll_congr {handles handles' : List Handle} (h : ∀ x, x ∈ handles ↔ x ∈ handles') :
    o.commitAll handles = o.commitAll handles' := by
  simp only [commitAll, h]

theorem commitAll_nil (o : Outline) : o.commitAll [] = o := by
  simp [commitAll]

theorem commitAll_cons (o : Outline) (h : Handle) (handles : List Handle) :
    o.commitAll (h :: handles) = (o.update h Node.commit).commitAll handles := by
  have htwice : ∀ n : Node, (if n.handle ∈ h :: handles then n.commit else n) =
      let m := if n.handle = h then n.commit else n
      if m.handle ∈ handles then m.commit else m := by
    intro n
    by_cases hfirst : n.handle = h <;> by_cases hrest : n.handle ∈ handles <;>
      simp [hfirst, hrest, Node.commit]
  simp only [commitAll, update, List.map_map, htwice]
  rfl

end Outline

namespace Session

variable {σ : Type} {s : Session σ}

/-- What an upload is answered with: its own failure stays, any other is told as
one of uploading the entity. -/
def uploadResult (e : Entity) : Except Fault Unit → Except Fault Unit
  | .ok () => .ok ()
  | .error (.upload id reason) => .error (.upload id reason)
  | .error fault => .error (.upload e.id fault.message)

theorem mapError_ofUpload (e : Entity) (outcome : Except Fault Unit) :
    outcome.mapError (Fault.ofUpload e.id) = uploadResult e outcome := by
  rcases outcome with fault | _
  · cases fault <;> rfl
  · rfl

def stored (settled : List ((Handle × Entity) × Except Fault Unit)) : List Handle :=
  (settled.filter fun p => p.2.isOk).map fun p => p.1.1

def refused (settled : List ((Handle × Entity) × Except Fault Unit)) : List Handle :=
  (settled.filter fun p => !p.2.isOk).map fun p => p.1.1

theorem settleEach_eq (ha : s.outline.Arena)
    {settled : List ((Handle × Entity) × Except Fault Unit)}
    (hlive : ∀ p ∈ settled, s.outline.isLive p.1.1 = true)
    (hapart : settled.Pairwise fun p q => ¬s.outline.Below p.1.1 q.1.1) :
    s.settleEach settled = (settled.map fun p => uploadResult p.1.2 p.2,
      { s with
        outline :=
          ((refused settled).foldl Outline.prune s.outline).commitAll (stored settled) }) := by
  induction settled generalizing s with
  | nil =>
    change ([], s) = ([], { s with outline := s.outline.commitAll [] })
    rw [Outline.commitAll_nil]
  | cons first rest ih =>
    obtain ⟨⟨h, e⟩, outcome⟩ := first
    obtain ⟨hfirst, hrest⟩ := List.forall_mem_cons.mp hlive
    obtain ⟨hbefore, hlater⟩ := List.pairwise_cons.mp hapart
    rw [settleEach, mapError_ofUpload]
    cases outcome with
    | ok _ =>
      obtain ⟨n, hn⟩ := Outline.exists_node?_of_isLive hfirst
      have hok : s.outline.settleUpload h (uploadResult e (.ok ())) =
          (.ok (), s.outline.update h Node.commit) := by
        rw [← Outline.settleUpload_ok, uploadResult, Outline.settleUpload,
          Outline.get_eq_ok_iff.mpr hn]
      have hplace := Outline.keepsPlace_commit
      have hsettled :=
        ih (s := { s with outline := s.outline.update h Node.commit }) (ha.update hplace h)
        (fun p hp => (Outline.isLive_update hplace h p.1.1).trans (hrest p hp))
        (hlater.imp fun hpq hbelow => hpq ((Outline.below_update hplace h).mp hbelow))
      rw [ha.foldl_prune_update hplace fun _ _ => rfl, ← Outline.commitAll_cons] at hsettled
      rw [hok]
      dsimp only
      rw [hsettled]
      rfl
    | error fault =>
      obtain ⟨fault', hfault⟩ : ∃ fault', uploadResult e (.error fault) = .error fault' := by
        cases fault <;> exact ⟨_, rfl⟩
      have herror : s.outline.settleUpload h (uploadResult e (.error fault)) =
          (uploadResult e (.error fault), s.outline.prune h) := by
        rw [hfault]
        rfl
      have hsettled := ih (s := { s with outline := s.outline.prune h }) (ha.prune h)
        (fun p hp => by
          rw [ha.prune_eq_restrict, Outline.isLive_restrict, ha.outside_iff (hrest p hp)]
          exact ⟨hrest p hp, hbefore p hp⟩)
        (hlater.imp fun hpq hbelow => hpq (by
          rw [ha.prune_eq_restrict] at hbelow
          exact Outline.below_of_below_restrict hbelow))
      rw [herror]
      dsimp only
      rw [hsettled]
      rfl

/-- Neither of the nodes of two entries is the other or above it. -/
def Apart (o : Outline) (v w : Handle × Entity) : Prop := ¬o.Below v.1 w.1 ∧ ¬o.Below w.1 v.1

theorem Apart.symm {o : Outline} {v w : Handle × Entity} (h : Apart o v w) : Apart o w v :=
  ⟨h.2, h.1⟩

/-- Each staged entry with the outcome of its upload. -/
def settled (s : Session σ) (staged : List (Handle × Entity)) :
    List ((Handle × Entity) × Except Fault Unit) :=
  staged.zip (s.askAll upload staged).1

theorem map_fst_settled (s : Session σ) (staged : List (Handle × Entity)) :
    (s.settled staged).map Prod.fst = staged :=
  List.map_fst_zip (Nat.le_of_eq (asked_askAll asked_upload staged).2.symm)

theorem settleUploads_eq (ha : s.outline.Arena) {staged : List (Handle × Entity)}
    (hlive : ∀ w ∈ staged, s.outline.isLive w.1 = true)
    (hapart : staged.Pairwise (Apart s.outline)) :
    s.settleUploads staged = ((s.settled staged).map fun p => uploadResult p.1.2 p.2,
      { (s.askAll upload staged).2 with
        outline := ((refused (s.settled staged)).foldl Outline.prune s.outline).commitAll
          (stored (s.settled staged)) }) := by
  have hasked : (s.askAll upload staged).2.outline = s.outline :=
    (asked_askAll asked_upload staged).1.outline
  rw [← map_fst_settled s staged, List.pairwise_map] at hapart
  rw [← map_fst_settled s staged, List.forall_mem_map] at hlive
  rw [← hasked] at ha hlive hapart
  have hsettled := settleEach_eq ha hlive (hapart.imp fun hpq => hpq.1)
  rw [hasked] at hsettled
  exact hsettled

theorem zip_settleUploads (ha : s.outline.Arena) {staged : List (Handle × Entity)}
    (hlive : ∀ w ∈ staged, s.outline.isLive w.1 = true)
    (hapart : staged.Pairwise (Apart s.outline)) :
    staged.zip (s.settleUploads staged).1 = (s.settled staged).map fun p =>
      (p.1, uploadResult p.1.2 p.2) := by
  rw [settleUploads_eq ha hlive hapart]
  calc staged.zip ((s.settled staged).map fun p => uploadResult p.1.2 p.2)
      = ((s.settled staged).map Prod.fst).zip
        ((s.settled staged).map fun p => uploadResult p.1.2 p.2) := by
        rw [map_fst_settled]
    _ = (s.settled staged).map fun p => (p.1, uploadResult p.1.2 p.2) := List.zip_map' ..

theorem mem_of_mem_refused {s : Session σ} {staged : List (Handle × Entity)} {h : Handle}
    (hh : h ∈ refused (s.settled staged)) : ∃ w ∈ staged, w.1 = h := by
  obtain ⟨p, hp, rfl⟩ := List.mem_map.mp hh
  refine ⟨p.1, ?_, rfl⟩
  rw [← map_fst_settled s staged]
  exact List.mem_map_of_mem (List.mem_filter.mp hp).1

theorem not_below_of_mem_stored {staged : List (Handle × Entity)}
    (hapart : staged.Pairwise (Apart s.outline)) {h k : Handle}
    (hh : h ∈ refused (s.settled staged)) (hk : k ∈ stored (s.settled staged)) :
    ¬s.outline.Below h k := by
  rw [← map_fst_settled s staged, List.pairwise_map] at hapart
  obtain ⟨p, hp, rfl⟩ := List.mem_map.mp hh
  obtain ⟨q, hq, rfl⟩ := List.mem_map.mp hk
  obtain ⟨hp, hfailed⟩ := List.mem_filter.mp hp
  obtain ⟨hq, hok⟩ := List.mem_filter.mp hq
  have hne : p ≠ q := by
    rintro rfl
    rw [hok] at hfailed
    cases hfailed
  have hsymm : Std.Symm fun p q : (Handle × Entity) × Except Fault Unit =>
      Apart s.outline p.1 q.1 :=
    ⟨fun _ _ h => Apart.symm h⟩
  exact (hapart.forall hp hq hne).1

/--
Uploads are staged for nodes that are there, none of them above another. Each entry is answered by
its own outcome, in the order of the entries. The nodes whose uploads failed are gone with all
below them; the others are committed; of what is left nothing else changed but that no list names
what went. In another order, with the same outcome for each entry, each gets the same result, and
the outline comes out the same.
-/
theorem settleUploads_exact (hs : s.outline.Reachable) {staged : List (Handle × Entity)}
    (hlive : ∀ w ∈ staged, s.outline.isLive w.1 = true)
    (hapart : staged.Pairwise (Apart s.outline)) :
    let settled := s.settled staged
    settled.map Prod.fst = staged ∧
    (s.settleUploads staged).1 = settled.map (fun p => uploadResult p.1.2 p.2) ∧
    (∃ stays : Handle → Bool, (∀ x, stays x = true ↔ ∀ h ∈ refused settled, ¬s.outline.Below h x) ∧
      (∀ h ∈ stored settled, stays h = true) ∧
      (s.settleUploads staged).2 = { (s.askAll upload staged).2 with outline := { s.outline with
        nodes :=
          ((s.outline.nodes.filter fun n => stays n.handle).map (Node.trim stays)).map fun n =>
            if n.handle ∈ stored settled then n.commit else n
        roots := s.outline.roots.filter stays
        outbox := s.outline.outbox.filter fun e => e.node?.all stays
        selected := s.outline.selected.filter stays } }) ∧
    ∀ {σ' : Type} (s' : Session σ') (staged' : List (Handle × Entity)), s'.outline = s.outline →
      (s'.settled staged').Perm settled →
        (staged'.zip (s'.settleUploads staged').1).Perm (staged.zip (s.settleUploads staged).1) ∧
          (s'.settleUploads staged').2.outline = (s.settleUploads staged).2.outline := by
  intro settled
  have ha := hs.arena
  have hsettle := settleUploads_eq ha hlive hapart
  have hgone : ∀ h ∈ refused settled, s.outline.isLive h = true := by
    intro h hh
    obtain ⟨w, hw, rfl⟩ := mem_of_mem_refused hh
    exact hlive w hw
  obtain ⟨stays, hstays, hfold⟩ := ha.foldl_prune_eq_restrict hgone
  refine ⟨map_fst_settled s staged, congrArg Prod.fst hsettle,
    ⟨stays, hstays, fun k hk => ?_, ?_⟩, ?_⟩
  · exact (hstays k).mpr fun h hh => not_below_of_mem_stored hapart hh hk
  · rw [hsettle, hfold]
    rfl
  · intro σ' s' staged' houtline hperm
    have hstaged : staged'.Perm staged := by
      rw [← map_fst_settled s staged, ← map_fst_settled s' staged']
      exact hperm.map Prod.fst
    have ha' : s'.outline.Arena := houtline ▸ ha
    have hlive' : ∀ w ∈ staged', s'.outline.isLive w.1 = true := by
      rw [houtline]
      exact fun w hw => hlive w (hstaged.mem_iff.mp hw)
    have hapart' : staged'.Pairwise (Apart s'.outline) := by
      rw [houtline]
      exact (hstaged.pairwise_iff fun h => Apart.symm h).mpr hapart
    constructor
    · rw [zip_settleUploads ha hlive hapart, zip_settleUploads ha' hlive' hapart']
      exact hperm.map _
    · have hstored : ∀ x, x ∈ stored (s'.settled staged') ↔ x ∈ stored settled :=
        fun _ => ((hperm.filter _).map _).mem_iff
      have hrefused : ∀ x, x ∈ refused (s'.settled staged') ↔ x ∈ refused settled :=
        fun _ => ((hperm.filter _).map _).mem_iff
      have hpruned := ha.foldl_prune_congr hgone hrefused
      rw [settleUploads_eq ha' hlive' hapart', hsettle]
      change ((refused (s'.settled staged')).foldl Outline.prune s'.outline).commitAll _ =
        ((refused settled).foldl Outline.prune s.outline).commitAll _
      rw [houtline, hpruned]
      exact Outline.commitAll_congr hstored

def pickyServer : Server Unit where
  answer call state := (match call with
    | .upload e =>
      if e.id = "i" then .ok ()
      else .error (if e.id = "f" then .transport "down" else .upload "all" "full")
    | .children .. | .records .. => .ok []
    | .delete _ => .ok false
    | .set .. => .ok ()
    | .get .. => .ok .null
    | .confirm _ => false, state)

def stagedSession : Session Unit where
  server := pickyServer
  state := ()
  acceptsUploads := false
  outline := (Outline.start .empty).run
    [.draw ⟨"f", "", none, .folder [] [] [⟨"x", "", none, .file, []⟩], []⟩ none none true false,
      .draw ⟨"i", "", none, .image, []⟩ none none true false,
      .draw ⟨"k", "", none, .image, []⟩ none none true false]

def stagedUploads : List (Handle × Entity) :=
  [(2, ⟨"i", "", none, .image, []⟩), (0, ⟨"f", "", none, .emptyFolder, []⟩),
    (3, ⟨"k", "", none, .image, []⟩)]

theorem settleUploads_exact_staged :
    stagedSession.outline.Reachable ∧ stagedSession.outline.nodes.map Node.handle = [0, 1, 2, 3] ∧
      (stagedSession.settleUploads stagedUploads).1 =
        [.ok (), .error (.upload "f" "Transport error: down"), .error (.upload "all" "full")] ∧
      (stagedSession.settleUploads stagedUploads).2.outline.nodes.map
        (fun n => (n.handle, n.upload)) =
        [(2, .committed)] ∧
      (stagedUploads.reverse.zip (stagedSession.settleUploads stagedUploads.reverse).1).Perm
        (stagedUploads.zip (stagedSession.settleUploads stagedUploads).1) ∧
      (stagedSession.settleUploads stagedUploads.reverse).2.outline =
        (stagedSession.settleUploads stagedUploads).2.outline := by
  have hs : stagedSession.outline.Reachable := ⟨_, _, rfl⟩
  have hlive : ∀ w ∈ stagedUploads, stagedSession.outline.isLive w.1 = true := by decide
  have hroots : ∀ w ∈ stagedUploads, w.1 ∈ stagedSession.outline.roots := by decide
  have hdistinct : stagedUploads.Pairwise fun v w => v.1 ≠ w.1 := by decide
  have hapart : stagedUploads.Pairwise (Apart stagedSession.outline) := by
    refine hdistinct.imp_of_mem fun {v w} hv hw hne => ⟨fun hbelow => hne ?_, fun hbelow => hne ?_⟩
    · exact hs.arena.eq_of_below_root (hroots w hw) hbelow
    · exact (hs.arena.eq_of_below_root (hroots v hv) hbelow).symm
  obtain ⟨-, hresults, -, horder⟩ := settleUploads_exact hs hlive hapart
  have hreversed : stagedSession.settled stagedUploads.reverse =
      (stagedSession.settled stagedUploads).reverse := by
    rfl
  obtain ⟨hperm, hsame⟩ :=
    horder stagedSession stagedUploads.reverse rfl (hreversed ▸ List.reverse_perm _)
  exact ⟨hs, by decide, hresults, by decide, hperm, hsame⟩

end Session

end ContentConsole
