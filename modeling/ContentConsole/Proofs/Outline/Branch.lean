import ContentConsole.Proofs.Outline.Drawing
import Mathlib.Data.List.Find

set_option autoImplicit false
set_option relaxedAutoImplicit false

/-!
A branch of an outline: a node with all that is newer than some handle, seen as an outline
of its own in which the node is the first root. Main statements: `Branch.displace`,
`Branch.insert`, `Branch.update` and `Branch.push`, by which what is done inside a branch
can be done on the branch alone.
-/
namespace ContentConsole

namespace Outline

def Inside (h next x : Handle) : Prop := x = h ∨ next ≤ x

instance (h next x : Handle) : Decidable (Inside h next x) :=
  inferInstanceAs (Decidable (x = h ∨ next ≤ x))

def isInside (h next x : Handle) : Bool := decide (Inside h next x)

@[simp] theorem isInside_iff {h next x : Handle} : isInside h next x = true ↔ Inside h next x :=
  decide_eq_true_iff

/-- A handle inside a branch, in the numbering of the branch: the top
first, then all that is new. -/
def moved (h next x : Handle) : Handle := if x = h then 0 else x - next + 1

section

variable {h next x y : Handle}

@[simp] theorem moved_self : moved h next h = 0 := if_pos rfl

theorem moved_of_le (hlt : h < next) (hx : next ≤ x) : moved h next x = x - next + 1 :=
  if_neg (Nat.ne_of_gt (Nat.lt_of_lt_of_le hlt hx))

theorem moved_inj (hlt : h < next) (hx : Inside h next x) (hy : Inside h next y) :
    moved h next x = moved h next y ↔ x = y := by
  refine ⟨fun hmoved => ?_, congrArg _⟩
  rcases hx with rfl | hx <;> rcases hy with rfl | hy
  · rfl
  · rw [moved_self, moved_of_le hlt hy] at hmoved
    exact absurd hmoved (Nat.zero_ne_add_one _)
  · rw [moved_self, moved_of_le hlt hx] at hmoved
    exact absurd hmoved (Nat.succ_ne_zero _)
  · rw [moved_of_le hlt hx, moved_of_le hlt hy] at hmoved
    rw [← Nat.sub_add_cancel hx, ← Nat.sub_add_cancel hy, Nat.succ.inj hmoved]

end

end Outline

namespace Node

open Outline (moved)

def bare (n : Node) : Node :=
  { n with
    handle := 0
    parent := none
    children := []
    isDeletable := false
    expansion := .collapsed
    name := .label ""
    upload := .committed
    ignoresClicks := false
    showsButtons := true }

def moved (h next : Handle) (n : Node) : Node :=
  if n.handle = h then
    { n.bare with expansion := n.expansion, children := n.children.map (Outline.moved h next) }
  else
    { n with
      handle := Outline.moved h next n.handle
      parent := n.parent.map (Outline.moved h next)
      children := n.children.map (Outline.moved h next) }

variable {h next : Handle} (n : Node)

@[simp] theorem moved_handle : (n.moved h next).handle = Outline.moved h next n.handle := by
  unfold moved
  split <;> simp [bare, *]

@[simp] theorem moved_children :
    (n.moved h next).children = n.children.map (Outline.moved h next) := by
  unfold moved
  split <;> rfl

@[simp] theorem moved_key : (n.moved h next).key = n.key := by
  unfold moved
  split <;> rfl

@[simp] theorem moved_expansion : (n.moved h next).expansion = n.expansion := by
  unfold moved
  split <;> rfl

@[simp] theorem moved_entityId : (n.moved h next).entityId = n.entityId := by
  unfold moved
  split <;> rfl

@[simp] theorem moved_resourceId : (n.moved h next).resourceId = n.resourceId := by
  unfold moved
  split <;> rfl

@[simp] theorem moved_typeName : (n.moved h next).typeName = n.typeName := by
  unfold moved
  split <;> rfl

theorem key_eq_of_bare {m n : Node} (hbare : m.bare = n.bare) : m.key = n.key :=
  show m.bare.key = n.bare.key from congrArg key hbare

theorem moved_parent : (n.moved h next).parent =
    if n.handle = h then none else n.parent.map (Outline.moved h next) := by
  unfold moved
  split <;> rfl

theorem moved_trim {keep keep' : Handle → Bool}
    (hkeep : ∀ c ∈ n.children, keep' (Outline.moved h next c) = keep c) :
    (n.trim keep).moved h next = (n.moved h next).trim keep' := by
  have hchildren : (n.children.filter keep).map (Outline.moved h next) =
      (n.children.map (Outline.moved h next)).filter keep' := by
    rw [List.filter_map]
    exact congrArg _ (List.filter_congr fun c hc => (hkeep c hc).symm)
  unfold moved trim
  split <;> simp [hchildren, bare]

end Node

theorem Node.moved_adopt (n : Node) {h next child : Handle} {parent : Option Handle}
    (hlt : h < next) (hn : Outline.Inside h next n.handle)
    (hparent : ∀ q, parent = some q → Outline.Inside h next q) :
    (n.adopt parent child).moved h next =
      (n.moved h next).adopt (parent.map (Outline.moved h next)) (Outline.moved h next child) := by
  have hsame : some n.handle = parent ↔
      some (n.moved h next).handle = parent.map (Outline.moved h next) := by
    rw [n.moved_handle]
    cases parent with
    | none => simp
    | some q => simp [Outline.moved_inj hlt hn (hparent q rfl)]
  unfold adopt
  by_cases hadopts : some n.handle = parent
  · rw [if_pos hadopts, if_pos (hsame.mp hadopts)]
    unfold moved
    split <;> simp [bare]
  · rw [if_neg hadopts, if_neg (mt hsame.mpr hadopts)]

def Effect.moved (h next : Handle) : Effect → Effect
  | .fetchChildren node entityId resourceId =>
    .fetchChildren (Outline.moved h next node) entityId resourceId
  | .upload node entity => .upload (Outline.moved h next node) entity
  | effect => effect

@[simp] theorem Effect.moved_node? (h next : Handle) (e : Effect) :
    (e.moved h next).node? = e.node?.map (Outline.moved h next) := by
  cases e <;> rfl

namespace Outline

/-- The node `h` with all that is not older than `next`, as an outline of its own. -/
def branch (o : Outline) (h next : Handle) : Outline where
  nodes := (o.nodes.filter fun n => isInside h next n.handle).map (Node.moved h next)
  roots := 0 :: (o.roots.filter fun r => decide (next ≤ r)).map (moved h next)
  nextHandle := o.nextHandle - next + 1
  openKeys := o.openKeys
  outbox := o.outbox.map (Effect.moved h next)

/--
The node `top` and all that is newer than `next` are a branch of their own: nothing new stands
elsewhere, the nodes whose keys are `grown` are the new ones, and the outbox asks for nothing else.
-/
structure Branch (o : Outline) (top : Node) (next : Handle) (grown : OpenKey → Prop) : Prop where
  arena : o.Arena
  /-- The branch alone is an arena as well. -/
  alone : (o.branch top.handle next).Arena
  top_lt : top.handle < next
  next_le : next ≤ o.nextHandle
  /-- The top stays the node that it was. -/
  exists_top : ∃ n ∈ o.nodes, n.handle = top.handle ∧ n.bare = top.bare
  grown_iff : ∀ n ∈ o.nodes, grown n.key ↔ next ≤ n.handle
  inside_iff : ∀ p c, o.IsChild p c → (Inside top.handle next p ↔ next ≤ c)
  outbox_inside : ∀ e ∈ o.outbox, ∀ x, e.node? = some x → Inside top.handle next x
  /-- What is asked for a node is asked for the entity that it shows. -/
  asked : ∀ x id resourceId, .fetchChildren x id resourceId ∈ o.outbox →
    ∀ n ∈ o.nodes, n.handle = x → n.entityId = id ∧ n.resourceId = resourceId

variable {o : Outline} {h next : Handle}

theorem mem_branch_nodes {m : Node} : m ∈ (o.branch h next).nodes ↔
    ∃ n ∈ o.nodes, Inside h next n.handle ∧ n.moved h next = m := by
  simp [branch, and_assoc]

theorem node?_branch (hlt : h < next) {x : Handle} (hx : Inside h next x) :
    (o.branch h next).node? (moved h next x) = (o.node? x).map (Node.moved h next) := by
  rw [node?, branch, List.find?_map, List.find?_filter, node?]
  congr 1
  refine List.find?_congr fun n _ => ?_
  rw [Bool.eq_iff_iff]
  simp only [Function.comp_apply, Node.moved_handle, decide_eq_true_iff, beq_iff_eq, isInside_iff]
  constructor
  · rintro ⟨hn, hmoved⟩
    exact (moved_inj hlt hn hx).mp hmoved
  · rintro rfl
    exact ⟨hx, rfl⟩

theorem isLive_branch (hlt : h < next) {x : Handle} (hx : Inside h next x) :
    (o.branch h next).isLive (moved h next x) = o.isLive x := by
  rw [isLive, node?_branch hlt hx, Option.isSome_map, isLive]

namespace Branch

variable {top : Node} {grown : OpenKey → Prop}

theorem isLive_top (hb : o.Branch top next grown) : o.isLive top.handle = true := by
  obtain ⟨n, hn, hhandle, -⟩ := hb.exists_top
  exact hhandle ▸ isLive_of_mem hn

theorem inside_of_isChild (hb : o.Branch top next grown) {p c : Handle} (hc : o.IsChild p c)
    (hnew : next ≤ c) : Inside top.handle next p :=
  (hb.inside_iff p c hc).mpr hnew

theorem inside_of_below (hb : o.Branch top next grown) {a b : Handle}
    (ha : Inside top.handle next a) (hab : o.Below a b) : Inside top.handle next b := by
  induction hab with
  | refl => exact ha
  | tail _ hc ih => exact .inr ((hb.inside_iff _ _ hc).mp ih)

theorem isChild_branch (hb : o.Branch top next grown) {p c : Handle} (hp : Inside top.handle next p)
    (hc : o.IsChild p c) :
    (o.branch top.handle next).IsChild (moved top.handle next p) (moved top.handle next c) := by
  obtain ⟨n, hn, rfl, hparent⟩ := hc
  have hnew : next ≤ n.handle := (hb.inside_iff _ _ ⟨n, hn, rfl, hparent⟩).mp hp
  refine ⟨n.moved top.handle next, mem_branch_nodes.mpr ⟨n, hn, .inr hnew, rfl⟩, n.moved_handle, ?_⟩
  rw [n.moved_parent, if_neg (Nat.ne_of_gt (Nat.lt_of_lt_of_le hb.top_lt hnew)), hparent]
  rfl

theorem exists_isChild (hb : o.Branch top next grown) {p : Handle} (hp : Inside top.handle next p)
    {c' : Handle} (hc : (o.branch top.handle next).IsChild (moved top.handle next p) c') :
    ∃ c, o.IsChild p c ∧ moved top.handle next c = c' := by
  obtain ⟨m, hm, rfl, hparent⟩ := hc
  obtain ⟨n, hn, hinside, rfl⟩ := mem_branch_nodes.mp hm
  rw [n.moved_parent] at hparent
  split at hparent
  · exact nomatch hparent
  · rename_i hne
    obtain ⟨q, hq, hmoved⟩ := Option.map_eq_some_iff.mp hparent
    have hchild : o.IsChild q n.handle := ⟨n, hn, rfl, hq⟩
    have hqp :=
      (moved_inj hb.top_lt (hb.inside_of_isChild hchild (hinside.resolve_left hne)) hp).mp hmoved
    exact ⟨n.handle, hqp ▸ hchild, n.moved_handle.symm⟩

theorem below_branch_iff (hb : o.Branch top next grown) {a b : Handle}
    (ha : Inside top.handle next a) (hinside : Inside top.handle next b) :
    (o.branch top.handle next).Below (moved top.handle next a) (moved top.handle next b) ↔
      o.Below a b := by
  constructor
  · intro hab
    suffices hsome : ∀ b', (o.branch top.handle next).Below (moved top.handle next a) b' →
        ∃ b, o.Below a b ∧ moved top.handle next b = b' by
      obtain ⟨c, hac, hmoved⟩ := hsome _ hab
      rwa [← (moved_inj hb.top_lt (hb.inside_of_below ha hac) hinside).mp hmoved]
    intro b' hab'
    induction hab' with
    | refl => exact ⟨a, .refl, rfl⟩
    | tail _ hc ih =>
      obtain ⟨p, hap, rfl⟩ := ih
      obtain ⟨c, hpc, rfl⟩ := hb.exists_isChild (hb.inside_of_below ha hap) hc
      exact ⟨c, hap.tail hpc, rfl⟩
  · intro hab
    clear hinside
    induction hab with
    | refl => exact .refl
    | tail hap hc ih => exact ih.tail (hb.isChild_branch (hb.inside_of_below ha hap) hc)

theorem find?_branch (hb : o.Branch top next grown) {key : OpenKey} (hkey : grown key) :
    (o.branch top.handle next).find? key = (o.find? key).map (moved top.handle next) := by
  rw [find?, branch, List.find?_map, List.find?_filter, find?, Option.map_map, Option.map_map]
  have hhandle : Node.handle ∘ Node.moved top.handle next =
      moved top.handle next ∘ Node.handle := by
    funext n
    exact n.moved_handle
  rw [hhandle]
  congr 1
  refine List.find?_congr fun n hn => ?_
  rw [Bool.eq_iff_iff]
  simp only [Function.comp_apply, Node.moved_key, decide_eq_true_iff, beq_iff_eq, isInside_iff]
  refine and_iff_right_of_imp fun hnkey => .inr ((hb.grown_iff n hn).mp ?_)
  rwa [hnkey]

/-! Removing what is inside. -/

section

variable {keep keep' : Handle → Bool}

theorem branch_restrict (hb : o.Branch top next grown)
    (hkeep : ∀ x, o.isLive x = true → Inside top.handle next x →
      keep' (moved top.handle next x) = keep x)
    (htop : keep top.handle = true) :
    (o.restrict keep).branch top.handle next = (o.branch top.handle next).restrict keep' := by
  have hnodes : ((((o.nodes.filter fun n => keep n.handle).map (Node.trim keep)).filter fun n =>
      isInside top.handle next n.handle).map (Node.moved top.handle next)) =
        ((((o.nodes.filter fun n => isInside top.handle next n.handle).map
          (Node.moved top.handle next)).filter fun n => keep' n.handle).map (Node.trim keep')) := by
    have hfilter : (o.nodes.filter fun n => isInside top.handle next n.handle && keep n.handle) =
        o.nodes.filter fun n => keep' (moved top.handle next n.handle) &&
          isInside top.handle next n.handle := by
      refine List.filter_congr fun n hn => ?_
      rw [Bool.and_comm]
      cases hinside : isInside top.handle next n.handle with
      | true => rw [hkeep n.handle (isLive_of_mem hn) (isInside_iff.mp hinside)]
      | false => rw [Bool.and_false, Bool.and_false]
    simp only [List.filter_map, List.map_map, List.filter_filter, Function.comp_def,
      Node.trim_handle, Node.moved_handle]
    rw [hfilter]
    refine List.map_congr_left fun n hn => n.moved_trim fun c hc => ?_
    obtain ⟨hmem, hinside⟩ := List.mem_filter.mp hn
    have hchild := (hb.arena.mem_children n hmem c).mp hc
    rw [Bool.and_eq_true, isInside_iff] at hinside
    exact hkeep c hchild.isLive (.inr ((hb.inside_iff _ _ hchild).mp hinside.2))
  have hroots : 0 ::
      (((o.roots.filter keep).filter fun r => decide (next ≤ r)).map (moved top.handle next)) =
      (0 :: ((o.roots.filter fun r => decide (next ≤ r)).map (moved top.handle next))).filter
        keep' := by
    have hzero : keep' 0 = true := by
      have hmoved := hkeep top.handle hb.isLive_top (.inl rfl)
      rwa [moved_self, htop] at hmoved
    rw [List.filter_cons_of_pos hzero, List.filter_map, List.filter_filter, List.filter_filter]
    congr 2
    refine List.filter_congr fun r hr => ?_
    obtain ⟨n, hn, rfl, -⟩ := (hb.arena.mem_roots r).mp hr
    rw [Bool.and_comm, Function.comp_apply]
    by_cases hnew : next ≤ n.handle
    · rw [hkeep n.handle (isLive_of_mem hn) (.inr hnew)]
    · simp [hnew]
  have houtbox : (o.outbox.filter fun e => e.node?.all keep).map (Effect.moved top.handle next) =
      (o.outbox.map (Effect.moved top.handle next)).filter fun e => e.node?.all keep' := by
    rw [List.filter_map]
    congr 1
    refine List.filter_congr fun e he => ?_
    rw [Function.comp_apply, Effect.moved_node?]
    cases hnode : e.node? with
    | none => rfl
    | some x =>
      exact (hkeep x (hb.arena.outbox_live e he x hnode) (hb.outbox_inside e he x hnode)).symm
  simp only [branch, Outline.restrict, hnodes, hroots, houtbox]
  rfl

theorem restrict (hb : o.Branch top next grown) (hkeep : o.KeepsParents keep)
    (htop : keep top.handle = true) (halone : ((o.restrict keep).branch top.handle next).Arena) :
    (o.restrict keep).Branch top next grown where
  arena := hb.arena.restrict hkeep
  alone := halone
  top_lt := hb.top_lt
  next_le := hb.next_le
  exists_top := by
    obtain ⟨n, hn, hhandle, hbare⟩ := hb.exists_top
    exact ⟨n.trim keep, mem_restrict_nodes.mpr ⟨n, hn, hhandle ▸ htop, rfl⟩, hhandle, hbare⟩
  grown_iff := by
    intro m hm
    obtain ⟨n, hn, -, rfl⟩ := mem_restrict_nodes.mp hm
    exact hb.grown_iff n hn
  inside_iff p c hc := hb.inside_iff p c (isChild_restrict.mp hc).1
  outbox_inside e he := hb.outbox_inside e (List.mem_filter.mp he).1
  asked := by
    intro x id resourceId he m hm
    obtain ⟨n, hn, -, rfl⟩ := mem_restrict_nodes.mp hm
    exact hb.asked x id resourceId (List.mem_filter.mp he).1 n hn

end

theorem prune (hb : o.Branch top next grown) {old : Handle} (hold : next ≤ old) :
    (o.prune old).Branch top next grown ∧
      (o.prune old).branch top.handle next =
        (o.branch top.handle next).prune (moved top.handle next old) := by
  have hkeep : ∀ x, o.isLive x = true → Inside top.handle next x →
      (o.branch top.handle next).outside (moved top.handle next old) (moved top.handle next x) =
        o.outside old x := by
    intro x hx hinside
    rw [Bool.eq_iff_iff, hb.arena.outside_iff hx,
      hb.alone.outside_iff ((isLive_branch hb.top_lt hinside).trans hx),
      hb.below_branch_iff (.inr hold) hinside]
  have htop : o.outside old top.handle = true := by
    rw [hb.arena.outside_iff hb.isLive_top]
    exact fun hbelow => Nat.not_lt.mpr (Nat.le_trans hold (hb.arena.le_of_below hbelow)) hb.top_lt
  have hbranch := hb.branch_restrict hkeep htop
  rw [← hb.alone.prune_eq_restrict, ← hb.arena.prune_eq_restrict] at hbranch
  refine ⟨?_, hbranch⟩
  rw [hb.arena.prune_eq_restrict] at hbranch ⊢
  refine hb.restrict (hb.arena.keepsParents_outside old) htop ?_
  rw [hbranch]
  exact hb.alone.prune _

theorem displace (hb : o.Branch top next grown) {key : OpenKey} (hkey : grown key) :
    (o.displace key).Branch top next grown ∧
      (o.displace key).branch top.handle next = (o.branch top.handle next).displace key := by
  rw [Outline.displace, Outline.displace, hb.find?_branch hkey]
  cases hold : o.find? key with
  | none => exact ⟨hb, rfl⟩
  | some old =>
    obtain ⟨n, hn, rfl⟩ := Option.map_eq_some_iff.mp hold
    have hnkey : n.key = key := by simpa using List.find?_some hn
    exact hb.prune ((hb.grown_iff n (List.mem_of_find?_eq_some hn)).mp (hnkey ▸ hkey))

/-! Inserting below something inside. -/

theorem moved_nextHandle (hb : o.Branch top next grown) :
    moved top.handle next o.nextHandle = (o.branch top.handle next).nextHandle :=
  moved_of_le hb.top_lt hb.next_le

theorem foundParent_branch (hb : o.Branch top next grown) {n : Node} {p : Handle}
    (hparent : n.parent = some p) (hp : Inside top.handle next p) :
    (o.branch top.handle next).foundParent { n with parent := some (moved top.handle next p) } =
      (o.foundParent n).map (moved top.handle next) := by
  rw [foundParent, foundParent, hparent, Option.filter, Option.filter, isLive_branch hb.top_lt hp]
  cases o.isLive p <;> rfl

theorem insert_branch (hb : o.Branch top next grown) {n : Node} {p : Handle}
    (hn : n.children = []) (hparent : n.parent = some p) (hp : Inside top.handle next p) :
    (o.insert n).2.branch top.handle next =
      ((o.branch top.handle next).insert
        { n with parent := some (moved top.handle next p) }).2 := by
  have hfound := hb.foundParent_branch hparent hp
  have hnext := hb.moved_nextHandle
  have hinside : ∀ q, o.foundParent n = some q → Inside top.handle next q := by
    intro q hq
    have hqp := (Option.filter_eq_some_iff.mp hq).1
    rw [hparent] at hqp
    exact Option.some.inj hqp ▸ hp
  have hadopt : ∀ m : Node, Inside top.handle next m.handle →
      (m.adopt (o.foundParent n) o.nextHandle).moved top.handle next =
        (m.moved top.handle next).adopt ((o.foundParent n).map (moved top.handle next))
          (o.branch top.handle next).nextHandle := by
    intro m hm
    rw [← hnext]
    exact m.moved_adopt hb.top_lt hm hinside
  have hold : (((o.nodes.map (Node.adopt (o.foundParent n) o.nextHandle)).filter fun m =>
      isInside top.handle next m.handle).map (Node.moved top.handle next)) =
        (o.branch top.handle next).nodes.map
          (Node.adopt ((o.foundParent n).map (moved top.handle next))
          (o.branch top.handle next).nextHandle) := by
    have hfilter : ((fun m => isInside top.handle next m.handle) ∘
        Node.adopt (o.foundParent n) o.nextHandle) = fun m =>
          isInside top.handle next m.handle := by
      funext m
      exact congrArg (isInside top.handle next) Node.adopt_handle
    rw [List.filter_map, List.map_map, hfilter, branch, List.map_map]
    exact List.map_congr_left fun m hm => hadopt m (isInside_iff.mp (List.mem_filter.mp hm).2)
  have hnew : ([{ n with handle := o.nextHandle, parent := o.foundParent n }].filter fun m =>
      isInside top.handle next m.handle).map (Node.moved top.handle next) =
        [{ n with
          handle := (o.branch top.handle next).nextHandle
          parent := (o.foundParent n).map (moved top.handle next) }] := by
    have hin : isInside top.handle next o.nextHandle = true := isInside_iff.mpr (.inr hb.next_le)
    have hne : o.nextHandle ≠ top.handle := Nat.ne_of_gt (Nat.lt_of_lt_of_le hb.top_lt hb.next_le)
    rw [List.filter_cons_of_pos (p := fun m : Node => isInside top.handle next m.handle) hin,
      List.filter_nil, List.map_singleton, Node.moved, if_neg hne, ← hnext]
    simp [hn]
  have hroots : 0 ::
      (((if o.foundParent n = none then o.roots ++ [o.nextHandle] else o.roots).filter fun r =>
      decide (next ≤ r)).map (moved top.handle next)) =
        if (o.foundParent n).map (moved top.handle next) = none then
          (o.branch top.handle next).roots ++ [(o.branch top.handle next).nextHandle]
        else (o.branch top.handle next).roots := by
    cases o.foundParent n with
    | some q => rfl
    | none =>
      have hlast : [o.nextHandle].filter (fun r => decide (next ≤ r)) = [o.nextHandle] :=
        List.filter_eq_self.mpr (List.forall_mem_singleton.mpr (decide_eq_true hb.next_le))
      rw [if_pos rfl, Option.map_none, if_pos rfl, List.filter_append, hlast,
        List.map_append, ← hnext]
      rfl
  have hsucc : o.nextHandle + 1 - next + 1 = o.nextHandle - next + 1 + 1 := by
    rw [Nat.sub_add_comm hb.next_le]
  rw [insert_eq, insert_eq, hfound, ← hold, ← hnew, ← hroots]
  rw [branch]
  simp only [List.filter_append, List.map_append, hsucc]
  rfl

theorem insert (hb : o.Branch top next grown) {n : Node} {p : Handle} (hn : n.children = [])
    (hparent : n.parent = some p) (hp : Inside top.handle next p) (hkey : grown n.key) :
    (o.insert n).2.Branch top next grown where
  arena := hb.arena.insert hn
  alone := by
    rw [hb.insert_branch hn hparent hp]
    exact hb.alone.insert hn
  top_lt := hb.top_lt
  next_le := by
    rw [insert_eq]
    exact Nat.le_succ_of_le hb.next_le
  exists_top := by
    obtain ⟨m, hm, hhandle, hbare⟩ := hb.exists_top
    refine ⟨_, mem_insert_nodes.mpr (.inl ⟨m, hm, rfl⟩), Node.adopt_handle.trans hhandle, ?_⟩
    rw [← hbare, Node.adopt]
    split <;> rfl
  grown_iff := by
    intro m hm
    rcases mem_insert_nodes.mp hm with ⟨k, hk, rfl⟩ | rfl
    · rw [Node.adopt_key, Node.adopt_handle]
      exact hb.grown_iff k hk
    · exact iff_of_true hkey hb.next_le
  inside_iff q c hc := by
    rcases isChild_insert.mp hc with hc | ⟨rfl, hq⟩
    · exact hb.inside_iff q c hc
    · have hqp := (Option.filter_eq_some_iff.mp hq).1
      rw [hparent] at hqp
      exact iff_of_true (Option.some.inj hqp ▸ hp) hb.next_le
  outbox_inside := by
    rw [insert_eq]
    exact hb.outbox_inside
  asked := by
    intro x id resourceId he m hm hx
    rw [insert_eq] at he
    rcases mem_insert_nodes.mp hm with ⟨k, hk, rfl⟩ | rfl
    · obtain ⟨hid, -, hresource⟩ := OpenKey.mk.inj (Node.adopt_key (n := k))
      rw [hid, hresource]
      exact hb.asked x id resourceId he k hk (Node.adopt_handle.symm.trans hx)
    · -- The new node has not been asked for yet.
      have hlt := hb.arena.isLive_lt (hb.arena.outbox_live _ he x rfl)
      exact absurd hx (Nat.ne_of_gt hlt)

/-! Updates inside, and effects. -/

theorem update_branch (hb : o.Branch top next grown) {x : Handle} (hx : Inside top.handle next x)
    {f : Node → Node} (hf : KeepsPlace f)
    (hmoved : ∀ n, n.handle = x → (f n).moved top.handle next = f (n.moved top.handle next)) :
    (o.update x f).branch top.handle next =
      (o.branch top.handle next).update (moved top.handle next x) f := by
  have hhandle : ∀ n : Node, (if n.handle = x then f n else n).handle = n.handle := by
    intro n
    split
    · exact (hf n).1
    · rfl
  have hfilter :
      ((fun m => isInside top.handle next m.handle) ∘ fun n => if n.handle = x then f n else n) =
      fun m => isInside top.handle next m.handle := by
    funext n
    exact congrArg (isInside top.handle next) (hhandle n)
  have hnodes : ((o.nodes.map fun n => if n.handle = x then f n else n).filter fun m =>
      isInside top.handle next m.handle).map (Node.moved top.handle next) =
        (o.branch top.handle next).nodes.map fun n =>
          if n.handle = moved top.handle next x then f n else n := by
    rw [List.filter_map, List.map_map, hfilter, branch, List.map_map]
    refine List.map_congr_left fun n hn => ?_
    have hsame := moved_inj hb.top_lt (isInside_iff.mp (List.mem_filter.mp hn).2) hx
    rw [Function.comp_apply, Function.comp_apply, n.moved_handle]
    by_cases hnx : n.handle = x
    · rw [if_pos hnx, if_pos (hsame.mpr hnx), hmoved n hnx]
    · rw [if_neg hnx, if_neg (mt hsame.mp hnx)]
  rw [Outline.update, Outline.update, ← hnodes]
  rfl

theorem update (hb : o.Branch top next grown) {x : Handle} (hx : Inside top.handle next x)
    {f : Node → Node} (hf : KeepsPlace f) (hbare : ∀ n, (f n).bare = n.bare)
    (hmoved : ∀ n, n.handle = x → (f n).moved top.handle next = f (n.moved top.handle next)) :
    (o.update x f).Branch top next grown := by
  have hsame : ∀ n : Node, (if n.handle = x then f n else n).bare = n.bare ∧
      (if n.handle = x then f n else n).handle = n.handle := by
    intro n
    split
    · exact ⟨hbare n, (hf n).1⟩
    · exact ⟨rfl, rfl⟩
  exact {
    arena := hb.arena.update hf x
    alone := by
      rw [hb.update_branch hx hf hmoved]
      exact hb.alone.update hf _
    top_lt := hb.top_lt
    next_le := hb.next_le
    exists_top := by
      obtain ⟨n, hn, hhandle, htop⟩ := hb.exists_top
      exact ⟨_, mem_update_nodes.mpr ⟨n, hn, rfl⟩, (hsame n).2.trans hhandle,
        (hsame n).1.trans htop⟩
    grown_iff := by
      intro m hm
      obtain ⟨n, hn, rfl⟩ := mem_update_nodes.mp hm
      rw [Node.key_eq_of_bare (hsame n).1, (hsame n).2]
      exact hb.grown_iff n hn
    inside_iff := fun p c hc => hb.inside_iff p c ((isChild_update hf x).mp hc)
    outbox_inside := hb.outbox_inside
    asked := by
      intro y id resourceId he m hm hy
      obtain ⟨n, hn, rfl⟩ := mem_update_nodes.mp hm
      obtain ⟨hid, -, hresource⟩ := OpenKey.mk.inj (Node.key_eq_of_bare (hsame n).1)
      rw [hid, hresource]
      exact hb.asked y id resourceId he n hn ((hsame n).2.symm.trans hy) }

theorem push_branch (o : Outline) (h next : Handle) (effects : List Effect) :
    (o.push effects).branch h next =
      (o.branch h next).push (effects.map (Effect.moved h next)) := by
  rw [Outline.push, Outline.push, branch, branch]
  simp only [List.map_append]

theorem push (hb : o.Branch top next grown) {n : Node} (hn : n ∈ o.nodes)
    (hinside : Inside top.handle next n.handle)
    {e : Effect} (hnode : e.node? = some n.handle)
    (hasked : ∀ x id resourceId, e = .fetchChildren x id resourceId →
      n.entityId = id ∧ n.resourceId = resourceId) :
    (o.push [e]).Branch top next grown where
  arena := by
    refine hb.arena.push fun e' he' x hx => ?_
    rw [List.mem_singleton.mp he', hnode] at hx
    exact Option.some.inj hx ▸ isLive_of_mem hn
  alone := by
    rw [push_branch]
    refine hb.alone.push fun e' he' x hx => ?_
    rw [List.map_singleton, List.mem_singleton] at he'
    rw [he', Effect.moved_node?, hnode] at hx
    rw [← Option.some.inj hx]
    exact (isLive_branch hb.top_lt hinside).trans (isLive_of_mem hn)
  top_lt := hb.top_lt
  next_le := hb.next_le
  exists_top := hb.exists_top
  grown_iff := hb.grown_iff
  inside_iff := hb.inside_iff
  outbox_inside := by
    intro e' he' x hx
    rcases List.mem_append.mp he' with he' | he'
    · exact hb.outbox_inside e' he' x hx
    · rw [List.mem_singleton.mp he', hnode] at hx
      exact Option.some.inj hx ▸ hinside
  asked := by
    intro x id resourceId he' m hm hx
    rcases List.mem_append.mp he' with he' | he'
    · exact hb.asked x id resourceId he' m hm hx
    · obtain rfl := List.mem_singleton.mp he'
      obtain rfl : m = n := hb.arena.eq_of_handle hm hn (hx.trans (Option.some.inj hnode))
      exact hasked x id resourceId rfl

theorem withKeys (hb : o.Branch top next grown) (openKeys : OpenKeys) :
    ({ o with openKeys }).Branch top next grown :=
  { hb with arena := hb.arena.withKeys openKeys, alone := hb.alone.withKeys openKeys }

end Branch

end Outline

end ContentConsole
