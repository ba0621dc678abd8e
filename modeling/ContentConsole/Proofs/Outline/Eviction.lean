import ContentConsole.Proofs.Outline.Past

set_option autoImplicit false
set_option relaxedAutoImplicit false

/-!
Eviction: the removal, for each of some keys in turn, of the first node that has it. Main
statements: `Arena.evict_eq_restrict`, by which eviction takes nodes with all that is below
them and leaves everything else as it is, and `Arena.isLive_evict`, by which it takes no
node without a reason above it.
-/
namespace ContentConsole

namespace Outline

variable {o : Outline}

/-- Removes, for each key in turn, the first node that has it. -/
def evict (o : Outline) (keys : List OpenKey) : Outline := keys.foldl displace o

@[simp] theorem evict_cons (key : OpenKey) (keys : List OpenKey) :
    o.evict (key :: keys) = (o.displace key).evict keys := rfl

theorem evict_append (keys keys' : List OpenKey) :
    o.evict (keys ++ keys') = (o.evict keys).evict keys' :=
  List.foldl_append

/-- The key is that of the node `h` or of one above it. -/
def KeyAbove (o : Outline) (h : Handle) (key : OpenKey) : Prop :=
  ∃ n ∈ o.nodes, n.key = key ∧ o.Below n.handle h

theorem keyAbove_of_restrict {keep : Handle → Bool} {h : Handle} {key : OpenKey}
    (habove : (o.restrict keep).KeyAbove h key) : o.KeyAbove h key := by
  obtain ⟨m, hm, rfl, hbelow⟩ := habove
  obtain ⟨n, hn, -, rfl⟩ := mem_restrict_nodes.mp hm
  exact ⟨n, hn, rfl, below_of_below_restrict hbelow⟩

namespace Arena

private theorem displace_eq_restrict (ha : o.Arena) (key : OpenKey) :
    ∃ keep, o.KeepsParents keep ∧ o.displace key = o.restrict keep := by
  rw [Outline.displace]
  split
  · rename_i old _
    exact ⟨o.outside old, ha.keepsParents_outside old, ha.prune_eq_restrict old⟩
  · exact ⟨fun _ => true, fun _ _ _ _ => rfl, (ha.restrict_eq_self fun _ _ => rfl).symm⟩

theorem evict_eq_restrict (ha : o.Arena) (keys : List OpenKey) :
    o.KeepsParents (o.evict keys).isLive ∧ o.evict keys = o.restrict (o.evict keys).isLive := by
  have hsome : ∃ keep, o.KeepsParents keep ∧ o.evict keys = o.restrict keep := by
    induction keys generalizing o with
    | nil => exact ⟨fun _ => true, fun _ _ _ _ => rfl, (ha.restrict_eq_self fun _ _ => rfl).symm⟩
    | cons key keys ih =>
      obtain ⟨keep, hkeep, hdisplace⟩ := ha.displace_eq_restrict key
      obtain ⟨keep', hkeep', hevict⟩ := ih (ha.displace key)
      rw [hdisplace] at hkeep'
      refine ⟨fun h => keep h && keep' h, hkeep.and hkeep', ?_⟩
      rw [evict_cons, hevict, hdisplace, restrict_restrict]
  obtain ⟨keep, hkeep, hevict⟩ := hsome
  have hlive : ∀ x, o.isLive x = true → (o.evict keys).isLive x = keep x := by
    intro x hx
    rw [hevict, Bool.eq_iff_iff, isLive_restrict]
    simp [hx]
  constructor
  · intro p c hc hkept
    rw [hlive c hc.isLive] at hkept
    rw [hlive p (ha.isLive_of_isChild hc)]
    exact hkeep p c hc hkept
  · rw [ha.restrict_congr hlive]
    exact hevict

theorem isLive_displace (ha : o.Arena) {key : OpenKey} {h : Handle} (hh : o.isLive h = true)
    (hkey : ¬o.KeyAbove h key) : (o.displace key).isLive h = true := by
  rw [Outline.displace]
  split
  · rename_i old hold
    obtain ⟨n, hn, rfl⟩ := Option.map_eq_some_iff.mp hold
    rw [ha.prune_eq_restrict, isLive_restrict, ha.outside_iff hh]
    refine ⟨hh, fun hbelow => hkey ?_⟩
    have hnkey := List.find?_some hn
    exact ⟨n, List.mem_of_find?_eq_some hn, by simpa using hnkey, hbelow⟩
  · exact hh

theorem isLive_evict (ha : o.Arena) {keys : List OpenKey} {h : Handle} (hh : o.isLive h = true)
    (hkeys : ∀ key ∈ keys, ¬o.KeyAbove h key) : (o.evict keys).isLive h = true := by
  induction keys generalizing o with
  | nil => exact hh
  | cons key keys ih =>
    obtain ⟨keep, -, hdisplace⟩ := ha.displace_eq_restrict key
    refine ih (ha.displace key) (ha.isLive_displace hh (hkeys key (List.mem_cons_self ..))) ?_
    intro key' hmem habove
    rw [hdisplace] at habove
    exact hkeys key' (List.mem_cons_of_mem _ hmem) (keyAbove_of_restrict habove)

theorem evict_past (ha : o.Arena) (keys : List OpenKey) {next : Handle} :
    (o.evict keys).past next = (o.past next).evict keys := by
  induction keys generalizing o with
  | nil => rfl
  | cons key keys ih => rw [evict_cons, evict_cons, ih (ha.displace key), ha.displace_past]

end Arena

end Outline

end ContentConsole
