import ContentConsole.OpenKeys
import Mathlib.Data.List.Count
import Mathlib.Data.List.Induction
import Mathlib.Data.String.Basic
import Mathlib.Order.Compare

set_option autoImplicit false
set_option relaxedAutoImplicit false

/-!
The open keys after any edits. Main statement: `run_eq_history`, by which the keys are those of
which an insertion was not undone since, each edit answers what it changed, and the keys are
listed once each in their order.
-/
namespace ContentConsole

namespace OpenKey

def PartBefore : Option String → Option String → Prop
  | _, none => False
  | none, some _ => True
  | some x, some y => x < y

/-- Entities decide first, then parents, then resources. -/
def Before (a b : OpenKey) : Prop :=
  a.entityId < b.entityId ∨ a.entityId = b.entityId ∧
    (PartBefore a.parentId b.parentId ∨ a.parentId = b.parentId ∧
      PartBefore a.resourceId b.resourceId)

theorem compare_part_eq_lt {x y : Option String} : compare x y = .lt ↔ PartBefore x y := by
  cases x with
  | none =>
    cases y with
    | none => exact iff_of_false nofun id
    | some y => exact iff_of_true rfl trivial
  | some x =>
    cases y with
    | none => exact iff_of_false nofun id
    | some y =>
      change compare x y = .lt ↔ x < y
      exact compare_lt_iff_lt

theorem compare_eq_lt {a b : OpenKey} : compare a b = .lt ↔ a.Before b := by
  rw [compare_eq_then, Ordering.then_eq_lt, Ordering.then_eq_lt, compare_lt_iff_lt,
    compare_part_eq_lt, compare_part_eq_lt, Std.LawfulEqOrd.compare_eq_iff_eq,
    Std.LawfulEqOrd.compare_eq_iff_eq, Before]

theorem mentions_iff {key : OpenKey} {id : String} :
    key.mentions id = true ↔
      key.entityId = id ∨ key.parentId = some id ∨ key.resourceId = some id := by
  simp [mentions, or_assoc]

end OpenKey

namespace KeyEdit

def Drops (key : OpenKey) : KeyEdit → Prop
  | .insert _ => False
  | .erase other => other = key
  | .forget id => key.entityId = id ∨ key.parentId = some id ∨ key.resourceId = some id
  | .clear => True

/-- Some insertion of the key is not followed by an edit that takes it out. -/
def Keeps (edits : List KeyEdit) (key : OpenKey) : Prop :=
  ∃ before after, edits = before ++ .insert key :: after ∧ ∀ e ∈ after, ¬e.Drops key

/-- The answer tells what the edit made of the keys: whether it changed
them, or how many of them went. -/
def Tells (s s' : OpenKeys) : (e : KeyEdit) → e.Answer → Prop
  | .insert _, answer | .erase _, answer => answer = true ↔ s' ≠ s
  | .forget _, answer => answer = s.keys.countP fun key => key ∉ s'
  | .clear, _ => True

theorem not_keeps_nil (key : OpenKey) : ¬Keeps [] key := by
  rintro ⟨before, after, hsplit, -⟩
  simp at hsplit

theorem keeps_append_singleton {edits : List KeyEdit} {e : KeyEdit} {key : OpenKey} :
    Keeps (edits ++ [e]) key ↔ e = .insert key ∨ Keeps edits key ∧ ¬e.Drops key := by
  constructor
  · rintro ⟨before, after, hsplit, hafter⟩
    rcases List.eq_nil_or_concat after with rfl | ⟨after, last, rfl⟩
    · exact .inl (List.append_inj_right' hsplit rfl |> List.singleton_inj.mp)
    · rw [List.concat_eq_append] at hsplit hafter
      have hparts : edits ++ [e] = (before ++ .insert key :: after) ++ [last] := by
        simpa using hsplit
      obtain ⟨rfl, hlast⟩ := List.append_inj' hparts rfl
      obtain rfl := List.singleton_inj.mp hlast
      refine .inr ⟨⟨before, after, rfl, fun x hx => hafter x (List.mem_append_left _ hx)⟩, ?_⟩
      exact hafter e (List.mem_append_right _ (List.mem_singleton_self e))
  · rintro (rfl | ⟨⟨before, after, rfl, hafter⟩, hlast⟩)
    · exact ⟨edits, [], rfl, nofun⟩
    · refine ⟨before, after ++ [e], by simp, fun x hx => ?_⟩
      rcases List.mem_append.mp hx with hx | hx
      · exact hafter x hx
      · rwa [List.mem_singleton.mp hx]

end KeyEdit

namespace OpenKeys

variable {s : OpenKeys} {key : OpenKey}

def run (s : OpenKeys) (edits : List KeyEdit) : OpenKeys := edits.foldl (fun s e => (s.edit e).2) s

theorem run_append_singleton (s : OpenKeys) (edits : List KeyEdit) (e : KeyEdit) :
    s.run (edits ++ [e]) = ((s.run edits).edit e).2 := by
  rw [run, List.foldl_append]
  rfl

theorem not_mem_empty (key : OpenKey) : key ∉ empty := List.not_mem_nil

theorem mem_edit {e : KeyEdit} : key ∈ (s.edit e).2 ↔ e = .insert key ∨ key ∈ s ∧ ¬e.Drops key := by
  cases e with
  | insert new =>
    change key ∈ s.insert new ↔ _
    rw [mem_insert, KeyEdit.insert.injEq, eq_comm (a := new)]
    simp [KeyEdit.Drops]
  | erase old =>
    change key ∈ s.erase old ↔ _
    rw [mem_erase, ne_comm]
    simp [KeyEdit.Drops]
  | forget id =>
    change key ∈ s.forget id ↔ _
    rw [mem_forget, ← Bool.not_eq_true, OpenKey.mentions_iff]
    simp only [reduceCtorEq, false_or, KeyEdit.Drops]
  | clear =>
    change key ∈ empty ↔ _
    simp [not_mem_empty, KeyEdit.Drops]

theorem mem_run_iff (edits : List KeyEdit) : key ∈ empty.run edits ↔ KeyEdit.Keeps edits key := by
  induction edits using List.reverseRecOn with
  | nil => exact iff_of_false (not_mem_empty key) (KeyEdit.not_keeps_nil key)
  | append_singleton edits e ih =>
    rw [run_append_singleton, mem_edit, KeyEdit.keeps_append_singleton, ih]

theorem insert_ne_iff : s.insert key ≠ s ↔ key ∉ s := by
  refine not_congr ⟨fun hsame => ?_, insert_of_mem⟩
  rw [← hsame, mem_insert]
  exact .inl rfl

theorem erase_ne_iff : s.erase key ≠ s ↔ key ∈ s := by
  constructor
  · intro hchanged
    by_contra habsent
    refine hchanged ?_
    obtain ⟨keys, hkeys⟩ := s
    have hall : keys.filter (· ≠ key) = keys := by
      refine List.filter_eq_self.mpr fun x hx => ?_
      exact decide_eq_true fun heq => habsent (heq ▸ hx)
    simp only [erase, hall]
  · intro hmem hsame
    rw [← hsame, mem_erase] at hmem
    exact hmem.2 rfl

theorem size_sub_size_forget (s : OpenKeys) (id : String) :
    s.size - (s.forget id).size = s.keys.countP fun key => key ∉ s.forget id := by
  have hgone : s.keys.countP (fun key => key ∉ s.forget id) = s.keys.countP fun key =>
      key.mentions id := by
    refine List.countP_congr fun key hkey => ?_
    have hin : key ∈ s := hkey
    simp [hin]
  have hleft : (s.forget id).size = s.keys.countP fun key => !key.mentions id :=
    List.countP_eq_length_filter.symm
  rw [hgone, hleft, size, List.length_eq_countP_add_countP fun key => key.mentions id]
  simp

theorem tells_edit (s : OpenKeys) (e : KeyEdit) : e.Tells s (s.edit e).2 (s.edit e).1 := by
  cases e with
  | insert key => exact decide_eq_true_iff.trans insert_ne_iff.symm
  | erase key => exact decide_eq_true_iff.trans erase_ne_iff.symm
  | forget id => exact size_sub_size_forget s id
  | clear => trivial

theorem pairwise_before (s : OpenKeys) : s.keys.Pairwise OpenKey.Before :=
  s.ascending.imp OpenKey.compare_eq_lt.mp

theorem nodup_keys (s : OpenKeys) : s.keys.Nodup := by
  refine s.ascending.imp fun hlt heq => ?_
  simp [heq, Std.ReflCmp.compare_self] at hlt

/--
Whatever edits are made one after the other, with no keys to begin with: a key is there exactly if
some insertion of it is not followed by an erasure of it, a forgetting of an id that it mentions or
a clearing; each edit on the way answers what it changed; and the keys that are there are listed
once each, in strictly increasing order.
-/
theorem run_eq_history (edits : List KeyEdit) :
    (∀ key, key ∈ empty.run edits ↔ KeyEdit.Keeps edits key) ∧
      (∀ before e after, edits = before ++ e :: after →
        e.Tells (empty.run before) (empty.run (before ++ [e])) ((empty.run before).edit e).1) ∧
      (∀ key, (empty.run edits).keys.count key = if key ∈ empty.run edits then 1 else 0) ∧
      (empty.run edits).keys.Pairwise OpenKey.Before := by
  refine ⟨fun key => mem_run_iff edits, fun before e after _ => ?_, fun key => ?_,
    pairwise_before _⟩
  · rw [run_append_singleton]
    exact tells_edit _ e
  · exact (nodup_keys _).count

/-- Of three keys one is erased, one mentions an id that is forgotten as its
resource, and one is inserted again. -/
example :
    (empty.run
      [.insert ⟨"a", none, some "r"⟩, .insert ⟨"b", none, none⟩, .insert ⟨"a", some "b", none⟩,
        .forget "r", .erase ⟨"b", none, none⟩, .insert ⟨"a", none, some "r"⟩]).keys =
      [⟨"a", none, some "r"⟩, ⟨"a", some "b", none⟩] := by decide

end OpenKeys

end ContentConsole
