import ContentConsole.OpenKey

set_option autoImplicit false
set_option relaxedAutoImplicit false

/-!
The set of keys of open nodes, kept as a strictly ascending list. Main statements:
`mem_insert`, `mem_erase` and `mem_forget` say what each operation does to membership, and
`insert_of_mem` that a key is kept once.
-/
namespace ContentConsole

def Ascending (keys : List OpenKey) : Prop := keys.Pairwise fun a b => compare a b = .lt

structure OpenKeys where
  keys : List OpenKey
  ascending : Ascending keys

namespace OpenKeys

private def insertKey (key : OpenKey) : List OpenKey → List OpenKey
  | [] => [key]
  | k :: rest =>
    match compare key k with
    | .lt => key :: k :: rest
    | .eq => k :: rest
    | .gt => k :: insertKey key rest

private theorem mem_insertKey (key x : OpenKey) (keys : List OpenKey) :
    x ∈ insertKey key keys ↔ x = key ∨ x ∈ keys := by
  induction keys with
  | nil => simp [insertKey]
  | cons k rest ih =>
    rw [insertKey]
    split
    · simp
    · rename_i h
      rw [Std.LawfulEqOrd.eq_of_compare h]
      simp
    · simp only [List.mem_cons, ih]
      grind

private theorem ascending_insertKey (key : OpenKey) (keys : List OpenKey) (h : Ascending keys) :
    Ascending (insertKey key keys) := by
  induction keys with
  | nil => simp [insertKey, Ascending]
  | cons k rest ih =>
    have hk := List.pairwise_cons.1 h
    rw [insertKey]
    split
    · rename_i hlt
      refine List.pairwise_cons.2 ⟨fun x hx => ?_, h⟩
      rcases List.mem_cons.1 hx with rfl | hx
      · exact hlt
      · exact Std.TransCmp.lt_trans hlt (hk.1 x hx)
    · exact h
    · rename_i hgt
      refine List.pairwise_cons.2 ⟨fun x hx => ?_, ih hk.2⟩
      rcases (mem_insertKey key x rest).1 hx with rfl | hx
      · exact Std.OrientedCmp.lt_of_gt hgt
      · exact hk.1 x hx

private theorem insertKey_of_mem (key : OpenKey) (keys : List OpenKey) (h : Ascending keys)
    (hkey : key ∈ keys) : insertKey key keys = keys := by
  induction keys with
  | nil => simp at hkey
  | cons k rest ih =>
    have hk := List.pairwise_cons.1 h
    rw [insertKey]
    split
    · rename_i hlt
      rcases List.mem_cons.1 hkey with rfl | hmem
      · simp [Std.ReflCmp.compare_self] at hlt
      · have hself := Std.TransCmp.lt_trans hlt (hk.1 key hmem)
        simp [Std.ReflCmp.compare_self] at hself
    · rfl
    · rename_i hgt
      rcases List.mem_cons.1 hkey with rfl | hmem
      · simp [Std.ReflCmp.compare_self] at hgt
      · rw [ih hk.2 hmem]

def empty : OpenKeys := ⟨[], List.Pairwise.nil⟩

instance : Inhabited OpenKeys := ⟨empty⟩

instance : Membership OpenKey OpenKeys := ⟨fun s key => key ∈ s.keys⟩

instance (key : OpenKey) (s : OpenKeys) : Decidable (key ∈ s) :=
  inferInstanceAs (Decidable (key ∈ s.keys))

instance : DecidableEq OpenKeys := fun a b =>
  decidable_of_iff (a.keys = b.keys) (by cases a; cases b; simp)

def size (s : OpenKeys) : Nat := s.keys.length

def insert (s : OpenKeys) (key : OpenKey) : OpenKeys :=
  ⟨insertKey key s.keys, ascending_insertKey key s.keys s.ascending⟩

def erase (s : OpenKeys) (key : OpenKey) : OpenKeys :=
  ⟨s.keys.filter (· ≠ key), s.ascending.filter _⟩

/-- Drops every key that mentions the id. -/
def forget (s : OpenKeys) (id : String) : OpenKeys :=
  ⟨s.keys.filter fun key => !key.mentions id, s.ascending.filter _⟩

def ofList (keys : List OpenKey) : OpenKeys := keys.foldl insert empty

@[simp] theorem mem_keys {s : OpenKeys} {key : OpenKey} : key ∈ s.keys ↔ key ∈ s := Iff.rfl

@[simp] theorem mem_insert {s : OpenKeys} {key x : OpenKey} :
    x ∈ s.insert key ↔ x = key ∨ x ∈ s := mem_insertKey key x s.keys

theorem insert_of_mem {s : OpenKeys} {key : OpenKey} (h : key ∈ s) : s.insert key = s := by
  obtain ⟨keys, hkeys⟩ := s
  simp only [insert, insertKey_of_mem key keys hkeys h]

@[simp] theorem mem_erase {s : OpenKeys} {key x : OpenKey} :
    x ∈ s.erase key ↔ x ∈ s ∧ x ≠ key := by
  change x ∈ s.keys.filter (· ≠ key) ↔ _
  simp

@[simp] theorem mem_forget {s : OpenKeys} {id : String} {x : OpenKey} :
    x ∈ s.forget id ↔ x ∈ s ∧ x.mentions id = false := by
  change x ∈ s.keys.filter (fun key => !key.mentions id) ↔ _
  simp

end OpenKeys

/-! Edits, and what each of them answers. -/

inductive KeyEdit
  | insert (key : OpenKey)
  | erase (key : OpenKey)
  /-- Drops every key that mentions the id. -/
  | forget (id : String)
  | clear
deriving DecidableEq, Repr

/-- Inserting and erasing answer whether there was anything to do, forgetting how many keys went. -/
abbrev KeyEdit.Answer : KeyEdit → Type
  | .insert _ | .erase _ => Bool
  | .forget _ => Nat
  | .clear => Unit

namespace OpenKeys

def edit (s : OpenKeys) : (e : KeyEdit) → e.Answer × OpenKeys
  | .insert key => (decide (key ∉ s), s.insert key)
  | .erase key => (decide (key ∈ s), s.erase key)
  | .forget id => (s.size - (s.forget id).size, s.forget id)
  | .clear => ((), .empty)

end OpenKeys

end ContentConsole
