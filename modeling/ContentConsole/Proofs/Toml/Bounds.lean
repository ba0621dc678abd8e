import ContentConsole.Toml.Reader
import Mathlib.Data.List.Basic

set_option autoImplicit false
set_option relaxedAutoImplicit false

/-!
Integers of a document that was read have 64 bits with a sign, wherever they stand. The reader
checks each of them where it reads its digits; from there on values are only put into arrays and
tables. Main statement: `bounded_of_read`.
-/
namespace ContentConsole.Toml

/-- Every integer in a value has 64 bits with a sign. -/
inductive Bounded : Toml → Prop
  | text (s : String) : Bounded (.text s)
  | integer {n : Int} (h : fits n = true) : Bounded (.integer n)
  | float (x : Decimal.Binary64) : Bounded (.float x)
  | boolean (b : Bool) : Bounded (.boolean b)
  | moment (written : String) : Bounded (.moment written)
  | array {items : List Toml} (h : ∀ v ∈ items, Bounded v) : Bounded (.array items)
  | table {entries : List (String × Toml)} (h : ∀ e ∈ entries, Bounded e.2) :
      Bounded (.table entries)

inductive Item.Bounded : Item → Prop
  | value {v : Toml} (h : Toml.Bounded v) : Item.Bounded (.value v)
  | table {origin : Origin} {entries : Entries} (h : ∀ e ∈ entries, Item.Bounded e.2) :
      Item.Bounded (.table origin entries)
  | tables {elements : List Entries} (h : ∀ entries ∈ elements, ∀ e ∈ entries, Item.Bounded e.2) :
      Item.Bounded (.tables elements)

/-! ## Documents -/

namespace Entries

def Bounded (entries : Entries) : Prop := ∀ e ∈ entries, Item.Bounded e.2

def Keeps (f : Entries → Option Entries) : Prop :=
  ∀ entries, Bounded entries → ∀ out, f entries = some out → Bounded out

variable {entries : Entries} {f : Entries → Option Entries} {key : String} {item : Item}

theorem Bounded.get? (h : Bounded entries)
    (hget : entries.get? key = some item) : item.Bounded := by
  induction entries with
  | nil => exact absurd hget (by simp [Entries.get?])
  | cons entry entries ih =>
    obtain ⟨hentry, hentries⟩ := List.forall_mem_cons.mp h
    rw [Entries.get?, List.lookup_cons] at hget
    split at hget
    · exact Option.some.inj hget ▸ hentry
    · exact ih hentries hget

theorem Bounded.put (h : Bounded entries) (hitem : item.Bounded) :
    Bounded (put key item entries) := by
  induction entries with
  | nil => simpa [Entries.put, Bounded] using hitem
  | cons entry entries ih =>
    obtain ⟨hentry, hentries⟩ := List.forall_mem_cons.mp h
    rw [Entries.put]
    split
    · exact List.forall_mem_cons.mpr ⟨hitem, hentries⟩
    · exact List.forall_mem_cons.mpr ⟨hentry, ih hentries⟩

theorem bounded_changeLast (hf : Keeps f) {elements out : List Entries}
    (h : ∀ x ∈ elements, Bounded x) (hout : changeLast f elements = some out) :
    ∀ x ∈ out, Bounded x := by
  fun_induction changeLast f elements generalizing out with
  | case1 => exact absurd hout (by simp)
  | case2 last =>
    obtain ⟨changed, hchanged, rfl⟩ := Option.map_eq_some_iff.mp hout
    simpa using hf last (h last List.mem_cons_self) changed hchanged
  | case3 x xs _ ih =>
    obtain ⟨hx, hxs⟩ := List.forall_mem_cons.mp h
    obtain ⟨changed, hchanged, rfl⟩ := Option.map_eq_some_iff.mp hout
    exact List.forall_mem_cons.mpr ⟨hx, ih hxs hchanged⟩

theorem keeps_enter (origin : Origin) (hf : Keeps f) (key : String) :
    Keeps (enter origin f key) := by
  intro entries h out hout
  unfold enter at hout
  split at hout
  · obtain ⟨inner, hinner, rfl⟩ := Option.map_eq_some_iff.mp hout
    exact h.put (.table (hf [] (by simp [Bounded]) inner hinner))
  · rename_i o inner hget
    obtain ⟨changed, hchanged, rfl⟩ := Option.map_eq_some_iff.mp hout
    cases h.get? hget with
    | table hinner => exact h.put (.table (hf inner hinner changed hchanged))
  · rename_i elements hget
    obtain ⟨changed, hchanged, rfl⟩ := Option.map_eq_some_iff.mp hout
    cases h.get? hget with
    | tables helements => exact h.put (.tables (bounded_changeLast hf helements hchanged))
  · exact absurd hout (by simp)

theorem keeps_openTable (path : List String) : Keeps (openTable path) := by
  induction path with
  | nil => exact fun entries _ out hout => absurd hout (by simp [openTable])
  | cons key path ih =>
    cases path with
    | nil =>
      intro entries h out hout
      unfold openTable at hout
      split at hout
      · obtain rfl := Option.some.inj hout
        exact h.put (.table (by simp))
      · rename_i inner hget
        obtain rfl := Option.some.inj hout
        cases h.get? hget with
        | table hinner => exact h.put (.table hinner)
      · exact absurd hout (by simp)
    | cons next path => exact keeps_enter .implied ih key

theorem keeps_openElement (path : List String) : Keeps (openElement path) := by
  induction path with
  | nil => exact fun entries _ out hout => absurd hout (by simp [openElement])
  | cons key path ih =>
    cases path with
    | nil =>
      intro entries h out hout
      unfold openElement at hout
      split at hout
      · obtain rfl := Option.some.inj hout
        exact h.put (.tables (by simp))
      · rename_i elements hget
        obtain rfl := Option.some.inj hout
        cases h.get? hget with
        | tables helements =>
          refine h.put (.tables fun entries hmem => ?_)
          obtain hmem | hmem := List.mem_append.mp hmem
          · exact helements entries hmem
          · simp [List.mem_singleton.mp hmem]
      · exact absurd hout (by simp)
    | cons next path => exact keeps_enter .implied ih key

theorem keeps_within (hf : Keeps f) (path : List String) : Keeps (within f path) := by
  induction path with
  | nil => exact hf
  | cons key path ih => exact keeps_enter .implied ih key

theorem keeps_define {v : Toml} (hv : Toml.Bounded v) (key : List String) :
    Keeps (define v key) := by
  induction key with
  | nil => exact fun entries _ out hout => absurd hout (by simp [define])
  | cons part key ih =>
    intro entries h out hout
    cases key with
    | nil =>
      unfold define at hout
      split at hout
      · exact absurd hout (by simp)
      · obtain rfl := Option.some.inj hout
        intro e he
        obtain he | he := List.mem_append.mp he
        · exact h e he
        · rw [List.mem_singleton.mp he]
          exact .value hv
    | cons next key =>
      have henter := keeps_enter .dotted ih part entries h out
      simp only [define] at hout
      split at hout
      · exact absurd hout (by simp)
      · exact absurd hout (by simp)
      · split at hout
        · exact absurd hout (by simp)
        · exact henter hout
      · split at hout
        · exact absurd hout (by simp)
        · exact henter hout
      · exact henter hout
      · exact henter hout

end Entries

theorem entriesToToml_eq_map (entries : Entries) :
    entriesToToml entries = entries.map fun e => (e.1, e.2.toToml) := by
  induction entries with
  | nil => rw [entriesToToml, List.map_nil]
  | cons entry entries ih => rw [entriesToToml, ih, List.map_cons]

theorem elementsToToml_eq_map (elements : List Entries) :
    elementsToToml elements = elements.map fun entries => .table (entriesToToml entries) := by
  induction elements with
  | nil => rw [elementsToToml, List.map_nil]
  | cons entries elements ih => rw [elementsToToml, ih, List.map_cons]

theorem bounded_table {entries : Entries} (h : ∀ e ∈ entries, Bounded e.2.toToml) :
    Bounded (.table (entriesToToml entries)) := by
  rw [entriesToToml_eq_map]
  exact .table (List.forall_mem_map.mpr h)

theorem Item.Bounded.toToml {item : Item} (h : item.Bounded) : Toml.Bounded item.toToml := by
  induction h with
  | value hv => simpa [Item.toToml] using hv
  | table _ ih =>
    rw [Item.toToml]
    exact bounded_table ih
  | tables _ ih =>
    rw [Item.toToml, elementsToToml_eq_map]
    exact .array (List.forall_mem_map.mpr fun entries hmem => bounded_table (ih entries hmem))

theorem Entries.Bounded.toToml {entries : Entries} (h : entries.Bounded) :
    Toml.Bounded (.table (entriesToToml entries)) :=
  bounded_table fun e he => (h e he).toToml

/-! ## Values -/

variable {cs rest : List Char} {v : Toml}

theorem bounded_of_rounded {minus : Bool} {n : Nat}
    (h : rounded minus n cs = some (v, rest)) : Bounded v := by
  unfold rounded at h
  split at h
  · exact absurd h (by simp)
  · obtain ⟨rfl, -⟩ := Prod.mk.inj (Option.some.inj h)
    exact .float _

theorem bounded_of_readFloat (h : readFloat cs = some (v, rest)) : Bounded v := by
  simp only [readFloat] at h
  split at h
  · obtain ⟨rfl, -⟩ := Prod.mk.inj (Option.some.inj h)
    exact .float _
  · obtain ⟨rfl, -⟩ := Prod.mk.inj (Option.some.inj h)
    exact .float _
  · split at h
    · exact absurd h (by simp)
    · split at h
      · split at h <;> exact bounded_of_rounded h
      · split at h
        · exact bounded_of_rounded h
        · exact absurd h (by simp)

theorem bounded_of_fits {n : Int}
    (h : (if fits n then some (Toml.integer n, cs) else none) = some (v, rest)) : Bounded v := by
  split at h
  · rename_i hfits
    obtain ⟨rfl, -⟩ := Prod.mk.inj (Option.some.inj h)
    exact .integer hfits
  · exact absurd h (by simp)

theorem bounded_of_readBased {base : Nat} {isDigit : Char → Bool}
    (h : readBased base isDigit cs = some (v, rest)) : Bounded v := by
  unfold readBased at h
  split at h
  · exact absurd h (by simp)
  · exact bounded_of_fits h

theorem bounded_of_readInteger (h : readInteger cs = some (v, rest)) : Bounded v := by
  unfold readInteger at h
  split at h
  · exact bounded_of_readBased h
  · exact bounded_of_readBased h
  · exact bounded_of_readBased h
  · dsimp only at h
    split at h
    · exact absurd h (by simp)
    · exact bounded_of_fits h

theorem bounded_of_readNumeric (h : readNumeric cs = some (v, rest)) : Bounded v := by
  simp only [readNumeric, Option.orElse_eq_or, Option.or_eq_some_iff] at h
  obtain h | ⟨-, h | ⟨-, h⟩⟩ := h
  · simp only [readMoment] at h
    obtain ⟨after, -, h⟩ := Option.map_eq_some_iff.mp h
    obtain ⟨rfl, -⟩ := Prod.mk.inj h
    exact .moment _
  · exact bounded_of_readFloat h
  · exact bounded_of_readInteger h

/-- Reading with some fuel gives bounded values, and fields that are
bounded if those before them are. -/
structure ReadsBounded (fuel : Nat) : Prop where
  value : ∀ {depth cs v rest}, readValue fuel depth cs = some (v, rest) → Bounded v
  items : ∀ {depth cs items rest}, readItems fuel depth cs = some (items, rest) →
    ∀ v ∈ items, Bounded v
  fields : ∀ {depth seen cs entries rest}, readFields fuel depth seen cs = some (entries, rest) →
    Entries.Bounded seen → Entries.Bounded entries

namespace ReadsBounded

variable {fuel depth : Nat}

theorem value_succ (ih : ReadsBounded fuel)
    (h : readValue (fuel + 1) depth cs = some (v, rest)) : Bounded v := by
  unfold readValue at h
  split at h
  · obtain ⟨read, -, h⟩ := Option.map_eq_some_iff.mp h
    obtain ⟨rfl, -⟩ := Prod.mk.inj h
    exact .text _
  · obtain ⟨read, -, h⟩ := Option.map_eq_some_iff.mp h
    obtain ⟨rfl, -⟩ := Prod.mk.inj h
    exact .text _
  · obtain ⟨rfl, -⟩ := Prod.mk.inj (Option.some.inj h)
    exact .boolean _
  · obtain ⟨rfl, -⟩ := Prod.mk.inj (Option.some.inj h)
    exact .boolean _
  · split at h
    · exact absurd h (by simp)
    · split at h
      · exact absurd h (by simp)
      · obtain ⟨rfl, -⟩ := Prod.mk.inj (Option.some.inj h)
        exact .array (by simp)
      · obtain ⟨read, hread, h⟩ := Option.map_eq_some_iff.mp h
        obtain ⟨rfl, -⟩ := Prod.mk.inj h
        exact .array (ih.items hread)
  · split at h
    · exact absurd h (by simp)
    · split at h
      · obtain ⟨rfl, -⟩ := Prod.mk.inj (Option.some.inj h)
        exact .table (by simp)
      · obtain ⟨read, hread, h⟩ := Option.map_eq_some_iff.mp h
        obtain ⟨rfl, -⟩ := Prod.mk.inj h
        exact (ih.fields hread (by simp [Entries.Bounded])).toToml
  · exact bounded_of_readNumeric h

theorem items_succ (ih : ReadsBounded fuel) {items : List Toml}
    (h : readItems (fuel + 1) depth cs = some (items, rest)) : ∀ v ∈ items, Bounded v := by
  unfold readItems at h
  split at h
  · exact absurd h (by simp)
  · rename_i x after hread
    have hx := ih.value hread
    split at h
    · obtain ⟨rfl, -⟩ := Prod.mk.inj (Option.some.inj h)
      simpa using hx
    · split at h
      · obtain ⟨rfl, -⟩ := Prod.mk.inj (Option.some.inj h)
        simpa using hx
      · obtain ⟨read, hitems, h⟩ := Option.map_eq_some_iff.mp h
        obtain ⟨rfl, -⟩ := Prod.mk.inj h
        exact List.forall_mem_cons.mpr ⟨hx, ih.items hitems⟩
      · exact absurd h (by simp)
    · exact absurd h (by simp)

theorem fields_succ (ih : ReadsBounded fuel) {seen entries : Entries}
    (h : readFields (fuel + 1) depth seen cs = some (entries, rest)) (hseen : seen.Bounded) :
    entries.Bounded := by
  unfold readFields at h
  split at h
  · exact absurd h (by simp)
  · split at h
    · exact absurd h (by simp)
    · rename_i value after hread
      obtain ⟨start, -, hvalue⟩ := Option.bind_eq_some_iff.mp hread
      have hkeeps := Entries.keeps_define (ih.value hvalue)
      split at h
      · rename_i next _ hdefine _
        obtain ⟨rfl, -⟩ := Prod.mk.inj (Option.some.inj h)
        exact hkeeps _ seen hseen _ hdefine
      · rename_i next _ hdefine _
        exact ih.fields h (hkeeps _ seen hseen _ hdefine)
      · exact absurd h (by simp)

end ReadsBounded

theorem readsBounded (fuel : Nat) : ReadsBounded fuel := by
  induction fuel with
  | zero =>
    exact ⟨fun h => absurd h (by simp [readValue]), fun h => absurd h (by simp [readItems]),
      fun h => absurd h (by simp [readFields])⟩
  | succ fuel ih => exact ⟨ih.value_succ, ih.items_succ, ih.fields_succ⟩

/-! ## Whole documents -/

theorem bounded_of_readHeader {d e : Document} (hd : d.root.Bounded)
    (h : readHeader d cs = some (e, rest)) : e.root.Bounded := by
  unfold readHeader at h
  split at h
  · split at h
    · split at h
      · rename_i opened _ hopen _
        obtain ⟨rfl, -⟩ := Prod.mk.inj (Option.some.inj h)
        obtain ⟨root, hroot, rfl⟩ := Option.map_eq_some_iff.mp hopen
        exact Entries.keeps_openElement _ _ hd _ hroot
      · exact absurd h (by simp)
    · exact absurd h (by simp)
  · split at h
    · split at h
      · rename_i opened _ hopen _
        obtain ⟨rfl, -⟩ := Prod.mk.inj (Option.some.inj h)
        obtain ⟨root, hroot, rfl⟩ := Option.map_eq_some_iff.mp hopen
        exact Entries.keeps_openTable _ _ hd _ hroot
      · exact absurd h (by simp)
    · exact absurd h (by simp)
  · exact absurd h (by simp)

theorem bounded_of_readDefinition {d e : Document} (hd : d.root.Bounded)
    (h : readDefinition d cs = some (e, rest)) : e.root.Bounded := by
  unfold readDefinition at h
  split at h
  · exact absurd h (by simp)
  · split at h
    · exact absurd h (by simp)
    · rename_i value after hread
      obtain ⟨start, -, hvalue⟩ := Option.bind_eq_some_iff.mp hread
      have hbounded := (readsBounded _).value hvalue
      split at h
      · rename_i defined _ hdefine _
        obtain ⟨rfl, -⟩ := Prod.mk.inj (Option.some.inj h)
        obtain ⟨root, hroot, rfl⟩ := Option.map_eq_some_iff.mp hdefine
        exact Entries.keeps_within (Entries.keeps_define hbounded _) _ _ hd _ hroot
      · exact absurd h (by simp)

theorem bounded_of_readDocument {fuel : Nat} {d e : Document} (hd : d.root.Bounded)
    (h : readDocument fuel d cs = some e) : e.root.Bounded := by
  induction fuel generalizing d cs with
  | zero => exact absurd h (by simp [readDocument])
  | succ fuel ih =>
    unfold readDocument at h
    split at h
    · exact Option.some.inj h ▸ hd
    · obtain ⟨after, -, hafter⟩ := Option.bind_eq_some_iff.mp h
      exact ih hd hafter
    · exact ih hd h
    · obtain ⟨after, -, hafter⟩ := Option.bind_eq_some_iff.mp h
      exact ih hd hafter
    · obtain ⟨⟨next, after⟩, hheader, hafter⟩ := Option.bind_eq_some_iff.mp h
      exact ih (bounded_of_readHeader hd hheader) hafter
    · obtain ⟨⟨next, after⟩, hdefinition, hafter⟩ := Option.bind_eq_some_iff.mp h
      exact ih (bounded_of_readDefinition hd hdefinition) hafter

/-- Whatever text is read, all integers in it have 64 bits with a sign. -/
theorem bounded_of_read {text : String} (h : read text = some v) : Bounded v := by
  simp only [read] at h
  obtain ⟨d, hd, rfl⟩ := Option.map_eq_some_iff.mp h
  exact (bounded_of_readDocument (by simp [Entries.Bounded]) hd).toToml

end ContentConsole.Toml
