import ContentConsole.Proofs.Toml.Numeral
import ContentConsole.Proofs.Toml.Quoting
import ContentConsole.Toml.Reader

set_option autoImplicit false
set_option relaxedAutoImplicit false

/-!
Documents that are written line by line: headers of tables, and keys of one part with a value that
ends its line. A value is known here by the text that is read as it at the end of a line
(`Writes`), so what a table holds can be read off its lines. Main statements:
`readDocument_header` and `readDocument_lines`.
-/
namespace ContentConsole.Toml

variable {rest : List Char} {fuel : Nat}

/-! ## Values at the end of a line -/

/-- A text which is read as a value when a line ends behind it. -/
structure Writes (written : List Char) (v : Toml) : Prop where
  skipSpace_eq : ∀ rest, skipSpace (written ++ rest) = written ++ rest
  read : ∀ fuel depth rest, readValue (fuel + 1) depth (written ++ '\n' :: rest) =
    some (v, '\n' :: rest)

theorem skipSpace_of_not_isSpace {c : Char} (h : isSpace c = false) (cs : List Char) :
    skipSpace (c :: cs) = c :: cs := by
  rw [skipSpace, List.dropWhile_cons_of_neg (by simp [h])]

theorem writeText_eq_cons (s : String) : ∃ c cs, writeText s = c :: cs ∧ (c = '"' ∨ c = '\'') := by
  simp only [writeText, triple]
  split_ifs
  all_goals exact ⟨_, _, rfl, by decide⟩

theorem writes_text (s : String) : Writes (writeText s) (.text s) := by
  obtain ⟨c, cs, hcons, hquote⟩ := writeText_eq_cons s
  constructor
  · intro rest
    rw [hcons]
    exact skipSpace_of_not_isSpace (by obtain rfl | rfl := hquote <;> decide) _
  · intro fuel depth rest
    have hread : readText (writeText s ++ '\n' :: rest) = some (s, '\n' :: rest) :=
      readText_writeText (by simp) (by simp) s
    rw [hcons, List.cons_append] at hread ⊢
    obtain rfl | rfl := hquote
    all_goals
      rw [readValue, hread]
      rfl

theorem ne_of_isBareKey {c x : Char} (hc : isBareKey c = true) (hx : isBareKey x = false) : c ≠ x :=
  ne_of_apply_ne isBareKey (by rw [hc, hx]; decide)

theorem isBareKey_of_isDigit {c : Char} (h : Text.isDigit c = true) : isBareKey c = true := by
  simp only [Text.isDigit] at h
  simp [isBareKey, h]

theorem isSpace_of_isBareKey {c : Char} (h : isBareKey c = true) : isSpace c = false := by
  simp [isSpace, ne_of_isBareKey h (x := ' ') (by decide),
    ne_of_isBareKey h (x := '\t') (by decide)]

theorem writes_integer {n : Nat} (h : fits n = true) : Writes (Nat.toDigits 10 n) (.integer n) := by
  obtain ⟨d, es, hcons⟩ := List.exists_cons_of_ne_nil (Nat.toDigits_ne_nil (n := n) (b := 10))
  have hd : Text.isDigit d = true := Text.isDigit_of_mem_toDigits (hcons ▸ List.mem_cons_self)
  have hbare := isBareKey_of_isDigit hd
  constructor
  · intro rest
    rw [hcons]
    exact skipSpace_of_not_isSpace (isSpace_of_isBareKey hbare) _
  · intro fuel depth rest
    have hread := readNumeric_toDigits h rest
    have hne : ∀ x, Text.isDigit x = false → d ≠ x := by
      rintro x hx rfl
      rw [hd] at hx
      exact absurd hx (by decide)
    rw [hcons, List.cons_append] at hread ⊢
    rw [readValue, hread]
    all_goals
      rintro after heq
      exact hne _ (by decide) (List.cons.inj heq).1

theorem writes_true : Writes ['t', 'r', 'u', 'e'] (.boolean true) :=
  ⟨fun _ => rfl, fun _ _ _ => by simp [readValue]⟩

theorem writes_false : Writes ['f', 'a', 'l', 's', 'e'] (.boolean false) :=
  ⟨fun _ => rfl, fun _ _ _ => by simp [readValue]⟩

/-! ## Keys of one part -/

def IsBare (key : String) : Prop := key.toList ≠ [] ∧ ∀ c ∈ key.toList, isBareKey c = true

instance (key : String) : Decidable (IsBare key) :=
  decidable_of_iff (key.toList ≠ [] ∧ key.toList.all isBareKey = true)
    (and_congr_right' List.all_eq_true)

theorem readKey_bare {key : String} {stop : Char} (hkey : IsBare key)
    (hstop : isBareKey stop = false) (hdot : ∀ after, skipSpace (stop :: rest) ≠ '.' :: after) :
    readKey (key.toList ++ stop :: rest) = some ([key], skipSpace (stop :: rest)) := by
  obtain ⟨c, cs, hcons⟩ := List.exists_cons_of_ne_nil hkey.1
  have hc := hkey.2 c (hcons ▸ List.mem_cons_self)
  have htake : (key.toList ++ stop :: rest).takeWhile isBareKey = key.toList := by
    rw [List.takeWhile_append_of_pos hkey.2, List.takeWhile_cons_of_neg (by simp [hstop]),
      List.append_nil]
  have hdrop : (key.toList ++ stop :: rest).dropWhile isBareKey = stop :: rest := by
    rw [List.dropWhile_append_of_pos hkey.2, List.dropWhile_cons_of_neg (by simp [hstop])]
  have hpart : readKeyPart (key.toList ++ stop :: rest) = some (key, stop :: rest) := by
    rw [readKeyPart, htake, hdrop]
    · simp [hkey.1]
    all_goals
      intro after heq
      rw [hcons] at heq
      exact ne_of_isBareKey hc (by decide) (List.cons.inj heq).1
  have hskip : skipSpace (key.toList ++ stop :: rest) = key.toList ++ stop :: rest := by
    rw [hcons]
    exact skipSpace_of_not_isSpace (isSpace_of_isBareKey hc) _
  rw [readKey, show depthLimit - 1 = 78 + 1 from rfl, readKeyParts, hskip, hpart]
  dsimp only
  split
  · rename_i after heq
    exact absurd heq (hdot after)
  · rfl

/-! ## The tables of a document -/

/-- The text of a key and its value on a line of their own. -/
structure Line where
  key : String
  written : List Char
  value : Toml

namespace Line

def text (l : Line) : List Char := l.key.toList ++ ' ' :: '=' :: ' ' :: l.written ++ ['\n']

def entry (l : Line) : String × Item := (l.key, .value l.value)

/-- The line can be read: its key needs no quotes, and its text stands for its value. -/
structure Readable (l : Line) : Prop where
  bare : IsBare l.key
  writes : Writes l.written l.value

end Line

def Document.ofLast (before : Entries) (name : String) (inner : Entries) : Document :=
  ⟨before ++ [(name, .table .header inner)], [name]⟩

namespace Entries

theorem get?_eq_none {entries : Entries} {key : String} (h : key ∉ entries.map Prod.fst) :
    entries.get? key = none := by
  rw [get?, List.lookup_eq_none_iff]
  intro entry hmem
  simpa using ne_of_mem_of_not_mem (List.mem_map_of_mem hmem) h |>.symm

theorem get?_append_self {before : Entries} {name : String} (h : name ∉ before.map Prod.fst)
    (item : Item) : get? (before ++ [(name, item)]) name = some item := by
  have hnone : List.lookup name before = none := get?_eq_none h
  rw [get?, List.lookup_append, hnone, Option.none_or, List.lookup_cons_self]

theorem put_append {before : Entries} {name : String} (h : name ∉ before.map Prod.fst)
    (tail : Entries) (item : Item) :
    put name item (before ++ tail) = before ++ put name item tail := by
  induction before with
  | nil => rfl
  | cons entry before ih =>
    obtain ⟨hne, hbefore⟩ := not_or.mp (mt List.mem_cons.mpr h)
    rw [List.cons_append, put, if_neg (Ne.symm hne), ih hbefore, List.cons_append]

end Entries

theorem define_ofLast {before inner : Entries} {name key : String}
    (hname : name ∉ before.map Prod.fst) (hkey : key ∉ inner.map Prod.fst) (value : Toml) :
    (Document.ofLast before name inner).define [key] value =
      some (Document.ofLast before name (inner ++ [(key, .value value)])) := by
  simp [Document.define, Document.ofLast, Entries.within, Entries.enter,
    Entries.get?_append_self hname, Entries.define, Entries.get?_eq_none hkey,
    Entries.put_append hname, Entries.put]

theorem readTrailing_newline : readTrailing? ('\n' :: rest) = some rest := rfl

variable {before inner : Entries} {name : String} {l : Line}

theorem readDefinition_line (hl : l.Readable) (hname : name ∉ before.map Prod.fst)
    (hkey : l.key ∉ inner.map Prod.fst) :
    readDefinition (Document.ofLast before name inner) (l.text ++ rest) =
      some (Document.ofLast before name (inner ++ [l.entry]), rest) := by
  have hequals : readEquals ('=' :: ' ' :: (l.written ++ '\n' :: rest)) =
      some (l.written ++ '\n' :: rest) := by
    have hskip : skipSpace (' ' :: (l.written ++ '\n' :: rest)) = l.written ++ '\n' :: rest :=
      hl.writes.skipSpace_eq ('\n' :: rest)
    rw [readEquals, hskip]
  have htext : l.text ++ rest = l.key.toList ++ ' ' :: '=' :: ' ' ::
      (l.written ++ '\n' :: rest) := by
    simp [Line.text]
  have hstop : skipSpace (' ' :: '=' :: ' ' :: (l.written ++ '\n' :: rest)) =
      '=' :: ' ' :: (l.written ++ '\n' :: rest) := rfl
  rw [htext, readDefinition, readKey_bare hl.bare (by decide) (by simp [hstop]), hstop]
  dsimp only
  rw [hequals, Option.bind_some, hl.writes.read]
  dsimp only
  rw [define_ofLast hname hkey, readTrailing_newline]
  rfl

theorem readDocument_line (hl : l.Readable) (hname : name ∉ before.map Prod.fst)
    (hkey : l.key ∉ inner.map Prod.fst) :
    readDocument (fuel + 1) (Document.ofLast before name inner) (l.text ++ rest) =
      readDocument fuel (Document.ofLast before name (inner ++ [l.entry])) rest := by
  have hread : readDefinition (Document.ofLast before name inner) (l.text ++ rest) =
      some (Document.ofLast before name (inner ++ [l.entry]), rest) :=
        readDefinition_line hl hname hkey
  obtain ⟨c, cs, hcons⟩ := List.exists_cons_of_ne_nil hl.bare.1
  have hc := hl.bare.2 c (hcons ▸ List.mem_cons_self)
  have htext : ∃ tail, l.text ++ rest = c :: tail := ⟨_, by rw [Line.text, hcons]; rfl⟩
  obtain ⟨tail, htail⟩ := htext
  rw [htail] at hread ⊢
  have hne : ∀ {x : Char} {after : List Char}, isBareKey x = false → c :: tail ≠ x :: after :=
    fun hx heq => ne_of_isBareKey hc hx (List.cons.inj heq).1
  rw [readDocument, skipSpace_of_not_isSpace (isSpace_of_isBareKey hc)]
  split
  · rename_i heq
    exact absurd heq (List.cons_ne_nil c tail)
  · rename_i heq
    exact absurd heq (hne (by decide))
  · rename_i heq
    exact absurd heq (hne (by decide))
  · rename_i heq
    exact absurd heq (hne (by decide))
  · rename_i heq
    exact absurd heq (hne (by decide))
  · rw [hread]
    rfl

/-- The lines of a table are read one after the other, each into an entry at the end. -/
theorem readDocument_lines {lines : List Line} (hlines : ∀ l ∈ lines, l.Readable)
    (hname : name ∉ before.map Prod.fst)
    (hkeys : (inner.map Prod.fst ++ lines.map Line.key).Nodup) :
    readDocument (lines.length + fuel) (Document.ofLast before name inner)
        (lines.flatMap Line.text ++ rest) =
      readDocument fuel (Document.ofLast before name (inner ++ lines.map Line.entry)) rest := by
  induction lines generalizing inner with
  | nil => simp
  | cons l lines ih =>
    obtain ⟨hl, hlines⟩ := List.forall_mem_cons.mp hlines
    have hkey : l.key ∉ inner.map Prod.fst := fun h =>
      (List.nodup_append.mp hkeys).2.2 l.key h l.key List.mem_cons_self rfl
    have hrest := @ih (inner ++ [l.entry]) hlines (by simpa [Line.entry] using hkeys)
    rw [List.flatMap_cons, List.append_assoc, List.length_cons, Nat.add_right_comm,
      readDocument_line hl hname hkey, hrest, List.append_assoc, List.map_cons,
      List.singleton_append]

theorem length_le_length_flatMap_text (lines : List Line) :
    lines.length ≤ (lines.flatMap Line.text).length := by
  induction lines with
  | nil => exact Nat.le_refl 0
  | cons l lines ih =>
    simp only [List.flatMap_cons, List.length_append, List.length_cons, Line.text]
    omega

theorem readDocument_blank (d : Document) :
    readDocument (fuel + 1) d ('\n' :: rest) = readDocument fuel d rest := rfl

theorem readDocument_nil (d : Document) : readDocument (fuel + 1) d [] = some d := rfl

theorem readDocument_header {path : List String} (hbare : IsBare name)
    (hname : name ∉ before.map Prod.fst) :
    readDocument (fuel + 1) ⟨before, path⟩ ('[' :: (name.toList ++ ']' :: '\n' :: rest)) =
      readDocument fuel (Document.ofLast before name []) rest := by
  have hkey : readKey (name.toList ++ ']' :: '\n' :: rest) =
      some ([name], ']' :: '\n' :: rest) := by
    have hstop : skipSpace (']' :: '\n' :: rest) = ']' :: '\n' :: rest := rfl
    rw [readKey_bare hbare (by decide) (by simp [hstop]), hstop]
  have hopen : Document.openTable ⟨before, path⟩ [name] =
      some (Document.ofLast before name []) := by
    have hput := Entries.put_append hname [] (.table .header [])
    rw [List.append_nil] at hput
    simp [Document.openTable, Entries.openTable, Entries.get?_eq_none hname, hput, Entries.put,
      Document.ofLast]
  have hheader : readHeader ⟨before, path⟩ ('[' :: (name.toList ++ ']' :: '\n' :: rest)) =
      some (Document.ofLast before name [], rest) := by
    obtain ⟨c, cs, hcons⟩ := List.exists_cons_of_ne_nil hbare.1
    have hc := hbare.2 c (hcons ▸ List.mem_cons_self)
    rw [readHeader, hkey]
    · simp [hopen, readTrailing_newline]
    · intro after heq
      rw [hcons] at heq
      exact ne_of_isBareKey hc (by decide) (List.cons.inj heq).1
  have hstep : readDocument (fuel + 1) ⟨before, path⟩
      ('[' :: (name.toList ++ ']' :: '\n' :: rest)) =
      (readHeader ⟨before, path⟩ ('[' :: (name.toList ++ ']' :: '\n' :: rest))).bind
        fun read => readDocument fuel read.1 read.2 := rfl
  rw [hstep, hheader]
  rfl

end ContentConsole.Toml
