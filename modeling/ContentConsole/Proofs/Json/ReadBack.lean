import ContentConsole.Json.Reader
import ContentConsole.Json.Writer
import Mathlib.Data.List.DropRight

set_option autoImplicit false
set_option relaxedAutoImplicit false

/-!
What was written is read back. Every character of a string has one way of being written, and
the reader undoes it, whatever stands behind; the white space between values is passed over.
Main statements: `readText_flatMap_escaped`, the characters of a string, and
`readKey_writeText`, a key of an object.
-/
namespace ContentConsole.Json

theorem hexValue_digitChar {n : Nat} (h : n < 16) : Text.hexValue (Nat.digitChar n) = some n := by
  have hall : ∀ m : Fin 16, Text.hexValue (Nat.digitChar m) = some m.val := by decide
  exact hall ⟨n, h⟩

theorem hexValue4_digitChar {n : Nat} (h : n < 0x20) :
    hexValue4 '0' '0' (Nat.digitChar (n / 16)) (Nat.digitChar (n % 16)) = some n := by
  have hzero : Text.hexValue '0' = some 0 := by decide
  have hhigh := hexValue_digitChar (n := n / 16) (by omega)
  have hlow := hexValue_digitChar (n := n % 16) (by omega)
  have hsum : n / 16 * 16 + n % 16 = n := by omega
  simp [hexValue4, hzero, hhigh, hlow, hsum]

theorem readText_control {c : Char} (h : c.toNat < 0x20) (rest : List Char) :
    readText
      ('\\' :: 'u' :: '0' :: '0' :: Nat.digitChar (c.toNat / 16) :: Nat.digitChar (c.toNat % 16) ::
      rest) = consText c (readText rest) := by
  have htrailing : isTrailing c.toNat = false := by simp [isTrailing]; omega
  have hleading : isLeading c.toNat = false := by simp [isLeading]; omega
  rw [readText]
  simp [hexValue4_digitChar h, htrailing, hleading]

theorem readText_plain {c : Char} (hquote : c ≠ '"') (hslash : c ≠ '\\')
    (hcontrol : ¬ c.toNat < 0x20) (rest : List Char) :
    readText (c :: rest) = consText c (readText rest) := by
  rw [readText, if_neg hcontrol]
  all_goals simp_all

theorem readText_escaped_append (c : Char) (rest : List Char) :
    readText (escaped c ++ rest) = consText c (readText rest) := by
  unfold escaped
  -- Seven characters have a mark of their own behind the backslash.
  iterate 7
    split
    · subst c
      rfl
  split
  · rename_i hcontrol
    exact readText_control hcontrol rest
  · rename_i hquote hslash _ _ _ _ _ hcontrol
    exact readText_plain hquote hslash hcontrol rest

/-- The characters of a string are read up to its closing quote. -/
theorem readText_flatMap_escaped (s rest : List Char) :
    readText (s.flatMap escaped ++ '"' :: rest) = .ok (s, rest) := by
  induction s with
  | nil => rfl
  | cons c s ih => rw [List.flatMap_cons, List.append_assoc, readText_escaped_append, ih, consText]

theorem writeText_append (s rest : List Char) :
    writeText s ++ rest = '"' :: (s.flatMap escaped ++ '"' :: rest) := by
  simp [writeText]

/-! White space, and what stands between values. -/

theorem skipSpace_skipSpace (cs : List Char) : skipSpace (skipSpace cs) = skipSpace cs :=
  List.dropWhile_idempotent isSpace cs

theorem skipSpace_cons {c : Char} (h : isSpace c = false) (rest : List Char) :
    skipSpace (c :: rest) = c :: rest := by
  have hneg : ¬ isSpace c = true := by simp [h]
  rw [skipSpace, List.dropWhile_cons_of_neg hneg]

theorem skipSpace_space (cs : List Char) : skipSpace (' ' :: cs) = skipSpace cs :=
  List.dropWhile_cons_of_pos rfl

theorem skipSpace_writeText (s rest : List Char) :
    skipSpace (writeText s ++ rest) = writeText s ++ rest := by
  rw [writeText_append, skipSpace_cons rfl]

theorem skipSpace_newLine_append (depth : Nat) (rest : List Char) :
    skipSpace (newLine depth ++ rest) = skipSpace rest := by
  have hblank : ∀ c ∈ newLine depth, isSpace c = true := by
    intro c hc
    rcases List.mem_cons.mp hc with rfl | hc
    · rfl
    · rw [List.eq_of_mem_replicate hc]
      rfl
  exact List.dropWhile_append_of_pos hblank

theorem readKey_writeText (name : String) (rest : List Char) :
    readKey (writeText name.toList ++ ':' :: rest) = .ok (name, rest) := by
  rw [writeText_append, readKey, readText_flatMap_escaped]
  simp [skipSpace_cons (c := ':') rfl]

theorem nextField_comma {cs tail : List Char} {c : Char} (h : skipSpace cs = c :: tail)
    (hc : c ≠ '\x7d') : nextField (',' :: cs) = .ok (true, c :: tail) := by
  simp only [nextField, skipSpace_cons (c := ',') rfl, h]
  split
  · simp_all
  · simp_all
  · rfl

theorem nextField_brace (depth : Nat) (rest : List Char) :
    nextField (newLine depth ++ '\x7d' :: rest) = .ok (false, rest) := by
  rw [nextField, skipSpace_newLine_append, skipSpace_cons rfl]
  rfl

theorem nextItem_comma {cs tail : List Char} {c : Char} (h : skipSpace cs = c :: tail)
    (hc : c ≠ ']') : nextItem (',' :: cs) = .ok (true, c :: tail) := by
  simp only [nextItem, skipSpace_cons (c := ',') rfl, h]
  split
  · simp_all
  · simp_all
  · rfl

theorem nextItem_bracket (depth : Nat) (rest : List Char) :
    nextItem (newLine depth ++ ']' :: rest) = .ok (false, rest) := by
  rw [nextItem, skipSpace_newLine_append, skipSpace_cons rfl]
  rfl

end ContentConsole.Json
