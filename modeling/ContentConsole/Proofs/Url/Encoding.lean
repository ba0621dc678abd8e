import ContentConsole.Url.Encoding
import Mathlib.Algebra.GroupWithZero.Nat
import Mathlib.Data.List.Basic

set_option autoImplicit false
set_option relaxedAutoImplicit false

/-!
How long a text gets when it is encoded. Encoding more characters never gives a shorter text, and a
part of a text is encoded shorter than the whole. Main statements: `eq_of_sublist_of_length_le`, by
which a part that is as long as the whole is the whole, and `eq_of_imp_of_length_le`, by which two
sets that encode a text as long agree on it.
-/
namespace ContentConsole.Url

variable {p q : Char → Bool} {cs cs' : List Char}

def encodedSize (p : Char → Bool) (c : Char) : Nat := if p c then 3 * c.utf8Size else 1

theorem percentEncode_append :
    percentEncode p (cs ++ cs') = percentEncode p cs ++ percentEncode p cs' :=
  List.flatMap_append

theorem percentEncode_congr (h : ∀ c ∈ cs, p c = q c) : percentEncode p cs = percentEncode q cs :=
  List.flatMap_congr fun c hc => by rw [h c hc]

theorem percentEncode_eq_self (h : ∀ c ∈ cs, p c = false) : percentEncode p cs = cs := by
  rw [percentEncode_congr (q := fun _ => false) h]
  exact List.flatMap_singleton' cs

theorem length_percentByte (b : UInt8) : (percentByte b).length = 3 := rfl

theorem length_percentEncode_cons (c : Char) :
    (percentEncode p (c :: cs)).length = encodedSize p c + (percentEncode p cs).length := by
  rw [percentEncode, List.flatMap_cons, List.length_append, encodedSize]
  split
  · have hbytes : (List.map (fun b => (percentByte b).length) (String.utf8EncodeChar c)).sum =
        3 * c.utf8Size := by
      simp only [length_percentByte, List.map_const', List.sum_replicate_nat,
        String.length_utf8EncodeChar]
      exact Nat.mul_comm ..
    rw [List.length_flatMap, hbytes]
    rfl
  · rfl

theorem encodedSize_pos (c : Char) : 0 < encodedSize p c := by
  have hsize := c.utf8Size_pos
  rw [encodedSize]
  split <;> omega

theorem encodedSize_le (c : Char) (h : p c = true → q c = true) :
    encodedSize p c ≤ encodedSize q c := by
  have hsize := c.utf8Size_pos
  rw [encodedSize, encodedSize]
  split
  · rename_i hp
    exact Nat.le_of_eq (if_pos (h hp)).symm
  · split <;> omega

theorem length_percentEncode_sublist (h : cs'.Sublist cs) :
    (percentEncode p cs').length + cs.length ≤ (percentEncode p cs).length + cs'.length := by
  induction h with
  | slnil => exact Nat.le_refl _
  | cons c _ ih =>
    have hpos := encodedSize_pos (p := p) c
    rw [length_percentEncode_cons, List.length_cons]
    omega
  | cons_cons c _ ih =>
    rw [length_percentEncode_cons, length_percentEncode_cons, List.length_cons, List.length_cons]
    omega

theorem length_percentEncode_le_of_sublist (h : cs'.Sublist cs) :
    (percentEncode p cs').length ≤ (percentEncode p cs).length := by
  have hle := length_percentEncode_sublist (p := p) h
  have hlength := h.length_le
  omega

theorem eq_of_sublist_of_length_le (h : cs'.Sublist cs)
    (hlength : (percentEncode p cs).length ≤ (percentEncode p cs').length) : cs' = cs := by
  have hle := length_percentEncode_sublist (p := p) h
  exact h.eq_of_length_le (by omega)

theorem length_percentEncode_mono (h : ∀ c ∈ cs, p c = true → q c = true) :
    (percentEncode p cs).length ≤ (percentEncode q cs).length := by
  induction cs with
  | nil => exact Nat.le_refl _
  | cons c cs ih =>
    rw [length_percentEncode_cons, length_percentEncode_cons]
    exact Nat.add_le_add (encodedSize_le c (h c (List.mem_cons_self ..)))
      (ih fun d hd => h d (List.mem_cons_of_mem c hd))

theorem eq_of_imp_of_length_le (h : ∀ c ∈ cs, p c = true → q c = true)
    (hlength : (percentEncode q cs).length ≤ (percentEncode p cs).length) :
    ∀ c ∈ cs, p c = q c := by
  induction cs with
  | nil => nofun
  | cons c cs ih =>
    have hrest := fun d hd => h d (List.mem_cons_of_mem c hd)
    have hfirst := encodedSize_le (p := p) (q := q) c (h c (List.mem_cons_self ..))
    have hmono := length_percentEncode_mono hrest
    rw [length_percentEncode_cons, length_percentEncode_cons] at hlength
    have hsize : encodedSize q c = encodedSize p c := by omega
    rintro d hd
    rcases List.mem_cons.mp hd with rfl | hd
    · have hpos := d.utf8Size_pos
      rw [encodedSize, encodedSize] at hsize
      cases hp : p d with
      | true => exact (h d (List.mem_cons_self ..) hp).symm
      | false =>
        cases hq : q d with
        | true =>
          rw [if_pos hq, hp] at hsize
          simp only [Bool.false_eq_true, if_false] at hsize
          omega
        | false => rfl
    · exact ih hrest (by omega) d hd

/-! ## Segments -/

/-- The characters that are encoded in a text that is to be one segment
of a path and nothing else. -/
def inSegmentSet (c : Char) : Bool := inPathSet c || ['/', '%', '\\'].contains c

def asSegment (s : String) : String := String.ofList (percentEncode inSegmentSet s.toList)

theorem inSegmentSet_of_inPathSet {c : Char} (h : inPathSet c = true) : inSegmentSet c = true := by
  rw [inSegmentSet, h, Bool.true_or]

theorem inPathSet_eq_inSegmentSet {c : Char} (h : c ∉ ['/', '%', '\\']) :
    inPathSet c = inSegmentSet c := by
  have hother : ['/', '%', '\\'].contains c = false := by simpa using h
  rw [inSegmentSet, hother, Bool.or_false]

end ContentConsole.Url
