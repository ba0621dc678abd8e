import ContentConsole.Inspector.Control
import Mathlib.Data.List.TakeWhile
import Mathlib.Data.Nat.Digits.Defs

set_option autoImplicit false
set_option relaxedAutoImplicit false

/-!
Integers read back from their own text. Main statements: `typedInteger?_writeInt`, by which an
integer of 64 bits with a sign is read exactly, and `typedDouble?_toDigits`, by which an integer
that needs all 64 bits without a sign is read as the double next to it.
-/
namespace ContentConsole

namespace Text

theorem isDigit_of_mem_toDigits {n : Nat} {c : Char}
    (hc : c ∈ Nat.toDigits 10 n) : isDigit c = true :=
  Nat.isDigit_of_mem_toDigits (by decide) (by decide) hc

theorem digitsValue_toDigits (n : Nat) : digitsValue (Nat.toDigits 10 n) = n := by
  have hstep : (fun n c => n * 10 + digitValue c) = fun n c => 10 * n + (c.toNat - '0'.toNat) := by
    funext n c
    rw [Nat.mul_comm]
    rfl
  have hvalue : digitsValue (Nat.toDigits 10 n) = Nat.ofDigitChars 10 (Nat.toDigits 10 n) 0 := by
    rw [digitsValue, hstep]
    rfl
  rw [hvalue, Nat.ofDigitChars_ten_toDigits]

theorem isBlank_of_isDigit {c : Char} (hc : isDigit c = true) : isBlank c = false := by
  have hrange : 48 ≤ c.toNat ∧ c.toNat ≤ 57 := by
    simpa [isDigit, Char.le_def, UInt32.le_iff_toNat_le] using hc
  simp [isBlank]
  omega

theorem trim_ofList {cs : List Char} (hcs : ∀ c ∈ cs, isBlank c = false) :
    trim (String.ofList cs) = String.ofList cs := by
  have hkeep : ∀ ds : List Char, (∀ c ∈ ds, isBlank c = false) → ds.dropWhile isBlank = ds := by
    intro ds hds
    refine List.dropWhile_eq_self_iff.mpr fun hlength => ?_
    simp [hds _ (List.getElem_mem hlength)]
  have hreverse : cs.reverse.dropWhile isBlank = cs.reverse :=
    hkeep _ fun c hc => hcs c (List.mem_reverse.mp hc)
  rw [trim, trimStart, String.toList_ofList, hkeep cs hcs, trimEnd, hreverse, List.reverse_reverse]

end Text

namespace Decimal

open Text (isDigit digitsValue)

theorem takeSign_of_isDigit {cs : List Char} (hcs : ∀ c ∈ cs, isDigit c = true) :
    takeSign cs = (false, cs) := by
  unfold takeSign
  split
  · exact absurd (hcs '-' (List.mem_cons_self ..)) (by decide)
  · exact absurd (hcs '+' (List.mem_cons_self ..)) (by decide)
  · rfl

theorem takeSign_writeInt (n : Int) :
    takeSign (Json.writeInt n) = (decide (n < 0), Nat.toDigits 10 n.natAbs) := by
  rw [Json.writeInt]
  split
  · rename_i hneg
    rw [takeSign, decide_eq_true hneg]
  · rename_i hpos
    rw [takeSign_of_isDigit fun c hc => Text.isDigit_of_mem_toDigits hc, decide_eq_false hpos]

/-- The text of an integer is read as this integer, if a sign and 63 bits hold it. -/
theorem typedInteger?_writeInt (n : Int) : typedInteger? (Json.writeInt n) =
    if -Int.pow 2 63 ≤ n && n < Int.pow 2 63 then some n else none := by
  have hne : (Nat.toDigits 10 n.natAbs).isEmpty = false := by simp
  have hall : (Nat.toDigits 10 n.natAbs).all isDigit = true :=
    List.all_eq_true.mpr fun c hc => Text.isDigit_of_mem_toDigits hc
  have hvalue : (if decide (n < 0) = true then -(n.natAbs : Int) else (n.natAbs : Int)) = n := by
    simp only [decide_eq_true_eq]
    split <;> omega
  rw [typedInteger?, takeSign_writeInt]
  dsimp only
  rw [hne, hall, Text.digitsValue_toDigits]
  simp only [Bool.not_true, Bool.or_self, Bool.false_eq_true, if_false, hvalue]

theorem roundHalfEven_le (num den : Nat) : roundHalfEven num den ≤ num / den + 1 := by
  rw [roundHalfEven]
  repeat' split
  all_goals omega

namespace Binary64

theorem floorLog2_one {n : Nat} (hlow : 2 ^ 63 ≤ n) (hhigh : n < 2 ^ 64) : floorLog2 n 1 = 63 := by
  have hne : n ≠ 0 := by omega
  have hge : 63 ≤ n.log2 := (Nat.le_log2 hne).mpr hlow
  have hlt : n.log2 < 64 := (Nat.log2_lt hne).mpr hhigh
  have hlog : n.log2 = 63 := by omega
  have hone : Nat.log2 1 = 0 := by decide
  have hle : 1 * Nat.pow 2 63 ≤ n * Nat.pow 2 0 := by
    rw [Nat.one_mul, Nat.pow_eq, Nat.pow_eq, Nat.pow_zero, Nat.mul_one]
    exact hlow
  rw [floorLog2, hlog, hone]
  exact if_pos hle

theorem ofNat_lt_infinite {n : Nat} (hlow : 2 ^ 63 ≤ n)
    (hhigh : n < 2 ^ 64) : ofNat n < infinite := by
  have hne : n ≠ 0 := by omega
  have hrounded := roundHalfEven_le (n * Nat.pow 2 0) (1 * Nat.pow 2 11)
  have hquotient : n * Nat.pow 2 0 / (1 * Nat.pow 2 11) + 1 ≤ 2 ^ 53 + 1 := by
    simp only [Nat.pow_eq, Nat.pow_zero, Nat.mul_one, Nat.one_mul]
    omega
  have hsum : 1085 * Nat.pow 2 52 + (2 ^ 53 + 1) < infinite := by decide
  rw [ofNat, nearest, if_neg hne, floorLog2_one hlow hhigh]
  refine Nat.lt_of_le_of_lt (Nat.min_le_left _ _) (Nat.lt_of_le_of_lt ?_ hsum)
  exact Nat.add_le_add_left (Nat.le_trans hrounded hquotient) _

end Binary64

/-- An integer that needs all 64 bits is read as the double next to it. -/
theorem typedDouble?_toDigits {n : Nat} (hlow : 2 ^ 63 ≤ n) (hhigh : n < 2 ^ 64) :
    typedDouble? (Nat.toDigits 10 n) = some (Binary64.ofMagnitude false (Binary64.ofNat n)) := by
  have hdigit : ∀ c ∈ Nat.toDigits 10 n, isDigit c = true :=
    fun c hc => Text.isDigit_of_mem_toDigits hc
  have htake : (Nat.toDigits 10 n).takeWhile isDigit = Nat.toDigits 10 n :=
    List.takeWhile_eq_self_iff.mpr hdigit
  have hdrop : (Nat.toDigits 10 n).dropWhile isDigit = [] := List.dropWhile_eq_nil_iff.mpr hdigit
  have hlength : (Nat.toDigits 10 n).length ≤ 20 :=
    Nat.toDigits_length 10 n 20 (by decide) (by omega)
  have hvalue : Binary64.ofDecimal n 0 = Binary64.ofNat n := by
    rw [Binary64.ofDecimal, if_neg (by omega), if_neg (by omega), if_neg (by omega)]
    simp [Binary64.ofNat]
  have hempty : ((Nat.toDigits 10 n).isEmpty && ([] : List Char).isEmpty) = false := by simp
  have hfinite := Binary64.ofNat_lt_infinite hlow hhigh
  rw [typedDouble?, takeSign_of_isDigit hdigit]
  dsimp only
  rw [htake, hdrop]
  dsimp only
  rw [hempty, List.append_nil, Text.digitsValue_toDigits]
  change (if Binary64.ofDecimal n 0 < Binary64.infinite then
    some (Binary64.ofMagnitude false (Binary64.ofDecimal n 0)) else none) = _
  rw [hvalue, if_pos hfinite]

end Decimal

end ContentConsole
