import ContentConsole.Proofs.Decimal.Retyped
import ContentConsole.Toml.Scalar

set_option autoImplicit false
set_option relaxedAutoImplicit false

/-!
The digits of a number, written at the end of a line, are read as this number. They could start a
date, a time or a number with a fraction, which are tried first; none of these goes on with a line
end. Main statement: `readNumeric_toDigits`.
-/
namespace ContentConsole.Toml

open Text (isDigit digitsValue)

variable {ds rest : List Char}

theorem readDigits_append (hds : ∀ d ∈ ds, isDigit d = true) (hne : ds ≠ []) :
    readDigits isDigit (ds ++ '\n' :: rest) = some (ds, '\n' :: rest) := by
  induction ds with
  | nil => exact absurd rfl hne
  | cons d ds ih =>
    obtain ⟨hd, hds⟩ := List.forall_mem_cons.mp hds
    cases ds with
    | nil =>
      have hfeed : readDigits isDigit ('\n' :: rest) = none := by
        unfold readDigits
        rfl
      simp [readDigits, hd, hfeed]
    | cons e ds =>
      have hunderscore : e ≠ '_' := by
        rintro rfl
        exact absurd (hds '_' List.mem_cons_self) (by decide)
      have hrest := ih hds (List.cons_ne_nil e ds)
      rw [List.cons_append] at hrest
      simp [readDigits, hd, hrest, hunderscore]

theorem eq_zero_of_toDigits_eq_cons {n : Nat} (h : Nat.toDigits 10 n = '0' :: ds) : n = 0 := by
  induction n using Nat.strongRecOn generalizing ds with
  | ind n ih =>
    by_cases hlt : n < 10
    · rw [Nat.toDigits_of_lt_base hlt] at h
      exact Nat.digitChar_eq_zero.mp (List.cons.inj h).1
    · obtain ⟨d, es, hcons⟩ :=
        List.exists_cons_of_ne_nil (Nat.toDigits_ne_nil (n := n / 10) (b := 10))
      rw [Nat.toDigits_of_base_le (by decide) (by omega), hcons, List.cons_append] at h
      rw [(List.cons.inj h).1] at hcons
      have hzero := ih (n / 10) (by omega) hcons
      omega

theorem readWhole_toDigits (n : Nat) (rest : List Char) :
    readWhole (Nat.toDigits 10 n ++ '\n' :: rest) = some (Nat.toDigits 10 n, '\n' :: rest) := by
  by_cases hzero : n = 0
  · subst n
    rfl
  · rw [readWhole]
    · exact readDigits_append (fun d hd => Text.isDigit_of_mem_toDigits hd) Nat.toDigits_ne_nil
    · intro after hafter
      obtain ⟨d, ds, hcons⟩ := List.exists_cons_of_ne_nil (Nat.toDigits_ne_nil (n := n) (b := 10))
      rw [hcons, List.cons_append] at hafter
      rw [(List.cons.inj hafter).1] at hcons
      exact hzero (eq_zero_of_toDigits_eq_cons hcons)

theorem takeSign_append (hds : ∀ d ∈ ds, isDigit d = true) (hne : ds ≠ []) :
    takeSign (ds ++ '\n' :: rest) = (false, ds ++ '\n' :: rest) := by
  obtain ⟨d, ds, rfl⟩ := List.exists_cons_of_ne_nil hne
  have hd := hds d List.mem_cons_self
  rw [List.cons_append, takeSign]
  · intro after h
    rw [(List.cons.inj h).1] at hd
    exact absurd hd (by decide)
  · intro after h
    rw [(List.cons.inj h).1] at hd
    exact absurd hd (by decide)

/-! ## Neither a date nor a fraction -/

theorem expect_of_readField {count n : Nat} {c : Char} {after : List Char}
    (hds : ∀ d ∈ ds, isDigit d = true) (hc : isDigit c = false) (hfeed : c ≠ '\n')
    (h : readField count (ds ++ '\n' :: rest) = some (n, after)) : expect c after = none := by
  simp only [readField] at h
  split at h
  · rename_i hfield
    simp only [Bool.and_eq_true, decide_eq_true_eq, List.all_eq_true] at hfield
    have hlength : count ≤ ds.length := by
      by_contra hlong
      have hmem : '\n' ∈ (ds ++ '\n' :: rest).take count := by
        rw [List.take_append, List.mem_append]
        obtain ⟨k, hk⟩ : ∃ k, count - ds.length = k + 1 := ⟨count - ds.length - 1, by omega⟩
        exact .inr (by simp [hk])
      exact absurd (hfield.2 _ hmem) (by decide)
    rw [List.drop_append_of_le_length hlength, Option.some.injEq, Prod.mk.injEq] at h
    obtain ⟨-, rfl⟩ := h
    cases hdrop : ds.drop count with
    | nil => simp [expect, hfeed.symm]
    | cons d tail =>
      have hd := hds d (List.mem_of_mem_drop (hdrop ▸ List.mem_cons_self))
      have hne : d ≠ c := by
        rintro rfl
        rw [hd] at hc
        exact absurd hc (by decide)
      simp [expect, hne]
  · exact absurd h (by simp)

theorem readMoment_append (hds : ∀ d ∈ ds, isDigit d = true) :
    readMoment (ds ++ '\n' :: rest) = none := by
  have hdate : readDate (ds ++ '\n' :: rest) = none := by
    cases hyear : readField 4 (ds ++ '\n' :: rest) with
    | none => simp [readDate, hyear]
    | some read =>
      simp [readDate, hyear, expect_of_readField hds (c := '-') (by decide) (by decide) hyear]
  have htime : readTime (ds ++ '\n' :: rest) = none := by
    cases hhour : readField 2 (ds ++ '\n' :: rest) with
    | none => simp [readTime, readClock, hhour]
    | some read =>
      simp [readTime, readClock, hhour,
        expect_of_readField hds (c := ':') (by decide) (by decide) hhour]
  simp [readMoment, hdate, htime]

theorem readFloat_toDigits (n : Nat) (rest : List Char) :
    readFloat (Nat.toDigits 10 n ++ '\n' :: rest) = none := by
  have hds : ∀ d ∈ Nat.toDigits 10 n, isDigit d = true :=
    fun d hd => Text.isDigit_of_mem_toDigits hd
  have hsign : takeSign (Nat.toDigits 10 n ++ '\n' :: rest) =
      (false, Nat.toDigits 10 n ++ '\n' :: rest) :=
    takeSign_append hds Nat.toDigits_ne_nil
  have hwhole := readWhole_toDigits n rest
  obtain ⟨d, es, hcons⟩ := List.exists_cons_of_ne_nil (Nat.toDigits_ne_nil (n := n) (b := 10))
  have hd := hds d (hcons ▸ List.mem_cons_self)
  rw [hcons, List.cons_append] at hsign hwhole
  rw [hcons, List.cons_append, readFloat, hsign]
  dsimp only
  split
  · rename_i h
    rw [(List.cons.inj h).1] at hd
    exact absurd hd (by decide)
  · rename_i h
    rw [(List.cons.inj h).1] at hd
    exact absurd hd (by decide)
  · rw [hwhole]
    simp [readFraction, readPower]

theorem readInteger_toDigits {n : Nat} (h : fits n = true) (rest : List Char) :
    readInteger (Nat.toDigits 10 n ++ '\n' :: rest) = some (.integer n, '\n' :: rest) := by
  have hds : ∀ d ∈ Nat.toDigits 10 n, isDigit d = true :=
    fun d hd => Text.isDigit_of_mem_toDigits hd
  have hbase : ∀ mark after, mark ≠ '\n' →
      Nat.toDigits 10 n ++ '\n' :: rest ≠ '0' :: mark :: after := by
    intro mark after hfeed heq
    obtain ⟨d, es, hcons⟩ := List.exists_cons_of_ne_nil (Nat.toDigits_ne_nil (n := n) (b := 10))
    have hhead : d = '0' := by
      rw [hcons, List.cons_append] at heq
      exact (List.cons.inj heq).1
    obtain rfl : n = 0 := eq_zero_of_toDigits_eq_cons (hhead ▸ hcons)
    simp [Ne.symm hfeed] at heq
  rw [readInteger, takeSign_append hds Nat.toDigits_ne_nil]
  · dsimp only
    rw [readWhole_toDigits]
    simp [signed, Text.digitsValue_toDigits, h]
  · exact fun after => hbase 'x' after (by decide)
  · exact fun after => hbase 'o' after (by decide)
  · exact fun after => hbase 'b' after (by decide)

theorem readNumeric_toDigits {n : Nat} (h : fits n = true) (rest : List Char) :
    readNumeric (Nat.toDigits 10 n ++ '\n' :: rest) = some (.integer n, '\n' :: rest) := by
  have hds : ∀ d ∈ Nat.toDigits 10 n, isDigit d = true :=
    fun d hd => Text.isDigit_of_mem_toDigits hd
  rw [readNumeric, readMoment_append hds, readFloat_toDigits, readInteger_toDigits h]
  rfl

end ContentConsole.Toml
