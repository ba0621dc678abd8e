import ContentConsole.Proofs.Decimal.Retyped
import ContentConsole.Proofs.Inspector.Row

set_option autoImplicit false
set_option relaxedAutoImplicit false

/-!
Leaving a row that was only looked at. The row is written back all the same, so what its text reads
as matters. Main statement: `blur_untouched`, by which a text, an absent value and an integer of 63
bits and a sign are written back as fetched, and only an integer that needs all 64 bits is not.
-/
namespace ContentConsole

namespace Json

/-- A value that is edited as text: a text, nothing, or an integer of 64
bits with or without a sign. -/
def IsTyped : Json → Prop
  | .null | .str _ => True
  | .number (.int n) => -2 ^ 63 ≤ n ∧ n < 2 ^ 64
  | .number (.double _) | .bool _ | .arr _ | .obj _ => False

def IsWide : Json → Prop
  | .number (.int n) => 2 ^ 63 ≤ n
  | .number (.double _) | .null | .str _ | .bool _ | .arr _ | .obj _ => False

/-- What is read back from the text of a value: a wide integer becomes the double next to it. -/
def reread : Json → Json
  | .number (.int n) =>
    if n < 2 ^ 63 then .number (.int n)
    else .number (.double (.ofMagnitude false (Decimal.Binary64.ofNat n.toNat)))
  | value => value

theorem reread_eq_self_iff (value : Json) : value.reread = value ↔ ¬value.IsWide := by
  match value with
  | .number (.int n) =>
    rw [reread, IsWide]
    split
    · rename_i hnarrow
      exact iff_of_true rfl (Int.not_le.mpr hnarrow)
    · rename_i hwide
      exact iff_of_false (by simp) (not_not.mpr (Int.not_lt.mp hwide))
  | .number (.double _) | .null | .str _ | .bool _ | .arr _ | .obj _ =>
    exact iff_of_true rfl not_false

theorem isBlank_of_mem_writeInt {n : Int} {c : Char} (hc : c ∈ writeInt n) :
    Text.isBlank c = false := by
  have hdigit : c ∈ Nat.toDigits 10 n.natAbs → Text.isBlank c = false :=
    fun h => Text.isBlank_of_isDigit (Text.isDigit_of_mem_toDigits h)
  rw [writeInt] at hc
  split at hc
  · rcases List.mem_cons.mp hc with rfl | hc
    · decide
    · exact hdigit hc
  · exact hdigit hc

theorem retyped_writeInt {n : Int} (hlow : -2 ^ 63 ≤ n) (hhigh : n < 2 ^ 64) :
    (Json.number (.int n)).retyped (String.ofList (writeInt n)) =
      (Json.number (.int n)).reread := by
  have htrim : (Text.trim (String.ofList (writeInt n))).toList = writeInt n := by
    rw [Text.trim_ofList fun c hc => isBlank_of_mem_writeInt hc, String.toList_ofList]
  rw [retyped, htrim, Decimal.typedInteger?_writeInt, reread]
  by_cases hnarrow : n < 2 ^ 63
  · rw [if_pos hnarrow, if_pos (by simpa using ⟨hlow, hnarrow⟩)]
  · rw [if_neg hnarrow, if_neg (by simpa using fun _ => Int.not_lt.mp hnarrow)]
    obtain ⟨m, rfl⟩ := Int.eq_ofNat_of_zero_le (show 0 ≤ n by omega)
    have hdigits : writeInt (m : Int) = Nat.toDigits 10 m := by
      rw [writeInt, if_neg (by omega)]
      rfl
    rw [hdigits, Decimal.typedDouble?_toDigits (by omega) (by omega)]
    rfl

theorem IsTyped.exists_input {value : Json} (hvalue : value.IsTyped) {key : String}
    (hkey : key ∉ Control.lockedKeys) :
    ∃ text, Control.ofProperty key value = .input text ∧ value.retyped text = value.reread := by
  have hcontrol : Control.ofProperty key value = .ofValue value := by
    rw [Control.ofProperty, if_neg]
    simpa using hkey
  rw [hcontrol]
  match value, hvalue with
  | .null, _ => exact ⟨"", rfl, rfl⟩
  | .str s, _ => exact ⟨s, rfl, rfl⟩
  | .number (.int n), hrange =>
    exact ⟨String.ofList (writeInt n), rfl, retyped_writeInt hrange.1 hrange.2⟩

end Json

/-- The row shows its value as it was fetched, and counts as unchanged. -/
structure PropertyRow.IsUntouched (row : PropertyRow) : Prop where
  control : row.control = .ofProperty row.key row.fetched
  isChanged : row.isChanged = false

namespace PropertyRow

theorem isUntouched_ofProperty (facet : Facet) (property : String × Json) :
    (PropertyRow.ofProperty facet property).IsUntouched := ⟨rfl, rfl⟩

end PropertyRow

namespace Inspector

/--
Looking at a row and leaving it writes one value back and reloads nothing. The value is the fetched
one, except that in the place of an integer that needs all 64 bits stands the double next to it.
-/
theorem blur_untouched {i : Inspector} {s : Inspection} (place : FieldRef) {row : PropertyRow}
    (hopen : i.inspection = some s) (hrow : s.row place = .ok row) (huntouched : row.IsUntouched)
    (hkey : row.key ∉ Control.lockedKeys) (hvalue : row.fetched.IsTyped) :
    ∃ text focused left, Control.ofProperty row.key row.fetched = .input text ∧
      row.fetched.retyped text = row.fetched.reread ∧ i.focus place = .ok focused ∧
        focused.blur place = .ok ([.setProperty s.entityId row.key row.fetched.reread], left) ∧
          (row.fetched.reread = row.fetched ↔ ¬row.fetched.IsWide) := by
  obtain ⟨text, hinput, hretyped⟩ := hvalue.exists_input hkey
  let activate (row : PropertyRow) : PropertyRow := { row with isActive := true }
  have hfocused : (s.changeRow place activate).row place = .ok (activate row) :=
    Inspection.row_changeRow (f := activate) (fun _ => rfl) hrow
  have hcommitted : (activate row).committed? = some row.fetched.reread := by
    have hcontrol : (activate row).control = .input text := huntouched.control.trans hinput
    rw [PropertyRow.committed?, hcontrol, ← hretyped]
  have hblur : ({ i with inspection := some (s.changeRow place activate) } : Inspector).blur place =
      .ok ([.setProperty s.entityId row.key row.fetched.reread],
        { i with
          inspection :=
            some ((s.changeRow place activate).changeRow place PropertyRow.leave) }) := by
    rw [blur, located_eq_ok_iff.mpr ⟨rfl, hfocused⟩]
    dsimp only
    rw [hcommitted]
    simp [activate, huntouched.isChanged, Inspection.changeRow, Inspection.changeTab]
  refine ⟨text, _, _, hinput, hretyped, ?_, hblur, row.fetched.reread_eq_self_iff⟩
  rw [Inspector.focus, located_eq_ok_iff.mpr ⟨hopen, hrow⟩]

def showingSize (n : Int) : Inspector :=
  ((({} : Inspector).inspect ⟨"a", "", none, .content, []⟩).2.receive 1 .all
    (.ok [[("size", .number (.int n))]])).2

theorem blur_untouched_least : ∃ s row, (showingSize (-2 ^ 63)).inspection = some s ∧
    s.row ⟨.all, "", "size"⟩ = .ok row ∧ row.fetched = .number (.int (-2 ^ 63)) ∧
      ∃ focused left, (showingSize (-2 ^ 63)).focus ⟨.all, "", "size"⟩ = .ok focused ∧
        focused.blur ⟨.all, "", "size"⟩ =
          .ok ([.setProperty "a" "size" (.number (.int (-2 ^ 63)))], left) := by
  obtain ⟨text, focused, left, -, -, hfocus, hblur, -⟩ :=
    blur_untouched (i := showingSize (-2 ^ 63)) ⟨.all, "", "size"⟩ rfl rfl
      (PropertyRow.isUntouched_ofProperty .all ("size", .number (.int (-2 ^ 63)))) (by decide)
      ⟨Int.le_refl _, by decide⟩
  exact ⟨_, _, rfl, rfl, rfl, focused, left, hfocus, hblur⟩

/-- The smallest integer that needs all 64 bits is written back as a double. -/
theorem blur_untouched_wide : ¬∀ key ∉ Control.lockedKeys, ∀ value : Json, value.IsTyped →
    ∃ text, Control.ofProperty key value = .input text ∧ value.retyped text = value := by
  intro hsame
  have htyped : (Json.number (.int (2 ^ 63))).IsTyped := ⟨by decide, by decide⟩
  have hwide : (Json.number (.int (2 ^ 63))).IsWide := Int.le_refl _
  have hkey : "size" ∉ Control.lockedKeys := by decide
  obtain ⟨text, hinput, hretyped⟩ := hsame "size" hkey _ htyped
  obtain ⟨text', hinput', hreread⟩ := htyped.exists_input hkey
  obtain rfl : text = text' := Control.input.inj (hinput.symm.trans hinput')
  exact (Json.reread_eq_self_iff _).mp (hreread.symm.trans hretyped) hwide

end Inspector

end ContentConsole
