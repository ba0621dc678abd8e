import ContentConsole.Inspector.Basic
import Mathlib.Data.List.Infix

set_option autoImplicit false
set_option relaxedAutoImplicit false

/-!
Labels of keys in the facet `html`. The mark is taken out at the first place where it stands,
whether that is the beginning of the key or not. Main statement: `label_html_iff`, by which the
label is the key less the mark in front exactly if the mark stands there or nowhere.
-/
namespace ContentConsole

namespace KeyLabel

variable {part text before after : List Char}

/-- The part stands between the two, and nowhere earlier in the text. -/
structure IsFirst (part text before after : List Char) : Prop where
  eq : text = before ++ part ++ after
  first : ∀ b a, text = b ++ part ++ a → before.length ≤ b.length

theorem IsFirst.unique {before' after' : List Char} (h : IsFirst part text before after)
    (h' : IsFirst part text before' after') : before = before' ∧ after = after' := by
  have hlength : before.length = before'.length :=
    Nat.le_antisymm (h.first _ _ h'.eq) (h'.first _ _ h.eq)
  have hsame : before ++ (part ++ after) = before' ++ (part ++ after') := by
    simpa using h.eq.symm.trans h'.eq
  obtain ⟨hbefore, hrest⟩ := List.append_inj hsame hlength
  exact ⟨hbefore, List.append_cancel_left hrest⟩

theorem removeFirst_of_not_infix (hnone : ¬part <:+: text) : removeFirst part text = text := by
  induction text with
  | nil => rfl
  | cons c cs ih =>
    have hfront : ¬part.isPrefixOf (c :: cs) :=
      fun h => hnone (List.isPrefixOf_iff_prefix.mp h).isInfix
    rw [removeFirst, if_neg hfront, ih fun h => hnone (List.infix_cons h)]

theorem exists_isFirst (hpart : part ≠ []) (hholds : part <:+: text) :
    ∃ before after, IsFirst part text before after ∧ removeFirst part text = before ++ after := by
  induction text with
  | nil => exact absurd (List.infix_nil.mp hholds) hpart
  | cons c cs ih =>
    rw [removeFirst]
    by_cases hfront : part <+: c :: cs
    · obtain ⟨after, htext⟩ := hfront
      refine ⟨[], after, ⟨htext.symm, fun b a _ => Nat.zero_le b.length⟩, ?_⟩
      rw [if_pos (List.isPrefixOf_iff_prefix.mpr ⟨after, htext⟩), ← htext, List.drop_left,
        List.nil_append]
    · have hlater : part <:+: cs := (List.infix_cons_iff.mp hholds).resolve_left hfront
      obtain ⟨before, after, hfirst, hremoved⟩ := ih hlater
      refine ⟨c :: before, after, ⟨congrArg (List.cons c) hfirst.eq, ?_⟩, ?_⟩
      · intro b a htext
        cases b with
        | nil => exact absurd ⟨a, htext.symm⟩ hfront
        | cons d b =>
          obtain ⟨-, htext⟩ := List.cons.inj htext
          exact Nat.succ_le_succ (hfirst.first b a htext)
      · rw [if_neg (mt List.isPrefixOf_iff_prefix.mp hfront), hremoved]
        rfl

theorem IsFirst.removeFirst_eq (hpart : part ≠ []) (h : IsFirst part text before after) :
    removeFirst part text = before ++ after := by
  obtain ⟨before', after', hfirst, hremoved⟩ := exists_isFirst hpart ⟨before, after, h.eq.symm⟩
  obtain ⟨rfl, rfl⟩ := h.unique hfirst
  exact hremoved

theorem removeFirst_of_prefix (hpart : part ≠ []) (hfront : part <+: text) :
    removeFirst part text = text.drop part.length := by
  obtain ⟨after, rfl⟩ := hfront
  have hfirst : IsFirst part (part ++ after) [] after := ⟨rfl, fun b a _ => Nat.zero_le b.length⟩
  rw [hfirst.removeFirst_eq hpart, List.drop_left, List.nil_append]

theorem removeFirst_eq_self_iff (hpart : part ≠ []) :
    removeFirst part text = text ↔ ¬part <:+: text := by
  refine ⟨fun hsame hholds => ?_, removeFirst_of_not_infix⟩
  obtain ⟨before, after, hfirst, hremoved⟩ := exists_isFirst hpart hholds
  have hlength := congrArg List.length (hremoved.symm.trans (hsame.trans hfirst.eq))
  have hpos : 0 < part.length := List.length_pos_of_ne_nil hpart
  simp only [List.length_append] at hlength
  omega

end KeyLabel

namespace Facet

def IsMarked (key : String) : Prop := htmlMark.toList <+: key.toList

instance (key : String) : Decidable (IsMarked key) := inferInstanceAs (Decidable (_ <+: _))

def HoldsMark (key : String) : Prop := htmlMark.toList <:+: key.toList

instance (key : String) : Decidable (HoldsMark key) := inferInstanceAs (Decidable (_ <:+: _))

/-- The rest of a key that begins with the mark, and any other key as it is. -/
def unmarked (key : String) : String :=
  if IsMarked key then String.ofList (key.toList.drop htmlMark.toList.length) else key

theorem htmlMark_ne_nil : htmlMark.toList ≠ [] := by decide

theorem toList_keyLabel_html (key : String) :
    (Facet.html.keyLabel key).toList = KeyLabel.removeFirst htmlMark.toList key.toList := by
  rw [keyLabel, String.toList_ofList]

theorem keyLabel_html_of_isMarked {key : String} (hmark : IsMarked key) :
    Facet.html.keyLabel key = unmarked key := by
  rw [unmarked, if_pos hmark, ← KeyLabel.removeFirst_of_prefix htmlMark_ne_nil hmark]
  rfl

theorem keyLabel_html_eq_self_iff {key : String} :
    Facet.html.keyLabel key = key ↔ ¬HoldsMark key := by
  rw [HoldsMark, ← KeyLabel.removeFirst_eq_self_iff htmlMark_ne_nil, ← toList_keyLabel_html,
    String.toList_inj]

theorem keyLabel_html_eq_unmarked_iff {key : String} :
    Facet.html.keyLabel key = unmarked key ↔ IsMarked key ∨ ¬HoldsMark key := by
  by_cases hmark : IsMarked key
  · exact iff_of_true (keyLabel_html_of_isMarked hmark) (.inl hmark)
  · rw [unmarked, if_neg hmark, keyLabel_html_eq_self_iff, or_iff_right hmark]

theorem eq_of_unmarked_eq {key key' : String} (hmark : IsMarked key) (hmark' : IsMarked key')
    (hsame : unmarked key = unmarked key') : key = key' := by
  rw [unmarked, if_pos hmark, unmarked, if_pos hmark', String.ofList_inj] at hsame
  rw [← String.toList_inj, List.prefix_iff_eq_append.mp hmark |>.symm, hsame,
    List.prefix_iff_eq_append.mp hmark']

end Facet

namespace RecordTable

open Facet

/--
The rows of a record in the facet `html`, one for each key: the label is the rest of a key that
begins with the mark, and any other key as it is, exactly if the mark stands in front of the key or
nowhere in it. A key that holds the mark elsewhere has it taken out at its first place. Two keys
have different labels if both begin with the mark, or if neither holds it.
-/
theorem label_html_iff (record : Record) :
    (ofRecord .html record).rows.map PropertyRow.key = record.map Prod.fst ∧
      (∀ row ∈ (ofRecord .html record).rows,
        (row.label = unmarked row.key ↔ IsMarked row.key ∨ ¬HoldsMark row.key) ∧
          ∀ before after, KeyLabel.IsFirst htmlMark.toList row.key.toList before after →
            row.label.toList = before ++ after) ∧
      ∀ row ∈ (ofRecord .html record).rows, ∀ row' ∈ (ofRecord .html record).rows,
        row.key ≠ row'.key →
        (IsMarked row.key ∧ IsMarked row'.key) ∨ (¬HoldsMark row.key ∧ ¬HoldsMark row'.key) →
          row.label ≠ row'.label := by
  have hlabel : ∀ row ∈ (ofRecord .html record).rows, row.label = Facet.html.keyLabel row.key := by
    intro row hrow
    obtain ⟨property, -, rfl⟩ := List.mem_map.mp hrow
    rfl
  refine ⟨?_, fun row hrow => ⟨?_, fun before after hfirst => ?_⟩,
    fun row hrow row' hrow' hne hboth hsame => hne ?_⟩
  · rw [ofRecord, List.map_map]
    rfl
  · rw [hlabel row hrow, keyLabel_html_eq_unmarked_iff]
  · rw [hlabel row hrow, toList_keyLabel_html, hfirst.removeFirst_eq htmlMark_ne_nil]
  · rw [hlabel row hrow, hlabel row' hrow'] at hsame
    rcases hboth with ⟨hmark, hmark'⟩ | ⟨hnone, hnone'⟩
    · rw [keyLabel_html_of_isMarked hmark, keyLabel_html_of_isMarked hmark'] at hsame
      exact eq_of_unmarked_eq hmark hmark' hsame
    · rwa [keyLabel_html_eq_self_iff.mpr hnone, keyLabel_html_eq_self_iff.mpr hnone'] at hsame

def attributes : Record :=
  [("_html_class", .str "wide"), ("_html_id", .str "main"), ("data_html_kind", .null),
    ("class", .null)]

theorem label_html_iff_attributes :
    let rows := (ofRecord .html attributes).rows
    (∃ row ∈ rows, row.key = "_html_class" ∧ IsMarked row.key ∧ row.label = unmarked row.key ∧
      ∃ row' ∈ rows, row'.key = "_html_id" ∧ IsMarked row'.key ∧ row.label ≠ row'.label) ∧
      ∃ row ∈ rows, row.key = "data_html_kind" ∧
        ∃ before after, KeyLabel.IsFirst htmlMark.toList row.key.toList before after ∧
          row.label.toList = before ++ after := by
  intro rows
  obtain ⟨-, hrows, hapart⟩ := label_html_iff attributes
  have hclass : IsMarked "_html_class" := by decide
  have hid : IsMarked "_html_id" := by decide
  obtain ⟨before, after, hfirst, -⟩ := KeyLabel.exists_isFirst htmlMark_ne_nil
    (by decide : htmlMark.toList <:+: "data_html_kind".toList)
  have hmem : ∀ property ∈ attributes, PropertyRow.ofProperty .html property ∈ rows :=
    fun property hproperty => List.mem_map_of_mem hproperty
  have hclassMem := hmem ("_html_class", .str "wide") (by simp [attributes])
  have hidMem := hmem ("_html_id", .str "main") (by simp [attributes])
  have hkindMem := hmem ("data_html_kind", .null) (by simp [attributes])
  refine ⟨⟨_, hclassMem, rfl, hclass, ?_, _, hidMem, rfl, hid, ?_⟩, _, hkindMem, rfl, before,
    after, hfirst, ?_⟩
  · exact (hrows _ hclassMem).1.mpr (.inl hclass)
  · exact hapart _ hclassMem _ hidMem (by decide) (.inl ⟨hclass, hid⟩)
  · exact (hrows _ hkindMem).2 before after hfirst

/-- The mark is taken out of the middle of a key as well, and the label
is then that of another key. -/
theorem label_html_inside :
    let rows := (ofRecord .html [("a_html_b", .null), ("ab", .null)]).rows
    ∃ row ∈ rows, ∃ row' ∈ rows, ¬IsMarked row.key ∧ ¬IsMarked row'.key ∧
      row.label ≠ unmarked row.key ∧
      row.key ≠ row'.key ∧ row.label = row'.label := by
  intro rows
  exact ⟨_, List.mem_cons_self .., _, List.mem_cons_of_mem _ (List.mem_cons_self ..),
    by decide, by decide, by decide +kernel, by decide, by decide +kernel⟩

end RecordTable

end ContentConsole
