import ContentConsole.Inspector.Facet
import Mathlib.Data.List.SplitBy

set_option autoImplicit false
set_option relaxedAutoImplicit false

/-!
Titles of keys. A key is read once, with the word begun at hand; this cuts it where a separator
stands and wherever a word ends between two characters side by side. Main statement:
`ofKey_eq_title`, by which the label of a key is the title put together from these pieces, and the
label of a label is the label again.
-/
namespace ContentConsole.KeyLabel

/-- The two belong to one word when they stand side by side. -/
def joins (before after : Char) : Bool := !endsBetween before after

/-- What is left of a key without its separators, cut where one stood and wherever a
word ends; no piece is empty. -/
def pieces (key : List Char) : List (List Char) :=
  ((key.splitOnP isSeparator).filter fun piece => !piece.isEmpty).flatMap (List.splitBy joins)

/-- The pieces of a key, the first character of each in upper case,
with one space between any two. -/
def title (key : String) : String :=
  " ".intercalate ((pieces key.toList).map fun piece => String.ofList (capitalize piece))

/-! ## The pieces of a key -/

theorem pieces_eq_flatMap (key : List Char) :
    pieces key = (key.splitOnP isSeparator).flatMap (List.splitBy joins) := by
  rw [pieces]
  induction key.splitOnP isSeparator with
  | nil => rfl
  | cons piece later ih =>
    cases piece with
    | nil => simpa using ih
    | cons c cs => simpa using ih

theorem splitOnP_append {α : Type} {p : α → Bool} {front : List α}
    (hfront : ∀ x ∈ front, p x = false) (back : List α) :
    (front ++ back).splitOnP p = (back.splitOnP p).modifyHead (front ++ ·) := by
  obtain ⟨first, later, hback⟩ := List.exists_cons_of_ne_nil (List.splitOnP_ne_nil p back)
  induction front with
  | nil => simp [hback]
  | cons x front ih =>
    obtain ⟨hx, hfront⟩ := List.forall_mem_cons.mp hfront
    simp [List.splitOnP_cons_eq_if_modifyHead, hx, ih hfront, hback]

theorem flatten_splitOnP {α : Type} (p : α → Bool) (xs : List α) :
    (xs.splitOnP p).flatten = xs.filter fun x => !p x := by
  induction xs with
  | nil => rfl
  | cons x xs ih =>
    obtain ⟨first, later, hxs⟩ := List.exists_cons_of_ne_nil (List.splitOnP_ne_nil p xs)
    rw [hxs] at ih
    cases hx : p x <;> simp [List.splitOnP_cons_eq_if_modifyHead, hx, hxs, ← ih]

theorem flatten_pieces (key : List Char) :
    (pieces key).flatten = key.filter fun c => !isSeparator c := by
  rw [pieces_eq_flatMap, ← flatten_splitOnP]
  induction key.splitOnP isSeparator with
  | nil => rfl
  | cons piece later ih =>
    rw [List.flatMap_cons, List.flatten_append, ih, List.flatten_splitBy, List.flatten_cons]

theorem pieces_append_separator {c : Char} (hc : isSeparator c = true) (front back : List Char) :
    pieces (front ++ c :: back) = pieces front ++ pieces back := by
  rw [pieces_eq_flatMap, pieces_eq_flatMap, pieces_eq_flatMap,
    List.splitOnP_append_cons front back hc, List.flatMap_append]

structure IsWord (word : List Char) : Prop where
  ne_nil : word ≠ []
  forall_mem : ∀ c ∈ word, isSeparator c = false
  isChain : word.IsChain fun before after => joins before after

theorem IsWord.pieces_eq {word : List Char} (hword : IsWord word) : pieces word = [word] := by
  rw [pieces_eq_flatMap, List.splitOnP_eq_singleton hword.forall_mem, List.flatMap_singleton,
    List.splitBy_of_isChain hword.ne_nil hword.isChain]

theorem IsWord.pieces_append {word : List Char} (hword : IsWord word) {c : Char}
    (hc : isSeparator c = false) (hend : ∀ b ∈ word.getLast?, joins b c = false) (key : List Char) :
    pieces (word ++ c :: key) = word :: pieces (c :: key) := by
  obtain ⟨first, later, hkey⟩ := List.exists_cons_of_ne_nil (List.splitOnP_ne_nil isSeparator key)
  have hback : (c :: key).splitOnP isSeparator = (c :: first) :: later := by
    simp [List.splitOnP_cons_eq_if_modifyHead, hc, hkey]
  rw [pieces_eq_flatMap, pieces_eq_flatMap, splitOnP_append hword.forall_mem, hback,
    List.modifyHead_cons, List.flatMap_cons, List.flatMap_cons, List.splitBy_append_cons first hend,
    List.splitBy_of_isChain hword.ne_nil hword.isChain]
  rfl

theorem isWord_of_mem_pieces {key word : List Char} (hmem : word ∈ pieces key) : IsWord word := by
  obtain ⟨piece, -, hsplit⟩ := List.mem_flatMap.mp hmem
  refine ⟨List.ne_nil_of_mem_splitBy hsplit, fun c hc => ?_, List.isChain_of_mem_splitBy hsplit⟩
  have hkept : c ∈ key.filter fun c => !isSeparator c :=
    flatten_pieces key ▸ List.mem_flatten.mpr ⟨word, hmem, hc⟩
  simpa using (List.mem_filter.mp hkept).2

def IsBegun (word : List Char) : Prop := word = [] ∨ IsWord word.reverse

theorem IsBegun.finish_eq {word : List Char} (hword : IsBegun word) :
    finish word = pieces word.reverse := by
  obtain rfl | hword := hword
  · rfl
  · have hne : word ≠ [] := by simpa using hword.ne_nil
    simp [finish, hne, hword.pieces_eq]

theorem isWord_singleton {c : Char} (hc : isSeparator c = false) : IsWord [c] :=
  ⟨List.cons_ne_nil c [], by simpa using hc, .singleton c⟩

theorem IsWord.append_singleton {word : List Char} (hword : IsWord word) {c : Char}
    (hc : isSeparator c = false) (hjoins : ∀ b ∈ word.getLast?, joins b c = true) :
    IsWord (word ++ [c]) := by
  refine ⟨by simp, ?_, ?_⟩
  · intro d hd
    rcases List.mem_append.mp hd with hd | hd
    · exact hword.forall_mem d hd
    · rwa [List.mem_singleton.mp hd]
  · rw [List.isChain_append]
    refine ⟨hword.isChain, .singleton c, fun b hb after hafter => ?_⟩
    obtain rfl : c = after := by simpa using hafter
    exact hjoins b hb

theorem wordsFrom_eq_pieces {word : List Char} (hword : IsBegun word) (key : List Char) :
    wordsFrom word key = pieces (word.reverse ++ key) := by
  -- A character ends the word begun or joins it; what is begun behind it is none or a word again.
  induction key generalizing word with
  | nil => rw [List.append_nil, ← hword.finish_eq, wordsFrom]
  | cons c key ih =>
    rw [wordsFrom]
    by_cases hsep : isSeparator c = true
    · have hnone : IsBegun [] := .inl rfl
      rw [if_pos hsep, pieces_append_separator hsep, hword.finish_eq, ih hnone]
      rfl
    have hc : isSeparator c = false := by simpa using hsep
    have hsingle : IsBegun [c] := .inr (isWord_singleton hc)
    rw [if_neg hsep]
    cases word with
    | nil => exact ih hsingle
    | cons b word =>
      have hbegun : IsWord (b :: word).reverse := hword.resolve_left (List.cons_ne_nil b word)
      cases hend : endsBetween b c with
      | true =>
        have hcut : ∀ d ∈ (b :: word).reverse.getLast?, joins d c = false := by
          simp [joins, hend]
        rw [if_pos (by simpa using hend), hbegun.pieces_append hc hcut, ih hsingle]
        rfl
      | false =>
        have hjoins : ∀ d ∈ (b :: word).reverse.getLast?, joins d c = true := by
          simp [joins, hend]
        have hlonger : IsBegun (c :: b :: word) := by
          rw [IsBegun, List.reverse_cons]
          exact .inr (hbegun.append_singleton hc hjoins)
        rw [if_neg (by simpa using hend), ih hlonger, List.reverse_cons, List.append_assoc]
        rfl

theorem words_eq_pieces (key : List Char) : words key = pieces key :=
  wordsFrom_eq_pieces (.inl rfl) key

/-! ## The label of a label -/

theorem pieces_intercalate {ws : List (List Char)} (hws : ∀ w ∈ ws, IsWord w) :
    pieces ([' '].intercalate ws) = ws := by
  induction ws with
  | nil => rfl
  | cons w ws ih =>
    obtain ⟨hw, hws⟩ := List.forall_mem_cons.mp hws
    cases ws with
    | nil => simpa using hw.pieces_eq
    | cons v ws =>
      rw [List.intercalate_cons_cons, List.append_assoc, List.singleton_append,
        pieces_append_separator (by decide), hw.pieces_eq, ih hws]
      rfl

theorem toUpper_of_lt : ∀ n < 0x80,
    (Char.ofNat n).toUpper.toNat < 0x80 ∧ (Char.ofNat n).toUpper.toUpper = (Char.ofNat n).toUpper ∧
      isSeparator (Char.ofNat n).toUpper = isSeparator (Char.ofNat n) ∧
      ((Text.isLower (Char.ofNat n).toUpper || Text.isDigit (Char.ofNat n).toUpper) = true →
        (Text.isLower (Char.ofNat n) || Text.isDigit (Char.ofNat n)) = true) := by
  decide +kernel

theorem upperChars_of_lt {c : Char} (hc : c.toNat < 0x80) : Text.upperChars c = [c.toUpper] := by
  rw [Text.upperChars, if_pos hc]

section

variable {word : List Char} (hascii : ∀ c ∈ word, c.toNat < 0x80)

include hascii

theorem capitalize_capitalize : capitalize (capitalize word) = capitalize word := by
  cases word with
  | nil => rfl
  | cons c cs =>
    have hc := hascii c (List.mem_cons_self ..)
    obtain ⟨hlt, hupper, -, -⟩ := Char.ofNat_toNat c ▸ toUpper_of_lt c.toNat hc
    simp [capitalize, upperChars_of_lt hc, upperChars_of_lt hlt, hupper]

theorem IsWord.capitalize (hword : IsWord word) : IsWord (capitalize word) := by
  cases word with
  | nil => exact absurd rfl hword.ne_nil
  | cons c cs =>
    have hc := hascii c (List.mem_cons_self ..)
    obtain ⟨-, -, hsep, hlower⟩ := Char.ofNat_toNat c ▸ toUpper_of_lt c.toNat hc
    obtain ⟨hfirst, hlater⟩ := List.forall_mem_cons.mp hword.forall_mem
    obtain ⟨hjoins, hchain⟩ := List.isChain_cons.mp hword.isChain
    rw [KeyLabel.capitalize, upperChars_of_lt hc]
    refine ⟨by simp, List.forall_mem_cons.mpr ⟨hsep.trans hfirst, hlater⟩,
      List.isChain_cons.mpr ⟨?_, hchain⟩⟩
    intro d hd
    have hjoined := hjoins d hd
    simp only [joins, endsBetween, Bool.not_eq_true', Bool.and_eq_false_iff] at hjoined ⊢
    exact hjoined.imp_left fun hsmall => by simpa [hsmall] using hlower

end

theorem toList_title (key : String) :
    (title key).toList = [' '].intercalate ((pieces key.toList).map capitalize) := by
  rw [title, String.toList_intercalate, List.map_map]
  simp only [Function.comp_def, String.toList_ofList]
  rfl

theorem title_title {key : String} (hascii : ∀ c ∈ key.toList, c.toNat < 0x80) :
    title (title key) = title key := by
  have hpieces : ∀ w ∈ pieces key.toList, ∀ c ∈ w, c.toNat < 0x80 := by
    intro w hw c hc
    have hkept : c ∈ (pieces key.toList).flatten := List.mem_flatten.mpr ⟨w, hw, hc⟩
    rw [flatten_pieces] at hkept
    exact hascii c (List.mem_of_mem_filter hkept)
  have hcut : pieces (title key).toList = (pieces key.toList).map capitalize := by
    rw [toList_title]
    refine pieces_intercalate fun w hw => ?_
    obtain ⟨w, hmem, rfl⟩ := List.mem_map.mp hw
    exact (isWord_of_mem_pieces hmem).capitalize (hpieces w hmem)
  rw [title, hcut, List.map_map, title]
  refine congrArg " ".intercalate (List.map_congr_left fun w hw => ?_)
  rw [Function.comp_apply, capitalize_capitalize (hpieces w hw)]

/--
The label of a key is its title: the pieces, cut where a separator stood and where a small letter or
digit is followed by a capital, each with the upper-case image of its first character, and one space
between any two. The pieces hold the characters of the key in their order, the separators left out.
The label of a label is the same if all characters of the key are among the first 128.
-/
theorem ofKey_eq_title :
    (∀ key, ofKey key = title key) ∧
      (∀ key : String, (pieces key.toList).flatten = key.toList.filter fun c => !isSeparator c) ∧
      ∀ key : String, (∀ c ∈ key.toList, c.toNat < 0x80) → ofKey (ofKey key) = ofKey key := by
  have htitle : ∀ key, ofKey key = title key := by
    intro key
    rw [ofKey, words_eq_pieces, title]
  refine ⟨htitle, fun key => flatten_pieces key.toList, fun key hascii => ?_⟩
  rw [htitle, htitle, title_title hascii]

theorem ofKey_eq_title_heading : (∀ c ∈ "_html-h1Title by".toList, c.toNat < 0x80) ∧
    ofKey "_html-h1Title by" = "Html H1 Title By" ∧
    ofKey "Html H1 Title By" = "Html H1 Title By" := by
  have hascii : ∀ c ∈ "_html-h1Title by".toList, c.toNat < 0x80 := by simp
  have hlabel : ofKey "_html-h1Title by" = "Html H1 Title By" := by decide +kernel
  have hagain := ofKey_eq_title.2.2 "_html-h1Title by" hascii
  rw [hlabel] at hagain
  exact ⟨hascii, hlabel, hagain⟩

end ContentConsole.KeyLabel
