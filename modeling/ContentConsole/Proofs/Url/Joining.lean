import ContentConsole.Proofs.Url.PathLength
import Mathlib.Data.List.TakeWhile

set_option autoImplicit false
set_option relaxedAutoImplicit false

/-!
Where an id leads that is joined to a root. Main statement: `onTarget_join_iff`, by
which the place of an id, below the root and as one segment of the path, is reached
exactly by the ids that are plain.
-/
namespace ContentConsole.Url

variable {cs : List Char} {s : String}

/-! ## Texts of which all counts -/

theorem dropWhile_eq_self_iff_head (p : Char → Bool) (cs : List Char) :
    cs.dropWhile p = cs ↔ ∀ c ∈ cs.head?, p c = false := by
  cases cs with
  | nil => simp
  | cons c cs =>
    rw [List.dropWhile_eq_self_iff]
    simp

theorem significant_eq_iff : significant s = s.toList ↔
    (∀ c ∈ s.toList, isInnerBlank c = false) ∧ (∀ c ∈ s.toList.head?, isOuterBlank c = false) ∧
      ∀ c ∈ s.toList.getLast?, isOuterBlank c = false := by
  have hhead := dropWhile_eq_self_iff_head isOuterBlank s.toList
  have hlast := dropWhile_eq_self_iff_head isOuterBlank s.toList.reverse
  rw [List.head?_reverse] at hlast
  rw [significant]
  constructor
  · intro h
    -- Each of the three cuts gives a part, so none cuts anything off.
    have hstart := List.dropWhile_sublist isOuterBlank (l := s.toList)
    have hend :=
      (List.dropWhile_sublist isOuterBlank (l := (s.toList.dropWhile isOuterBlank).reverse)).reverse
    rw [List.reverse_reverse] at hend
    have hinner := List.filter_sublist (p := fun c => !isInnerBlank c)
      (l := ((s.toList.dropWhile isOuterBlank).reverse.dropWhile isOuterBlank).reverse)
    rw [h] at hinner
    have hstarts := hstart.antisymm (hinner.trans hend)
    rw [hstarts] at h hinner hend
    have hends := hend.antisymm hinner
    rw [hends, List.filter_eq_self] at h
    refine ⟨fun c hc => ?_, hhead.mp hstarts, hlast.mp (List.reverse_inj.mp ?_)⟩
    · simpa using h c hc
    · rw [hends, List.reverse_reverse]
  · rintro ⟨hinner, hstart, hend⟩
    rw [hhead.mpr hstart, hlast.mpr hend, List.reverse_reverse, List.filter_eq_self]
    intro c hc
    rw [hinner c hc]
    rfl

theorem ofChars_of_forall (h : ∀ c ∈ cs, c ≠ '?' ∧ c ≠ '#') :
    Parts.ofChars cs = ⟨cs, none, none⟩ := by
  have hfragment : cs.takeWhile (· ≠ '#') = cs :=
    List.takeWhile_eq_self_iff.mpr fun c hc => decide_eq_true (h c hc).2
  have hquery : cs.takeWhile (· ≠ '?') = cs :=
    List.takeWhile_eq_self_iff.mpr fun c hc => decide_eq_true (h c hc).1
  have hnone : ∀ {p : Char → Bool}, cs.takeWhile p = cs → afterMark (cs.dropWhile p) = none := by
    intro p hp
    have happend := List.takeWhile_append_dropWhile (p := p) (l := cs)
    rw [hp] at happend
    rw [List.append_right_eq_self.mp happend]
    rfl
  rw [Parts.ofChars, hfragment, hquery, hnone hfragment, hnone hquery]

theorem main_eq_iff : (Parts.ofChars cs).main = cs ↔ ∀ c ∈ cs, c ≠ '?' ∧ c ≠ '#' := by
  constructor
  · intro h
    have hquery := List.takeWhile_sublist (fun c => decide (c ≠ '?')) (l := cs.takeWhile (· ≠ '#'))
    have hmain : (cs.takeWhile (· ≠ '#')).takeWhile (· ≠ '?') = cs := h
    rw [hmain] at hquery
    have hfragment := (List.takeWhile_sublist _).antisymm hquery
    rw [hfragment] at hmain
    intro c hc
    exact ⟨of_decide_eq_true (List.takeWhile_eq_self_iff.mp hmain c hc),
      of_decide_eq_true (List.takeWhile_eq_self_iff.mp hfragment c hc)⟩
  · intro h
    rw [ofChars_of_forall h]

/-! ## Ids and parts -/

def isWordChar (c : Char) : Bool := isLetter c || c = '_'

def tailOf : Option String → List Char
  | some part => '/' :: part.toList
  | none => []

def IsWord (part : Option String) : Prop :=
  ∀ name ∈ part, name ≠ "" ∧ ∀ c ∈ name.toList, isWordChar c = true

/--
An id that is one segment of a path as it stands: it holds none of the marks that divide URLs,
none that stands for another character and none that does not count; it is not cut at its
start, nor at its end if nothing follows; it does not start with a scheme and is no dots, and
where a part follows it is not empty.
-/
structure IsPlain (id : String) (part : Option String) : Prop where
  unmarked : ∀ c ∈ id.toList, c ∉ ['/', '\\', '%', '?', '#', '\t', '\n', '\r']
  starts : ∀ c ∈ id.toList.head?, 0x20 < c.toNat
  ends : part = none → ∀ c ∈ id.toList.getLast?, 0x20 < c.toNat
  no_scheme : readScheme id.toList = none
  no_dots : id ≠ "." ∧ id ≠ ".."
  named : part ≠ none → id ≠ ""

theorem isWordChar_cases {c : Char} (h : isWordChar c = true) :
    (65 ≤ c.toNat ∧ c.toNat ≤ 90) ∨ c.toNat = 95 ∨ 97 ≤ c.toNat ∧ c.toNat ≤ 122 := by
  simp only [isWordChar, isLetter, Bool.or_eq_true, Bool.and_eq_true, decide_eq_true_eq] at h
  rcases h with (⟨hlo, hhi⟩ | ⟨hlo, hhi⟩) | rfl
  · exact .inr (.inr ⟨hlo, hhi⟩)
  · exact .inl ⟨hlo, hhi⟩
  · exact .inr (.inl rfl)

theorem not_mem_of_isWordChar {c : Char} {marks : List Char} (hmarks : marks.any isWordChar = false)
    (h : isWordChar c = true) : c ∉ marks :=
  fun hc => List.any_eq_false.mp hmarks c hc h

theorem contains_of_isWordChar {c : Char} {marks : List Char}
    (hmarks : marks.any isWordChar = false) (h : isWordChar c = true) : marks.contains c = false :=
  Bool.eq_false_iff.mpr fun hc => not_mem_of_isWordChar hmarks h (List.contains_iff_mem.mp hc)

theorem inPathSet_of_isWordChar {c : Char} (h : isWordChar c = true) : inPathSet c = false := by
  have hcases := isWordChar_cases h
  have hcontrol : isControl c = false := by
    rw [isControl, Bool.or_eq_false_iff, decide_eq_false_iff_not, decide_eq_false_iff_not]
    omega
  have hfragment : [' ', '"', '<', '>', '\x60'].contains c = false :=
    contains_of_isWordChar (by decide) h
  have hpath : ['#', '?', '\x7b', '\x7d'].contains c = false :=
    contains_of_isWordChar (by decide) h
  rw [inPathSet, inFragmentSet, hcontrol, hfragment, hpath]
  rfl

/-! ## Schemes -/

theorem readScheme_append_slash (cs rest : List Char) :
    readScheme (cs ++ '/' :: rest) = none ↔ readScheme cs = none := by
  cases cs with
  | nil => exact iff_of_true rfl rfl
  | cons c cs =>
    have hslash : List.dropWhile isSchemeChar ('/' :: rest) = '/' :: rest :=
      List.dropWhile_cons_of_neg (by decide)
    rw [List.cons_append, readScheme, readScheme, List.dropWhile_append, hslash]
    split
    · rfl
    · cases hdrop : cs.dropWhile isSchemeChar with
      | nil => exact iff_of_true rfl rfl
      | cons d after =>
        have hne : (d :: after).isEmpty = false := rfl
        rw [hne, if_neg Bool.false_ne_true, List.cons_append]
        by_cases hd : d = ':'
        · subst hd
          exact iff_of_false (Option.some_ne_none _) (Option.some_ne_none _)
        · simp [hd]

/-! ## Slashes -/

theorem map_slash_of_forall {isSpecial : Bool} (h : ∀ c ∈ cs, c ≠ '/' ∧ c ≠ '\\') :
    (cs.map fun c => if isSlash isSpecial c then '/' else c) = cs := by
  rw [List.map_congr_left (g := id), List.map_id]
  intro c hc
  have hslash : isSlash isSpecial c = false := by simp [isSlash, h c hc]
  rw [hslash]
  rfl

theorem cutAtSlashes_of_forall {isSpecial : Bool} (h : ∀ c ∈ cs, c ≠ '/' ∧ c ≠ '\\') :
    cutAtSlashes isSpecial cs = [cs] := by
  rw [cutAtSlashes, map_slash_of_forall h, List.splitOn]
  exact List.splitOnP_eq_singleton fun c hc => beq_eq_false_iff_ne.mpr (h c hc).1

theorem cutAtSlashes_append {isSpecial : Bool} (h : ∀ c ∈ cs, c ≠ '/' ∧ c ≠ '\\')
    (rest : List Char) :
    cutAtSlashes isSpecial (cs ++ '/' :: rest) = cs :: cutAtSlashes isSpecial rest := by
  rw [cutAtSlashes, List.map_append, map_slash_of_forall h, List.map_cons, cutAtSlashes,
    List.splitOn, List.splitOn]
  exact List.splitOnP_append_cons_of_forall_mem
    (fun c hc => beq_eq_false_iff_ne.mpr (h c hc).1) _ rfl _

/-! ## Dots -/

theorem contains_eq_false_of_percent {texts : List String} (hpercent : '%' ∉ cs)
    (htexts : ∀ text ∈ texts, '%' ∈ text.toList) : texts.contains (String.ofList cs) = false := by
  refine Bool.eq_false_iff.mpr fun hc => hpercent ?_
  have hmem := htexts _ (List.contains_iff_mem.mp hc)
  rwa [String.toList_ofList] at hmem

theorem isDot_eq_false (hpercent : '%' ∉ cs) (hne : String.ofList cs ≠ ".") : isDot cs = false := by
  rw [isDot, List.contains_cons, contains_eq_false_of_percent hpercent (by decide), Bool.or_false]
  exact beq_eq_false_iff_ne.mpr hne

theorem isDoubleDot_eq_false (hpercent : '%' ∉ cs) (hne : String.ofList cs ≠ "..") :
    isDoubleDot cs = false := by
  rw [isDoubleDot, List.contains_cons, contains_eq_false_of_percent hpercent (by decide),
    Bool.or_false]
  exact beq_eq_false_iff_ne.mpr hne

theorem partsLength_follow_dots (parts : List String) {dots : List Char} (rest : List (List Char))
    (h : isDot dots = true ∨ isDoubleDot dots = true) :
    partsLength (follow false parts (dots :: rest)) ≤ partsLength parts + piecesSize rest + 1 := by
  have hempty : ∀ parts : List String, partsLength (parts ++ [""]) = partsLength parts + 1 :=
    fun _ => partsLength_append
  have hleave := partsLength_le_of_sublist (leave_sublist parts)
  cases rest with
  | nil =>
    rw [follow]
    split
    · rw [hempty]
      exact Nat.succ_le_succ hleave
    · rename_i hdouble
      rw [if_pos (h.resolve_right hdouble), hempty]
      exact Nat.le_refl _
  | cons piece rest =>
    rw [follow]
    · split
      · have hle := partsLength_follow_le (leave parts) (piece :: rest)
        omega
      · rename_i hdouble
        rw [if_pos (h.resolve_right hdouble)]
        exact Nat.le_succ_of_le (partsLength_follow_le parts (piece :: rest))
    · nofun

/-! ## Relative texts -/

section Relative

variable {root u : Url} {parts : List String} {c d : Char} {rest : List Char}

theorem readRelative_segments (hc : c ≠ '/' ∧ c ≠ '\\') :
    readRelative ⟨c :: rest, none, none⟩ root parts = .ok { root with
      path := .segments
        (follow false parts.dropLast (cutAtSlashes (isSpecialScheme root.scheme) (c :: rest)))
      query := none
      fragment := none } := by
  have hslash : (decide (c = '/') || decide (c = '\\')) = false := by simp [hc]
  unfold readRelative
  split
  · rename_i heq
    cases heq
  · rename_i heq
    exact absurd (List.cons.inj heq).1 hc.1
  · rename_i heq
    obtain ⟨rfl, rfl⟩ := List.cons.inj heq
    exact if_neg (Bool.eq_false_iff.mp hslash)

theorem readRelative_slash (hd : d ≠ '/' ∧ d ≠ '\\') :
    readRelative ⟨'/' :: d :: rest, none, none⟩ root parts = .ok { root with
      path := .segments (fromRoot (isSpecialScheme root.scheme) (d :: rest))
      query := none
      fragment := none } := by
  have hslash : (d :: rest).head?.any (fun c => decide (c = '/') || decide (c = '\\')) = false := by
    simp [hd]
  unfold readRelative
  split
  · rename_i heq
    cases heq
  · rename_i heq
    exact absurd (List.cons.inj (List.cons.inj heq).2).1 hd.1
  · rename_i heq
    obtain ⟨rfl, rfl⟩ := List.cons.inj heq
    exact (if_pos rfl).trans (if_neg (Bool.eq_false_iff.mp hslash))

end Relative

/-! ## Ids with the names of parts behind them -/

theorem isOuterBlank_eq_false {c : Char} : isOuterBlank c = false ↔ 0x20 < c.toNat := by
  rw [isOuterBlank, decide_eq_false_iff_not, Nat.not_le]

theorem isInnerBlank_eq_false {c : Char} : isInnerBlank c = false ↔ c ∉ ['\t', '\n', '\r'] := by
  simp [isInnerBlank, and_assoc]

section Tail

variable {part : Option String} (hword : IsWord part)

theorem head?_append_tailOf :
    (∀ c ∈ (cs ++ tailOf part).head?, 0x20 < c.toNat) ↔ ∀ c ∈ cs.head?, 0x20 < c.toNat := by
  cases cs with
  | nil =>
    refine iff_of_true (fun c hc => ?_) (by simp)
    cases part with
    | none => cases hc
    | some name =>
      cases hc
      decide
  | cons c rest => exact Iff.rfl

theorem readScheme_append_tailOf :
    readScheme (cs ++ tailOf part) = none ↔ readScheme cs = none := by
  cases part with
  | none => rw [tailOf, List.append_nil]
  | some name => exact readScheme_append_slash _ _

include hword

theorem tailOf_cases {c : Char} (hc : c ∈ tailOf part) : c = '/' ∨ isWordChar c = true := by
  cases part with
  | none => cases hc
  | some name => exact (List.mem_cons.mp hc).imp_right ((hword name rfl).2 c)

theorem not_mem_of_mem_tailOf {c : Char} {marks : List Char} (hslash : '/' ∉ marks)
    (hmarks : marks.any isWordChar = false) (hc : c ∈ tailOf part) : c ∉ marks := by
  rcases tailOf_cases hword hc with rfl | hletter
  · exact hslash
  · exact not_mem_of_isWordChar hmarks hletter

theorem pathSize_tailOf : pathSize (tailOf part) = (tailOf part).length := by
  refine congrArg List.length (percentEncode_eq_self fun c hc => ?_)
  rcases tailOf_cases hword hc with rfl | hletter
  · decide
  · exact inPathSet_of_isWordChar hletter

theorem getLast?_append_tailOf : (∀ c ∈ (cs ++ tailOf part).getLast?, 0x20 < c.toNat) ↔
    (part = none → ∀ c ∈ cs.getLast?, 0x20 < c.toNat) := by
  cases part with
  | none => simp [tailOf]
  | some name =>
    refine iff_of_true (fun c hc => ?_) (by simp)
    obtain ⟨hne, hletters⟩ := hword name rfl
    rcases List.eq_nil_or_concat name.toList with hnil | ⟨init, last, hlast⟩
    · exact absurd (String.toList_inj.mp hnil) hne
    · have hletter : isWordChar last = true := hletters last (by simp [hlast])
      have hcases := isWordChar_cases hletter
      rw [tailOf, hlast, List.concat_eq_append, ← List.cons_append, ← List.append_assoc,
        List.getLast?_concat] at hc
      cases hc
      omega

theorem isAllPath_iff {id : String} (hs : s.toList = id.toList ++ tailOf part) : IsAllPath s ↔
    (∀ c ∈ id.toList, c ∉ ['?', '#', '\t', '\n', '\r']) ∧ (∀ c ∈ id.toList.head?, 0x20 < c.toNat) ∧
      (part = none → ∀ c ∈ id.toList.getLast?, 0x20 < c.toNat) ∧ readScheme id.toList = none := by
  have hmarks : ∀ c : Char, c ∉ ['?', '#', '\t', '\n', '\r'] ↔
      isInnerBlank c = false ∧ c ≠ '?' ∧ c ≠ '#' := by
    intro c
    rw [isInnerBlank_eq_false]
    simp
    tauto
  have hchars : (∀ c ∈ s.toList, c ∉ ['?', '#', '\t', '\n', '\r']) ↔
      ∀ c ∈ id.toList, c ∉ ['?', '#', '\t', '\n', '\r'] := by
    rw [hs]
    refine List.forall_mem_append.trans (and_iff_left fun c hc => ?_)
    exact not_mem_of_mem_tailOf hword (by decide) (by decide) hc
  rw [IsAllPath, significant_eq_iff, main_eq_iff, ← hchars]
  simp only [isOuterBlank_eq_false, hmarks, forall₂_and]
  rw [hs, head?_append_tailOf, readScheme_append_tailOf, getLast?_append_tailOf hword]
  constructor
  · rintro ⟨⟨hinner, hstart, hend⟩, hscheme, hquery, hfragment⟩
    exact ⟨⟨hinner, hquery, hfragment⟩, hstart, hend, hscheme⟩
  · rintro ⟨⟨hinner, hquery, hfragment⟩, hstart, hend, hscheme⟩
    exact ⟨⟨hinner, hstart, hend⟩, hscheme, hquery, hfragment⟩

end Tail

/-! ## Targets -/

/-- The place of an id below a root, or of a part of what the id names. -/
structure OnTarget (root : Url) (id : String) (part : Option String) (u : Url) : Prop where
  scheme : u.scheme = root.scheme
  host : u.authority.map Authority.host = root.authority.map Authority.host
  port : u.authority.map Authority.port = root.authority.map Authority.port
  path : u.path.text = root.path.text ++ asSegment id ++ String.ofList (tailOf part)

section Target

variable {root u : Url} {id : String} {part : Option String}

theorem OnTarget.length_path (htarget : OnTarget root id part u) :
    u.path.text.length = root.path.text.length +
      (percentEncode inSegmentSet id.toList).length + (tailOf part).length := by
  rw [htarget.path, String.length_append, String.length_append, String.length_ofList, asSegment,
    String.length_ofList]

theorem segments_text_append (front parts : List String) :
    (UrlPath.segments (front ++ parts)).text = (UrlPath.segments front).text ++
      (UrlPath.segments parts).text := by
  simp only [UrlPath.text, List.map_append, String.join_append]

theorem join_of_isAllPath (hroot : root.IsRoot) {front : List String}
    (hpath : root.path = .segments (front ++ [""])) (hall : IsAllPath s) :
    root.join s = readRelative ⟨s.toList, none, none⟩ root (front ++ [""]) := by
  obtain ⟨hsignificant, hscheme, hmain⟩ := hall
  unfold join readChars
  simp only [hsignificant, hscheme, hpath, if_neg hroot.ne_file,
    ofChars_of_forall (main_eq_iff.mp hmain)]

theorem segments_text_singleton (text : String) : (UrlPath.segments [text]).text = "/" ++ text := by
  simp [UrlPath.text, String.join_cons]

theorem segmentText_of_unmarked (parts : List String) (h : ∀ c ∈ id.toList, c ∉ ['/', '%', '\\']) :
    segmentText false parts id.toList = asSegment id :=
  congrArg String.ofList (percentEncode_congr fun c hc => inPathSet_eq_inSegmentSet (h c hc))

theorem follow_eq (parts : List String) (hdot : isDot cs = false) (hdots : isDoubleDot cs = false) :
    follow false parts [cs] = parts ++ [segmentText false parts cs] ∧
      ∀ cs' : List Char, follow false parts [cs, cs'] =
        follow false (parts ++ [segmentText false parts cs]) [cs'] := by
  constructor
  · rw [follow, hdots, hdot]
    rfl
  · intro cs'
    simp only [follow, hdots, hdot, Bool.false_eq_true, if_false]

theorem follow_name {name : String} {parts : List String}
    (hletters : ∀ c ∈ name.toList, isWordChar c = true) :
    follow false parts [name.toList] = parts ++ [name] := by
  have hnone : ∀ c : Char, isWordChar c = false → c ∉ name.toList :=
    fun c hc hmem => Bool.noConfusion ((hletters c hmem).symm.trans hc)
  have hpercent := hnone '%' (by decide)
  have hdot := hnone '.' (by decide)
  have hne : ∀ text : String, '.' ∈ text.toList → String.ofList name.toList ≠ text := by
    rintro text hmem heq
    rw [String.ofList_toList] at heq
    exact hdot (heq ▸ hmem)
  have htext : segmentText false parts name.toList = name := by
    have hself : percentEncode inPathSet name.toList = name.toList :=
      percentEncode_eq_self fun c hc => inPathSet_of_isWordChar (hletters c hc)
    exact (congrArg String.ofList hself).trans String.ofList_toList
  rw [(follow_eq parts (isDot_eq_false hpercent (hne "." (by decide)))
    (isDoubleDot_eq_false hpercent (hne ".." (by decide)))).1, htext]

theorem forall_ne_slash (h : ∀ c ∈ cs, c ∉ ['/', '%', '\\']) : ∀ c ∈ cs, c ≠ '/' ∧ c ≠ '\\' :=
  fun c hc => ⟨fun heq => h c hc (by simp [heq]), fun heq => h c hc (by simp [heq])⟩

theorem IsPlain.not_mem (hplain : IsPlain id part) {marks : List Char}
    (hsub : marks ⊆ ['/', '\\', '%', '?', '#', '\t', '\n', '\r']) : ∀ c ∈ id.toList, c ∉ marks :=
  fun c hc hmem => hplain.unmarked c hc (hsub hmem)

theorem IsPlain.follow_text (hplain : IsPlain id part) (hword : IsWord part) (isSpecial : Bool)
    (front : List String) :
    (UrlPath.segments
      (follow false front (cutAtSlashes isSpecial (id.toList ++ tailOf part)))).text =
      (UrlPath.segments front).text ++ "/" ++ asSegment id ++ String.ofList (tailOf part) := by
  have hunmarked : ∀ c ∈ id.toList, c ∉ ['/', '%', '\\'] := hplain.not_mem (by simp)
  have hslash := forall_ne_slash hunmarked
  have hpercent : '%' ∉ id.toList := fun hmem => hunmarked '%' hmem (by simp)
  have hsegment := segmentText_of_unmarked front hunmarked
  have hdots := follow_eq front (isDot_eq_false hpercent (String.ofList_toList ▸ hplain.no_dots.1))
    (isDoubleDot_eq_false hpercent (String.ofList_toList ▸ hplain.no_dots.2))
  cases part with
  | none =>
    rw [tailOf, List.append_nil, cutAtSlashes_of_forall hslash, hdots.1, hsegment,
      segments_text_append, segments_text_singleton, ← String.append_assoc]
    exact String.append_empty.symm
  | some name =>
    have hletters := (hword name rfl).2
    have hname : ∀ c ∈ name.toList, c ≠ '/' ∧ c ≠ '\\' := by
      intro d hd
      have hmarks : d ∉ ['/', '\\'] := not_mem_of_isWordChar (by decide) (hletters d hd)
      simpa using hmarks
    have htail : String.ofList ('/' :: name.toList) = "/" ++ name := by
      rw [← String.toList_inj, String.toList_ofList, String.toList_append]
      rfl
    rw [tailOf, cutAtSlashes_append hslash, cutAtSlashes_of_forall hname, hdots.2, hsegment,
      follow_name hletters, segments_text_append, segments_text_append, segments_text_singleton,
      segments_text_singleton, htail]
    simp only [String.append_assoc]

theorem onTarget_of_isPlain (hroot : root.IsRoot) (hword : IsWord part)
    (hs : s.toList = id.toList ++ tailOf part) (hplain : IsPlain id part) :
    ∃ u, root.join s = .ok u ∧ OnTarget root id part u := by
  obtain ⟨front, hpath⟩ := hroot.exists_path
  have hall : IsAllPath s := (isAllPath_iff hword hs).mpr
    ⟨hplain.not_mem (by simp), hplain.starts, hplain.ends, hplain.no_scheme⟩
  have hjoin := join_of_isAllPath hroot hpath hall
  cases hid : id.toList with
  | nil =>
    have hempty : id = "" := String.toList_inj.mp hid
    have hnone : part = none := Decidable.not_not.mp fun hsome => hplain.named hsome hempty
    subst hnone hempty
    have htext : s.toList = [] := hs
    rw [htext] at hjoin
    refine ⟨_, hjoin, rfl, rfl, rfl, ?_⟩
    exact (String.append_empty.trans String.append_empty).symm
  | cons c rest =>
    have hc : c ∉ ['/', '\\'] := hplain.not_mem (by simp) c (hid ▸ List.mem_cons_self ..)
    have hs' : s.toList = c :: (rest ++ tailOf part) := by rw [hs, hid, List.cons_append]
    rw [hs', readRelative_segments (by simpa using hc), List.dropLast_concat, ← List.cons_append,
      ← hid] at hjoin
    refine ⟨_, hjoin, rfl, rfl, rfl, ?_⟩
    have hroot : root.path.text = (UrlPath.segments front).text ++ "/" := by
      rw [hpath, segments_text_append, segments_text_singleton, String.append_empty]
    rw [hroot]
    exact hplain.follow_text hword _ front

theorem cutAtSlashes_tailOf (isSpecial : Bool) (h : ∀ c ∈ cs, c ≠ '/' ∧ c ≠ '\\')
    (part : Option String) :
    ∃ pieces, cutAtSlashes isSpecial (cs ++ tailOf part) = cs :: pieces ∧
      piecesSize pieces = pathSize (tailOf part) := by
  cases part with
  | none => exact ⟨[], by rw [tailOf, List.append_nil, cutAtSlashes_of_forall h], rfl⟩
  | some name =>
    have hslash : encodedSize inPathSet '/' = 1 := by decide
    refine ⟨_, cutAtSlashes_append h _, ?_⟩
    rw [piecesSize_cutAtSlashes, tailOf, pathSize_cons, hslash, Nat.add_comm]

theorem length_path_of_empty (hroot : root.IsRoot) (hword : IsWord part) (hsome : part ≠ none)
    {parts : List String} (hread : readRelative ⟨tailOf part, none, none⟩ root parts = .ok u) :
    u.path.text.length < root.path.text.length + (tailOf part).length := by
  have hone := hroot.one_le_length
  have hsize := pathSize_tailOf hword
  cases part with
  | none => exact absurd rfl hsome
  | some name =>
    obtain ⟨hne, hletters⟩ := hword name rfl
    cases hname : name.toList with
    | nil => exact absurd (String.toList_inj.mp hname) hne
    | cons d rest =>
      have hletter : isWordChar d = true := hletters d (hname ▸ List.mem_cons_self ..)
      have hmarks : d ∉ ['/', '\\'] := not_mem_of_isWordChar (by decide) hletter
      have hd : d ≠ '/' ∧ d ≠ '\\' := by simpa using hmarks
      have hslash : encodedSize inPathSet '/' = 1 := by decide
      rw [tailOf, hname] at hread hsize ⊢
      rw [readRelative_slash hd] at hread
      cases hread
      have hle := partsLength_fromRoot_le (isSpecialScheme root.scheme) (d :: rest)
      rw [pathSize_cons, hslash] at hsize
      dsimp only
      rw [length_segments_text]
      omega

theorem length_path_of_dots {front : List String} (hpath : root.path = .segments (front ++ [""]))
    (c : Char) (rest : List Char) (hslash : ∀ d ∈ c :: rest, d ≠ '/' ∧ d ≠ '\\')
    (hdots : isDot (c :: rest) = true ∨ isDoubleDot (c :: rest) = true)
    (hread : readRelative ⟨c :: rest ++ tailOf part, none, none⟩ root (front ++ [""]) = .ok u) :
    u.path.text.length ≤ root.path.text.length + pathSize (tailOf part) := by
  obtain ⟨pieces, hcut, hsize⟩ := cutAtSlashes_tailOf (isSpecialScheme root.scheme) hslash part
  rw [List.cons_append, readRelative_segments (hslash c (List.mem_cons_self ..)),
    ← List.cons_append, hcut, List.dropLast_concat] at hread
  cases hread
  have hle := partsLength_follow_dots front pieces hdots
  have hroot : root.path.text.length = partsLength front + 1 := by
    rw [hpath, length_segments_text, partsLength_append]
    rfl
  dsimp only
  rw [length_segments_text, hroot]
  omega

theorem OnTarget.isAllPath (htarget : OnTarget root id part u) (hroot : root.IsRoot)
    (hword : IsWord part) (hs : s.toList = id.toList ++ tailOf part) (hjoin : root.join s = .ok u) :
    IsAllPath s ∧ ∀ c ∈ id.toList, c ∉ ['/', '%', '\\'] := by
  obtain ⟨main, hmain, hle, hall⟩ := length_path_join hroot hjoin htarget.scheme
  have hlength := htarget.length_path
  have hsize : pathSize s.toList = pathSize id.toList + (tailOf part).length := by
    rw [hs, pathSize_append, pathSize_tailOf hword]
  have hpart := pathSize_le_of_sublist hmain
  have hmono : pathSize id.toList ≤ (percentEncode inSegmentSet id.toList).length :=
    length_percentEncode_mono fun _ _ => inSegmentSet_of_inPathSet
  have hsame : ∀ c ∈ id.toList, inPathSet c = inSegmentSet c :=
    eq_of_imp_of_length_le (fun _ _ => inSegmentSet_of_inPathSet) (show _ ≤ pathSize _ by omega)
  refine ⟨hall (eq_of_sublist_of_length_le hmain (show pathSize _ ≤ pathSize _ by omega)),
    fun c hc hmem => ?_⟩
  simp only [List.mem_cons, List.not_mem_nil, or_false] at hmem
  rcases hmem with rfl | rfl | rfl
  all_goals exact absurd (hsame _ hc) (by decide)

theorem isPlain_of_onTarget (hroot : root.IsRoot) (hword : IsWord part)
    (hs : s.toList = id.toList ++ tailOf part) (hjoin : root.join s = .ok u)
    (htarget : OnTarget root id part u) : IsPlain id part := by
  obtain ⟨front, hpath⟩ := hroot.exists_path
  obtain ⟨hwhole, hslashes⟩ := htarget.isAllPath hroot hword hs hjoin
  obtain ⟨hmarks, hstarts, hends, hscheme⟩ := (isAllPath_iff hword hs).mp hwhole
  have hread := (join_of_isAllPath hroot hpath hwhole).symm.trans hjoin
  rw [hs] at hread
  have hlength := htarget.length_path
  have hsize := pathSize_tailOf hword
  refine ⟨fun c hc hmem => ?_, hstarts, hends, hscheme, ⟨?_, ?_⟩, ?_⟩
  · have hfirst := hslashes c hc
    have hsecond := hmarks c hc
    simp only [List.mem_cons, List.not_mem_nil, or_false, not_or] at hfirst hsecond hmem
    tauto
  -- Dots, and an empty id before a part, make the path shorter than that of the place.
  · rintro rfl
    have hshort := length_path_of_dots hpath '.' [] (forall_ne_slash hslashes) (by decide) hread
    have hdot : (percentEncode inSegmentSet ".".toList).length = 1 := by decide
    omega
  · rintro rfl
    have hshort := length_path_of_dots hpath '.' ['.'] (forall_ne_slash hslashes) (by decide) hread
    have hdots : (percentEncode inSegmentSet "..".toList).length = 2 := by decide
    omega
  · rintro hsome rfl
    have hshort := length_path_of_empty hroot hword hsome hread
    omega

/-- The place of an id is reached exactly by plain ids; each of them is there to be reached. -/
theorem onTarget_join_iff (hroot : root.IsRoot) (hword : IsWord part)
    (hs : s.toList = id.toList ++ tailOf part) (hjoin : root.join s = .ok u) :
    OnTarget root id part u ↔ IsPlain id part := by
  constructor
  · exact isPlain_of_onTarget hroot hword hs hjoin
  · intro hplain
    obtain ⟨u', hjoin', htarget⟩ := onTarget_of_isPlain hroot hword hs hplain
    cases hjoin.symm.trans hjoin'
    exact htarget

end Target

end ContentConsole.Url
