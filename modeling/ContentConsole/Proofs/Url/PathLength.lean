import ContentConsole.Proofs.Url.Encoding
import ContentConsole.Url.Reader

set_option autoImplicit false
set_option relaxedAutoImplicit false

/-!
How long the path of a URL is. Reading a text gives a path no longer than the text with its
characters encoded, as dots only shorten it. Main statement: `length_path_join`, by which
joining a text to a root lengthens the root's path by no more than the part of the text that is
neither scheme, query nor fragment.
-/
namespace ContentConsole.Url

variable {cs cs' : List Char} {parts parts' : List String}

def pathSize (cs : List Char) : Nat := (percentEncode inPathSet cs).length

theorem pathSize_cons (c : Char) : pathSize (c :: cs) = encodedSize inPathSet c + pathSize cs :=
  length_percentEncode_cons c

theorem pathSize_append : pathSize (cs ++ cs') = pathSize cs + pathSize cs' := by
  rw [pathSize, percentEncode_append, List.length_append]
  rfl

theorem pathSize_le_of_sublist (h : cs'.Sublist cs) : pathSize cs' ≤ pathSize cs :=
  length_percentEncode_le_of_sublist h

def partsLength (parts : List String) : Nat := (parts.map fun s => s.length + 1).sum

theorem partsLength_append :
    partsLength (parts ++ parts') = partsLength parts + partsLength parts' := by
  rw [partsLength, List.map_append, List.sum_append_nat]
  rfl

theorem length_segments_text : (UrlPath.segments parts).text.length = partsLength parts := by
  rw [UrlPath.text, String.length_join, List.map_map, partsLength]
  congr 1
  refine List.map_congr_left fun s _ => ?_
  exact (String.length_append "/" s).trans (Nat.add_comm ..)

theorem partsLength_le_of_sublist (h : parts'.Sublist parts) :
    partsLength parts' ≤ partsLength parts := by
  induction h with
  | slnil => exact Nat.le_refl _
  | cons s _ ih => exact Nat.le_trans ih (Nat.le_add_left ..)
  | cons_cons s _ ih => exact Nat.add_le_add_left ih _

/-! Following segments. -/

theorem leave_sublist (parts : List String) : (leave parts).Sublist parts := by
  rw [leave]
  split
  · split
    · exact List.Sublist.refl _
    · exact List.dropLast_sublist _
  · exact List.nil_sublist _

theorem length_segmentText (parts : List String) (cs : List Char) :
    (segmentText false parts cs).length = pathSize cs := String.length_ofList

def piecesSize (pieces : List (List Char)) : Nat := (pieces.map fun cs => pathSize cs + 1).sum

theorem partsLength_follow_le (parts : List String) (pieces : List (List Char)) :
    partsLength (follow false parts pieces) ≤ partsLength parts + piecesSize pieces := by
  have hstep : ∀ (parts : List String) (cs : List Char),
      partsLength (parts ++ [segmentText false parts cs]) =
        partsLength parts + (pathSize cs + 1) := by
    intro parts cs
    rw [partsLength_append, ← length_segmentText parts cs]
    rfl
  have hempty : ∀ parts : List String, partsLength (parts ++ [""]) = partsLength parts + 1 :=
    fun _ => partsLength_append
  have hleave : ∀ parts : List String, partsLength (leave parts) ≤ partsLength parts :=
    fun parts => partsLength_le_of_sublist (leave_sublist parts)
  fun_induction follow false parts pieces with
  | case1 parts => exact Nat.le_refl _
  | case2 parts last hdots =>
    have hle := hleave parts
    rw [hempty]
    simp only [piecesSize, List.map_cons, List.map_nil, List.sum_cons, List.sum_nil]
    omega
  | case3 parts last _ hdot =>
    rw [hempty]
    simp only [piecesSize, List.map_cons, List.map_nil, List.sum_cons, List.sum_nil]
    omega
  | case4 parts last => exact Nat.le_of_eq (hstep parts last)
  | case5 parts s rest hne hdots ih =>
    have hle := hleave parts
    have hcons : piecesSize (s :: rest) = pathSize s + 1 + piecesSize rest := rfl
    omega
  | case6 parts s rest hne hdots hdot ih =>
    have hcons : piecesSize (s :: rest) = pathSize s + 1 + piecesSize rest := rfl
    omega
  | case7 parts s rest hne hdots hdot ih =>
    have hcons : piecesSize (s :: rest) = pathSize s + 1 + piecesSize rest := rfl
    rw [hstep] at ih
    omega

/-! Cutting at slashes. -/

theorem piecesSize_splitOn (cs : List Char) : piecesSize (cs.splitOn '/') = pathSize cs + 1 := by
  have hslash : encodedSize inPathSet '/' = 1 := by decide
  have hhead : ∀ (c : Char) (pieces : List (List Char)), pieces ≠ [] →
      piecesSize (pieces.modifyHead (List.cons c)) =
        encodedSize inPathSet c + piecesSize pieces := by
    intro c pieces hne
    cases pieces with
    | nil => exact absurd rfl hne
    | cons piece pieces =>
      simp only [piecesSize, List.modifyHead_cons, List.map_cons, List.sum_cons, pathSize_cons]
      omega
  induction cs with
  | nil => rfl
  | cons c cs ih =>
    rw [List.splitOn] at ih ⊢
    rw [List.splitOnP_cons_eq_if_modifyHead, pathSize_cons]
    split
    · rename_i heq
      have hcons : piecesSize ([] :: cs.splitOnP (· == '/')) =
          1 + piecesSize (cs.splitOnP (· == '/')) :=
        rfl
      rw [hcons, ih, beq_iff_eq.mp heq, hslash]
      omega
    · rw [hhead c _ (List.splitOnP_ne_nil _ _), ih]
      omega

theorem piecesSize_cutAtSlashes (isSpecial : Bool) (cs : List Char) :
    piecesSize (cutAtSlashes isSpecial cs) = pathSize cs + 1 := by
  have hslash : ∀ c, isSlash isSpecial c = true →
      encodedSize inPathSet c = encodedSize inPathSet '/' := by
    intro c hc
    simp only [isSlash, Bool.or_eq_true, Bool.and_eq_true, decide_eq_true_eq] at hc
    rcases hc with rfl | ⟨-, rfl⟩ <;> decide
  rw [cutAtSlashes, piecesSize_splitOn]
  congr 1
  induction cs with
  | nil => rfl
  | cons c cs ih =>
    rw [List.map_cons, pathSize_cons, pathSize_cons, ih]
    split
    · rename_i hc
      rw [hslash c hc]
    · rfl

theorem partsLength_fromRoot_le (isSpecial : Bool) (cs : List Char) :
    partsLength (fromRoot isSpecial cs) ≤ pathSize cs + 1 := by
  have hle := partsLength_follow_le [] (cutAtSlashes isSpecial cs)
  rw [piecesSize_cutAtSlashes] at hle
  exact Nat.le_trans hle (Nat.le_of_eq (Nat.zero_add _))

theorem partsLength_afterAuthority_le (isSpecial : Bool) (cs : List Char) :
    partsLength (afterAuthority isSpecial cs) ≤ pathSize cs + 1 := by
  cases cs with
  | nil => cases isSpecial <;> decide
  | cons c rest =>
    refine Nat.le_trans (partsLength_fromRoot_le isSpecial _)
      (Nat.succ_le_succ (pathSize_le_of_sublist ?_))
    split
    · exact List.sublist_cons_self c rest
    · exact List.Sublist.refl _

/-! What stands behind an authority is a part of the text. -/

theorem hostPart_append (isInside : Bool) (cs : List Char) :
    (hostPart isInside cs).1 ++ (hostPart isInside cs).2 = cs := by
  fun_induction hostPart isInside cs with
  | case1 => rfl
  | case2 => rfl
  | case3 isInside c rest hcolon host after heq ih =>
    rw [heq] at ih
    exact congrArg (List.cons c) ih

theorem readPort_sublist {scheme : String} {port : Option Nat} {rest : List Char}
    (h : readPort scheme cs = .ok (port, rest)) : rest.Sublist cs := by
  rw [readPort] at h
  have hdrop := List.dropWhile_sublist Text.isDigit (l := cs)
  split at h
  · rename_i heq
    split at h
    · cases h
    · cases h
      exact heq ▸ hdrop
  · split at h
    · cases h
    · cases h
      exact List.nil_sublist _

theorem cutUser_sublist : ((cutUser cs).getD ([], cs)).2.Sublist cs := by
  rw [cutUser]
  split
  · have htake := (List.takeWhile_sublist (p := (· ≠ '@')) (l := cs.reverse)).reverse
    rwa [List.reverse_reverse] at htake
  · exact List.Sublist.refl _

theorem readAuthority_sublist {scheme : String} {isBare : Bool} {authority : Authority}
    {rest : List Char} (h : readAuthority scheme isBare cs = .ok (authority, rest)) :
    rest.Sublist cs := by
  have hafter : (hostPart false ((cutUser cs).getD ([], cs)).2).2.Sublist cs := by
    have hright := List.sublist_append_right (hostPart false ((cutUser cs).getD ([], cs)).2).1
      (hostPart false ((cutUser cs).getD ([], cs)).2).2
    rw [hostPart_append] at hright
    exact hright.trans cutUser_sublist
  rw [readAuthority] at h
  dsimp only at h
  split at h
  · cases h
  split at h
  · cases h
  split at h
  · cases h
  split at h
  · cases h
  split at h
  · rename_i hport
    split at h
    · cases h
    · rename_i hread
      cases h
      exact (readPort_sublist hread).trans ((List.sublist_cons_self ..).trans (hport ▸ hafter))
  · cases h
    exact hafter

/-! Reading. -/

/-- A URL that others are joined to as to a directory. -/
structure IsRoot (root : Url) : Prop where
  isSpecial : isSpecialScheme root.scheme = true
  ne_file : root.scheme ≠ "file"
  /-- The path ends with a slash. -/
  exists_path : ∃ front, root.path = .segments (front ++ [""])

/-- The URL has the scheme, and a path that is not longer than `size`. -/
def Within (u : Url) (scheme : String) (size : Nat) : Prop :=
  u.scheme = scheme ∧ u.path.text.length ≤ size

theorem within_withParts {p : Parts} {scheme : String} {authority : Option Authority} {size : Nat}
    (h : partsLength parts ≤ size) :
    (withParts p scheme authority (.segments parts)).Within scheme size :=
  ⟨rfl, length_segments_text ▸ h⟩

theorem within_readHierarchical {p : Parts} {scheme : String} {main : List Char} {u : Url}
    (h : readHierarchical p scheme main = .ok u) : u.Within scheme (pathSize main + 1) := by
  rw [readHierarchical] at h
  split at h
  · cases h
  · rename_i authority rest hread
    cases h
    refine within_withParts (Nat.le_trans (partsLength_afterAuthority_le _ _) (Nat.succ_le_succ ?_))
    refine pathSize_le_of_sublist ?_
    have happend := (readAuthority_sublist hread).append (List.Sublist.refl
      (main.dropWhile fun c => !isSlash (isSpecialScheme scheme) c))
    rwa [List.takeWhile_append_dropWhile] at happend

theorem readNear_scheme {p : Parts} {base : Option Url} {main : List Char} {u : Url}
    (h : readFile.readNear p base main = .ok u) (hbase : ∀ b, base = some b → b.scheme = "file") :
    u.scheme = "file" := by
  cases base with
  | none =>
    cases main with
    | nil =>
      cases h
      rfl
    | cons a rest =>
      rw [readFile.readNear] at h
      split at h
      all_goals
        cases h
        rfl
  | some near =>
    cases main with
    | nil =>
      rw [readFile.readNear] at h
      split at h
      · cases h
        rfl
      · cases h
        exact (hbase near rfl :)
    | cons a rest =>
      rw [readFile.readNear] at h
      split at h
      · split at h
        · split at h
          · cases h
            rfl
          · split at h
            all_goals
              cases h
              rfl
        · cases h
          rfl
      · split at h
        all_goals
          cases h
          rfl

theorem readFile_scheme {p : Parts} {base : Option Url} {u : Url} (h : readFile p base = .ok u)
    (hbase : ∀ b, base = some b → b.scheme = "file") : u.scheme = "file" := by
  have hmap {r : Except ReadError Host} {f : Host → Url} (hr : r.map f = .ok u)
      (hf : ∀ host, (f host).scheme = "file") : u.scheme = "file" := by
    cases r with
    | error e => cases hr
    | ok host =>
      cases hr
      exact hf host
  rw [readFile] at h
  split at h
  · split at h
    · dsimp only at h
      split at h
      · cases h
        rfl
      · exact hmap h fun _ => rfl
    · exact readNear_scheme h hbase
  · exact readNear_scheme h hbase

theorem scheme_of_foreign {p : Parts} {scheme : String} {u : Url}
    (h : (match p.main with
      | '/' :: '/' :: rest => readHierarchical p scheme rest
      | '/' :: rest => .ok (withParts p scheme none (.segments (fromRoot false rest)))
      | main =>
        .ok (withParts p scheme none (.rootless (String.ofList (percentEncode isControl main))))) =
          .ok u) :
    u.scheme = scheme := by
  split at h
  · exact (within_readHierarchical h).1
  all_goals
    cases h
    rfl

namespace IsRoot

variable {root u : Url} (hroot : root.IsRoot)
include hroot

theorem one_le_length : 1 ≤ root.path.text.length := by
  obtain ⟨front, hpath⟩ := hroot.exists_path
  rw [hpath, length_segments_text, partsLength_append]
  exact Nat.le_add_left ..

theorem within_of_within {size size' : Nat} (h : u.Within root.scheme (size + 1))
    (hsize : size ≤ size') : u.Within root.scheme (root.path.text.length + size') := by
  have hone := hroot.one_le_length
  exact ⟨h.1, Nat.le_trans h.2 (by omega)⟩

theorem within_readRelative {p : Parts} (h : readRelative p root (pathParts root) = .ok u) :
    u.Within root.scheme (root.path.text.length + pathSize p.main) := by
  obtain ⟨front, hpath⟩ := hroot.exists_path
  have hparts : pathParts root = front ++ [""] := by rw [pathParts, hpath]
  have hone := hroot.one_le_length
  have hlength : root.path.text.length = partsLength front + 1 := by
    rw [hpath, length_segments_text, partsLength_append]
    rfl
  rw [readRelative] at h
  dsimp only at h
  split at h
  · split at h
    all_goals
      cases h
      exact ⟨rfl, Nat.le_add_right ..⟩
  · rename_i rest hmain
    rw [hmain]
    refine hroot.within_of_within (within_readHierarchical h) (pathSize_le_of_sublist ?_)
    exact (List.sublist_cons_self ..).trans (List.sublist_cons_self ..)
  · rename_i a rest _ hmain
    rw [hmain]
    split at h
    · split at h
      · refine hroot.within_of_within (within_readHierarchical h) (pathSize_le_of_sublist ?_)
        exact (List.dropWhile_sublist _).trans (List.sublist_cons_self ..)
      · cases h
        exact hroot.within_of_within (within_withParts (partsLength_fromRoot_le _ rest))
          (pathSize_le_of_sublist (List.sublist_cons_self ..))
    · cases h
      have hfollow :=
        partsLength_follow_le front (cutAtSlashes (isSpecialScheme root.scheme) (a :: rest))
      rw [piecesSize_cutAtSlashes] at hfollow
      refine within_withParts ?_
      rw [hparts, List.dropLast_concat]
      omega

theorem within_readAbsolute {scheme : String} (h : readAbsolute (some root) scheme cs = .ok u)
    (hscheme : u.scheme = root.scheme) :
    u.Within root.scheme (root.path.text.length + pathSize (Parts.ofChars cs).main) := by
  rw [readAbsolute] at h
  dsimp only at h
  split at h
  · -- The scheme of files is not that of the root.
    have hfile := readFile_scheme h fun b hb => by
      have hmem := Option.filter_eq_some_iff.mp hb
      exact of_decide_eq_true hmem.2
    exact absurd (hscheme.symm.trans hfile) hroot.ne_file
  · split at h
    · split at h
      · rename_i base hbase
        obtain ⟨hsame, -⟩ := Option.filter_eq_some_iff.mp hbase
        cases Option.some.inj hsame
        exact hroot.within_readRelative h
      · obtain ⟨hread, hlength⟩ := within_readHierarchical h
        refine hroot.within_of_within ⟨hscheme, hlength⟩ (pathSize_le_of_sublist ?_)
        exact List.dropWhile_sublist _
    · rename_i hforeign
      exact absurd (scheme_of_foreign h ▸ hscheme ▸ hroot.isSpecial) hforeign

end IsRoot

/-! What is read on its own is a root, once its path ends with a slash. -/

theorem readHierarchical_path {p : Parts} {scheme : String} {main : List Char} {u : Url}
    (h : readHierarchical p scheme main = .ok u) : ∃ parts, u.path = .segments parts := by
  rw [readHierarchical] at h
  split at h
  · cases h
  · cases h
    exact ⟨_, rfl⟩

theorem exists_segments_of_read {s : String} {u : Url} (h : read s = .ok u)
    (hspecial : isSpecialScheme u.scheme = true) (hfile : u.scheme ≠ "file") :
    ∃ parts, u.path = .segments parts := by
  unfold read readChars at h
  cases hread : readScheme (significant s) with
  | none =>
    rw [hread] at h
    cases h
  | some behind =>
    obtain ⟨scheme, rest⟩ := behind
    rw [hread] at h
    dsimp only at h
    rw [readAbsolute] at h
    dsimp only at h
    split at h
    · exact absurd (readFile_scheme h nofun) hfile
    · split at h
      · split at h
        · rename_i hbase
          cases hbase
        · exact readHierarchical_path h
      · rename_i hforeign
        exact absurd (scheme_of_foreign h ▸ hspecial) hforeign

theorem isRoot_withSlash {u : Url} (hspecial : isSpecialScheme u.scheme = true)
    (hfile : u.scheme ≠ "file") {parts : List String} (hpath : u.path = .segments parts) :
    u.withSlash.IsRoot := by
  rw [withSlash, hpath]
  dsimp only
  split
  · rename_i hlast
    obtain ⟨front, hfront⟩ := List.getLast?_eq_some_iff.mp hlast
    exact ⟨hspecial, hfile, front, hpath.trans (congrArg UrlPath.segments hfront)⟩
  · exact ⟨hspecial, hfile, parts, rfl⟩

/-! Joining. -/

theorem main_sublist (cs : List Char) : (Parts.ofChars cs).main.Sublist cs :=
  (List.takeWhile_sublist _).trans (List.takeWhile_sublist _)

theorem significant_sublist (s : String) : (significant s).Sublist s.toList := by
  have hend :=
    (List.dropWhile_sublist isOuterBlank (l := (s.toList.dropWhile isOuterBlank).reverse)).reverse
  rw [List.reverse_reverse] at hend
  exact List.filter_sublist.trans (hend.trans (List.dropWhile_sublist _))

theorem readScheme_sublist {scheme : String} {rest : List Char}
    (h : readScheme cs = some (scheme, rest)) : rest.Sublist cs ∧ rest ≠ cs := by
  cases cs with
  | nil => cases h
  | cons c tail =>
    rw [readScheme] at h
    split at h
    · cases h
    · split at h
      · rename_i after heq
        cases h
        have hdrop := List.dropWhile_sublist isSchemeChar (l := tail)
        rw [heq] at hdrop
        have hrest := (List.sublist_cons_self ':' rest).trans hdrop
        refine ⟨hrest.trans (List.sublist_cons_self ..), fun hsame => ?_⟩
        have hlength := hrest.length_le
        rw [hsame, List.length_cons] at hlength
        omega
      · cases h

/-- All characters of a text count when it is joined, and none belongs to a
scheme, a query or a fragment. -/
def IsAllPath (s : String) : Prop :=
  significant s = s.toList ∧ readScheme s.toList = none ∧ (Parts.ofChars s.toList).main = s.toList

/--
Joining a text to a root leads to another scheme, or lengthens the path by no more than some part of
the text, which is the whole of it only if all of it counts.
-/
theorem length_path_join {root u : Url} {s : String} (hroot : root.IsRoot)
    (h : root.join s = .ok u) (hscheme : u.scheme = root.scheme) :
    ∃ main : List Char, main.Sublist s.toList ∧
      u.path.text.length ≤ root.path.text.length + pathSize main ∧
      (main = s.toList → IsAllPath s) := by
  obtain ⟨front, hpath⟩ := hroot.exists_path
  have hsignificant := significant_sublist s
  unfold join readChars at h
  cases hread : readScheme (significant s) with
  | some behind =>
    obtain ⟨scheme, rest⟩ := behind
    rw [hread] at h
    obtain ⟨hrest, hne⟩ := readScheme_sublist hread
    have hmain := main_sublist rest
    refine ⟨_, (hmain.trans hrest).trans hsignificant, (hroot.within_readAbsolute h hscheme).2,
      fun hall => ?_⟩
    rw [← hall] at hsignificant
    exact absurd (hrest.antisymm (hsignificant.trans hmain)) hne
  | none =>
    have hne := hroot.ne_file
    have hparts : pathParts root = front ++ [""] := by rw [pathParts, hpath]
    simp only [hread, hpath, if_neg hne] at h
    rw [← hparts] at h
    have hmain := main_sublist (significant s)
    refine ⟨_, hmain.trans hsignificant, (hroot.within_readRelative h).2, fun hall => ?_⟩
    have hsame : significant s = s.toList := hsignificant.antisymm (hall ▸ hmain)
    rw [hsame] at hread hall
    exact ⟨hsame, hread, hall⟩

end ContentConsole.Url
