import ContentConsole.Toml.Text
import Mathlib.Tactic.IntervalCases

set_option autoImplicit false
set_option relaxedAutoImplicit false

/-!
A string that was written is read back, whichever of the five ways of quoting it took. Between
triple quotes the reader looks ahead past quotes that belong to the string, so the statements there
speak of a run of quotes already passed: at most two, and what follows is no further quote. Main
statement: `readText_writeText`.
-/
namespace ContentConsole.Toml

variable {c : Char} {cs rest : List Char} {q best : Nat}

@[simp] theorem consChar_some : consChar c (some (cs, rest)) = some (c :: cs, rest) := rfl

theorem foldr_consChar_some (pre : List Char) :
    pre.foldr consChar (some (cs, rest)) = some (pre ++ cs, rest) := by
  induction pre with
  | nil => rfl
  | cons x pre ih => rw [List.foldr_cons, ih, consChar_some, List.cons_append]

/-! ## Between double quotes -/

theorem escaped_eq_cons (isLong : Bool) (q : Nat) (c : Char) :
    ∃ y e, escaped isLong q c = y :: e ∧
      (y = '\\' ∨ y = c ∧ c ≠ '\r' ∧ (c = '"' → isLong = true ∧ q < 2)) := by
  unfold escaped
  split_ifs with hquote hplain
  · exact ⟨_, _, rfl, .inr ⟨hquote.symm, by simp [hquote], fun _ => by simpa using hplain⟩⟩
  all_goals exact ⟨_, _, rfl, by simp [*]⟩

theorem numberedChar_hexDigit {n : Nat} (h : n < 128) :
    numberedChar ['0', '0', hexDigit (n / 16), hexDigit (n % 16)] = some (Char.ofNat n) := by
  have hall : ∀ m : Fin 128,
      numberedChar ['0', '0', hexDigit (m / 16), hexDigit (m % 16)] = some (Char.ofNat m) := by
    decide +kernel
  exact hall ⟨n, h⟩

theorem isPrintable_of_ge (hlow : 0x20 ≤ c.toNat) (hdelete : c.toNat ≠ 0x7F) :
    isPrintable c = true := by
  simp [isPrintable, hlow, hdelete]

theorem isPrintable_of_not_isControl (h : isControl c = false) (hfeed : c ≠ '\n') :
    isPrintable c = true := by
  by_cases htab : c = '\t'
  · subst c
    rfl
  · simp only [isControl, htab, hfeed, ne_eq, not_false_eq_true, decide_true, Bool.and_true,
      Bool.or_eq_false_iff, decide_eq_false_iff_not, Nat.not_lt] at h
    exact isPrintable_of_ge h.1 h.2

theorem readBasic_plain (hquote : c ≠ '"') (hslash : c ≠ '\\') (h : isPrintable c = true) :
    readBasic (c :: rest) = consChar c (readBasic rest) := by
  rw [readBasic, if_pos h]
  all_goals simp_all

theorem readBasic_control (h : c.toNat < 0x20 ∨ c.toNat = 0x7F) :
    readBasic
      ('\\' :: 'u' :: '0' :: '0' :: hexDigit (c.toNat / 16) :: hexDigit (c.toNat % 16) :: rest) =
      consChar c (readBasic rest) := by
  rw [readBasic, numberedChar_hexDigit (by omega), Char.ofNat_toNat]

theorem readBasic_escaped (q : Nat) (c : Char) (rest : List Char) :
    readBasic (escaped false q c ++ rest) = consChar c (readBasic rest) := by
  unfold escaped
  -- Seven characters have a mark of their own behind the backslash.
  iterate 7
    split
    · subst c
      rfl
  split
  · rename_i hcontrol
    exact readBasic_control (by simpa using hcontrol)
  · rename_i hquote hslash _ _ _ _ _ hcontrol
    simp only [Bool.or_eq_true, decide_eq_true_eq, not_or, Nat.not_lt] at hcontrol
    exact readBasic_plain hquote hslash (isPrintable_of_ge hcontrol.1 hcontrol.2)

theorem readBasic_writeBetween (q : Nat) (cs rest : List Char) :
    readBasic (writeBetween false q cs ++ '"' :: rest) = some (cs, rest) := by
  induction cs generalizing q with
  | nil => rfl
  | cons c cs ih => rw [writeBetween, List.append_assoc, readBasic_escaped, ih, consChar_some]

/-! ## Between triple double quotes -/

theorem readLines_plain (hquote : c ≠ '"') (hslash : c ≠ '\\') (h : isPrintable c = true) :
    readLines false (c :: rest) = consChar c (readLines false rest) := by
  have hreturn : c ≠ '\r' := by rintro rfl; exact absurd h (by decide)
  have hfeed : c ≠ '\n' := by rintro rfl; exact absurd h (by decide)
  rw [readLines, if_neg (by simp), if_pos h]
  all_goals simp_all

theorem readLines_control (h : c.toNat < 0x20 ∨ c.toNat = 0x7F) :
    readLines false
        ('\\' :: 'u' :: '0' :: '0' :: hexDigit (c.toNat / 16) :: hexDigit (c.toNat % 16) :: rest) =
      consChar c (readLines false rest) := by
  rw [readLines, numberedChar_hexDigit (by omega), Char.ofNat_toNat]

theorem readLines_escaped (h : ¬ (c = '"' ∧ q < 2)) (rest : List Char) :
    readLines false (escaped true q c ++ rest) = consChar c (readLines false rest) := by
  unfold escaped
  split
  · subst c
    rw [if_neg (by simpa using h)]
    rfl
  iterate 6
    split
    · subst c
      rfl
  split
  · rename_i hcontrol
    exact readLines_control (by simpa using hcontrol)
  · rename_i hquote hslash _ _ _ _ _ hcontrol
    simp only [Bool.or_eq_true, decide_eq_true_eq, not_or, Nat.not_lt] at hcontrol
    exact readLines_plain hquote hslash (isPrintable_of_ge hcontrol.1 hcontrol.2)

theorem readLines_quotes {y : Char} (hy : y ≠ '"') (hq : q ≤ 2) :
    readLines false (List.replicate q '"' ++ y :: rest) =
      (List.replicate q '"').foldr consChar (readLines false (y :: rest)) := by
  have hone : readLines false ('"' :: y :: rest) = consChar '"' (readLines false (y :: rest)) := by
    rw [readLines]
    all_goals simp_all [isPrintable]
  have htwo : readLines false ('"' :: '"' :: y :: rest) =
      consChar '"' (consChar '"' (readLines false (y :: rest))) := by
    rw [readLines, hone]
    all_goals simp_all [isPrintable]
  match q, hq with
  | 0, _ => rfl
  | 1, _ => exact hone
  | 2, _ => exact htwo

theorem readLines_closing (hrest : ∀ tail, rest ≠ '"' :: tail) (hq : q ≤ 2) :
    readLines false (List.replicate q '"' ++ '"' :: '"' :: '"' :: rest) =
      some (List.replicate q '"', rest) := by
  match q, hq with
  | 0, _ =>
    simp only [List.replicate_zero, List.nil_append]
    rw [readLines]
    all_goals simp_all
  | 1, _ =>
    simp only [List.replicate_one, List.cons_append, List.nil_append]
    rw [readLines]
    simp_all
  | 2, _ => rfl

theorem readLines_writeBetween (hrest : ∀ tail, rest ≠ '"' :: tail) (cs : List Char) (hq : q ≤ 2) :
    readLines false
      (List.replicate q '"' ++ (writeBetween true q cs ++ '"' :: '"' :: '"' :: rest)) =
      some (List.replicate q '"' ++ cs, rest) := by
  induction cs generalizing q with
  | nil => simpa [writeBetween] using readLines_closing hrest hq
  | cons c cs ih =>
    by_cases hplain : c = '"' ∧ q < 2
    · obtain ⟨rfl, hlt⟩ := hplain
      have hone := ih (q := q + 1) (by omega)
      simpa [writeBetween, escaped, hlt, List.replicate_succ'] using hone
    · obtain ⟨y, e, he, hhead⟩ := escaped_eq_cons true q c
      have hy : y ≠ '"' := by
        rintro rfl
        obtain h | ⟨h, -, hquote⟩ := hhead
        · exact absurd h (by decide)
        · exact hplain ⟨h.symm, (hquote h.symm).2⟩
      have hread := readLines_escaped hplain (writeBetween true 0 cs ++ '"' :: '"' :: '"' :: rest)
      have hzero := ih (q := 0) (by omega)
      simp only [List.replicate_zero, List.nil_append] at hzero
      have hnext : (if (c = '"' && true && q < 2) = true then q + 1 else 0) = 0 := by
        rw [if_neg (by simpa using hplain)]
      rw [writeBetween, hnext, List.append_assoc, he, List.cons_append, readLines_quotes hy hq,
        ← List.cons_append, ← he, hread, hzero, consChar_some, foldr_consChar_some]

/-! ## Between single quotes -/

theorem readLiteral_append (h : ∀ c ∈ cs, c ≠ '\'' ∧ isPrintable c = true) (rest : List Char) :
    readLiteral (cs ++ '\'' :: rest) = some (cs, rest) := by
  induction cs with
  | nil => rfl
  | cons c cs ih =>
    obtain ⟨⟨hquote, hprintable⟩, hcs⟩ := List.forall_mem_cons.mp h
    rw [List.cons_append, readLiteral, if_pos hprintable, ih hcs, consChar_some]
    exact hquote

theorem readLiteralLines_other (hquote : c ≠ '\'') (h : isControl c = false) :
    readLiteralLines (c :: rest) = consChar c (readLiteralLines rest) := by
  by_cases hfeed : c = '\n'
  · subst c
    rfl
  · have hprintable := isPrintable_of_not_isControl h hfeed
    have hreturn : c ≠ '\r' := by rintro rfl; exact absurd h (by decide)
    rw [readLiteralLines, if_pos hprintable]
    all_goals simp_all

theorem readLiteralLines_quotes {y : Char} (hy : y ≠ '\'') (hq : q ≤ 2) :
    readLiteralLines (List.replicate q '\'' ++ y :: rest) =
      (List.replicate q '\'').foldr consChar (readLiteralLines (y :: rest)) := by
  have hone : readLiteralLines ('\'' :: y :: rest) =
      consChar '\'' (readLiteralLines (y :: rest)) := by
    rw [readLiteralLines]
    all_goals simp_all [isPrintable]
  have htwo : readLiteralLines ('\'' :: '\'' :: y :: rest) =
      consChar '\'' (consChar '\'' (readLiteralLines (y :: rest))) := by
    rw [readLiteralLines, hone]
    all_goals simp_all [isPrintable]
  match q, hq with
  | 0, _ => rfl
  | 1, _ => exact hone
  | 2, _ => exact htwo

theorem readLiteralLines_closing (hrest : ∀ tail, rest ≠ '\'' :: tail) (hq : q ≤ 2) :
    readLiteralLines (List.replicate q '\'' ++ '\'' :: '\'' :: '\'' :: rest) =
      some (List.replicate q '\'', rest) := by
  match q, hq with
  | 0, _ =>
    simp only [List.replicate_zero, List.nil_append]
    rw [readLiteralLines]
    all_goals simp_all
  | 1, _ =>
    simp only [List.replicate_one, List.cons_append, List.nil_append]
    rw [readLiteralLines]
    simp_all
  | 2, _ => rfl

theorem le_longestRun (x : Char) (q best : Nat) (cs : List Char) :
    best ≤ longestRun x q best cs := by
  induction cs generalizing q best with
  | nil => exact Nat.le_refl best
  | cons c cs ih =>
    rw [longestRun]
    split
    · exact (Nat.le_max_left best (q + 1)).trans (ih (q + 1) (max best (q + 1)))
    · exact ih 0 best

theorem readLiteralLines_append (hrest : ∀ tail, rest ≠ '\'' :: tail)
    (hcs : ∀ c ∈ cs, isControl c = false) (hq : q ≤ 2) (hrun : longestRun '\'' q best cs ≤ 2) :
    readLiteralLines (List.replicate q '\'' ++ (cs ++ '\'' :: '\'' :: '\'' :: rest)) =
      some (List.replicate q '\'' ++ cs, rest) := by
  induction cs generalizing q best with
  | nil => simpa using readLiteralLines_closing hrest hq
  | cons c cs ih =>
    obtain ⟨hc, htail⟩ := List.forall_mem_cons.mp hcs
    rw [longestRun] at hrun
    split at hrun
    · subst c
      have hle : q + 1 ≤ 2 :=
        (Nat.le_max_right best (q + 1)).trans ((le_longestRun '\'' (q + 1) _ cs).trans hrun)
      have hone := ih htail hle hrun
      simpa [List.replicate_succ'] using hone
    · rename_i hquote
      have hzero := ih htail (Nat.zero_le 2) hrun
      simp only [List.replicate_zero, List.nil_append] at hzero
      rw [List.cons_append, readLiteralLines_quotes hquote hq,
        readLiteralLines_other hquote hc, hzero, consChar_some, foldr_consChar_some]

/-! ## The five ways of quoting -/

theorem not_mem_of_longestRun_eq_zero {x : Char} (h : longestRun x q best cs = 0) : x ∉ cs := by
  induction cs generalizing q best with
  | nil => exact List.not_mem_nil
  | cons c cs ih =>
    rw [longestRun] at h
    split at h
    · have hle := (Nat.le_max_right best (q + 1)).trans (le_longestRun x (q + 1) _ cs)
      omega
    · rename_i hne
      exact List.not_mem_cons_of_ne_of_not_mem (Ne.symm hne) (ih h)

theorem readText_basic (hrest : ∀ tail, rest ≠ '"' :: tail) (cs : List Char) :
    readText ('"' :: (writeBetween false 0 cs ++ '"' :: rest)) = some (String.ofList cs, rest) := by
  rw [readText, readBasic_writeBetween]
  · rfl
  · intro tail htail
    cases cs with
    | nil => exact hrest tail (by simpa [writeBetween] using htail)
    | cons c cs =>
      obtain ⟨y, e, he, hhead⟩ := escaped_eq_cons false 0 c
      simp only [writeBetween, he, List.cons_append, List.cons.injEq] at htail
      obtain h | ⟨h, -, hquote⟩ := hhead
      · exact absurd (h.symm.trans htail.1) (by decide)
      · exact Bool.false_ne_true (hquote (h.symm.trans htail.1)).1

theorem readText_literal (hrest : ∀ tail, rest ≠ '\'' :: tail)
    (hcs : ∀ c ∈ cs, c ≠ '\'' ∧ isPrintable c = true) :
    readText ('\'' :: (cs ++ '\'' :: rest)) = some (String.ofList cs, rest) := by
  rw [readText, readLiteral_append hcs]
  · rfl
  · intro tail htail
    cases cs with
    | nil => exact hrest tail (by simpa using htail)
    | cons c cs =>
      simp only [List.cons_append, List.cons.injEq] at htail
      exact (hcs c List.mem_cons_self).1 htail.1

theorem dropFirstNewline_of_ne (hfeed : c ≠ '\n') (hreturn : c ≠ '\r') (rest : List Char) :
    dropFirstNewline (c :: rest) = c :: rest := by
  rw [dropFirstNewline, readNewline?]
  · rfl
  all_goals simp_all

def lead (cs : List Char) : List Char := if cs.contains '\n' then ['\n'] else []

theorem dropFirstNewline_lead {written : List Char}
    (h : '\n' ∉ cs → ∃ y e, written = y :: e ∧ y ≠ '\n' ∧ y ≠ '\r') :
    dropFirstNewline (lead cs ++ written) = written := by
  by_cases hfeed : '\n' ∈ cs
  · rw [lead, if_pos (by simpa using hfeed)]
    rfl
  · obtain ⟨y, e, rfl, hy, hreturn⟩ := h hfeed
    rw [lead, if_neg (by simpa using hfeed)]
    exact dropFirstNewline_of_ne hy hreturn e

theorem readText_lines (hrest : ∀ tail, rest ≠ '"' :: tail) (cs : List Char) :
    readText
      ('"' :: '"' :: '"' :: (lead cs ++ (writeBetween true 0 cs ++ '"' :: '"' :: '"' :: rest))) =
      some (String.ofList cs, rest) := by
  have hread := readLines_writeBetween hrest cs (Nat.zero_le 2)
  simp only [List.replicate_zero, List.nil_append] at hread
  rw [readText, dropFirstNewline_lead, hread]
  · rfl
  · intro hfeed
    cases cs with
    | nil => exact ⟨'"', '"' :: '"' :: rest, rfl, by decide, by decide⟩
    | cons c cs =>
      obtain ⟨y, e, he, hhead⟩ := escaped_eq_cons true 0 c
      refine ⟨y, _, by rw [writeBetween, he, List.cons_append, List.cons_append], ?_⟩
      obtain rfl | ⟨rfl, hreturn, -⟩ := hhead
      · decide
      · exact ⟨fun h => hfeed (by simp [h]), hreturn⟩

theorem readText_literalLines (hrest : ∀ tail, rest ≠ '\'' :: tail)
    (hcs : ∀ c ∈ cs, isControl c = false) (hrun : longestRun '\'' 0 0 cs ≤ 2) :
    readText ('\'' :: '\'' :: '\'' :: (lead cs ++ (cs ++ '\'' :: '\'' :: '\'' :: rest))) =
      some (String.ofList cs, rest) := by
  have hread := readLiteralLines_append hrest hcs (Nat.zero_le 2) hrun
  simp only [List.replicate_zero, List.nil_append] at hread
  rw [readText, dropFirstNewline_lead, hread]
  · rfl
  · intro hfeed
    cases cs with
    | nil => exact ⟨'\'', '\'' :: '\'' :: rest, rfl, by decide, by decide⟩
    | cons c cs =>
      have hc := hcs c List.mem_cons_self
      exact ⟨c, _, rfl, fun h => hfeed (by simp [h]),
        fun h => by rw [h] at hc; exact absurd hc (by decide)⟩

/-- A string that was written is read back, unless a further quote follows. -/
theorem readText_writeText (hdouble : ∀ tail, rest ≠ '"' :: tail)
    (hsingle : ∀ tail, rest ≠ '\'' :: tail) (s : String) :
    readText (writeText s ++ rest) = some (s, rest) := by
  have hlead : (if s.toList.contains '\n' then ['\n'] else []) = lead s.toList := rfl
  have hcontrol : ∀ {c}, s.toList.any isControl = false → c ∈ s.toList → isControl c = false := by
    intro c h hc
    simpa using List.any_eq_false.mp h c hc
  simp only [writeText, hlead, triple]
  split_ifs with hbasic hliteral hlines hliteralLines hnewline
  · simpa using readText_basic hdouble s.toList
  · simp only [Bool.and_eq_true, Bool.not_eq_true', decide_eq_true_eq, List.contains_eq_mem,
      decide_eq_false_iff_not] at hliteral
    obtain ⟨⟨hnone, hsingles⟩, hfeed⟩ := hliteral
    have hcs : ∀ c ∈ s.toList, c ≠ '\'' ∧ isPrintable c = true := fun c hc =>
      ⟨fun h => not_mem_of_longestRun_eq_zero hsingles (h ▸ hc),
        isPrintable_of_not_isControl (hcontrol hnone hc) fun h => hfeed (h ▸ hc)⟩
    simpa using readText_literal hsingle hcs
  · simpa using readText_lines hdouble s.toList
  · simp only [Bool.and_eq_true, Bool.not_eq_true', decide_eq_true_eq] at hliteralLines
    simpa using readText_literalLines hsingle (fun c hc => hcontrol hliteralLines.1 hc)
      hliteralLines.2
  · simpa using readText_lines hdouble s.toList
  · simpa using readText_basic hdouble s.toList

end ContentConsole.Toml
