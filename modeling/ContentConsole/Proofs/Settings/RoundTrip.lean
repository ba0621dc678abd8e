import ContentConsole.Proofs.Toml.Bounds
import ContentConsole.Proofs.Toml.Lines
import ContentConsole.Settings
import Mathlib.Data.List.DropRight

set_option autoImplicit false
set_option relaxedAutoImplicit false

/-!
Settings survive being written. Settings that were read and overridden have a normal root and
numbers that a document can hold; such settings are written, and the document is read as the very
same settings. Main statement: `ofText_write_override`.
-/
namespace ContentConsole

namespace Text

theorem head?_trim {s : String} {c : Char} (h : c ∈ (trim s).toList.head?) : isBlank c = false := by
  rw [trim, String.toList_ofList] at h
  have hprefix : trimEnd (trimStart s.toList) <+: trimStart s.toList :=
    List.rdropWhile_prefix isBlank _
  obtain ⟨tail, htail⟩ := hprefix
  cases hcons : trimEnd (trimStart s.toList) with
  | nil => simp [hcons] at h
  | cons d ds =>
    obtain rfl : d = c := by simpa [hcons] using h
    rw [hcons, List.cons_append] at htail
    have hhead := List.head?_dropWhile_not isBlank s.toList
    rw [← trimStart, ← htail] at hhead
    simpa using hhead

theorem trim_eq_self {s : String} (hstart : ∀ c ∈ s.toList.head?, isBlank c = false)
    (hend : ∀ c ∈ s.toList.getLast?, isBlank c = false) : trim s = s := by
  have hkeepStart : trimStart s.toList = s.toList := by
    cases hcons : s.toList with
    | nil => rfl
    | cons c cs =>
      have hc := hstart c (by simp [hcons])
      rw [trimStart, List.dropWhile_cons_of_neg (by simp [hc])]
  have hkeepEnd : trimEnd s.toList = s.toList := by
    refine List.rdropWhile_eq_self_iff.mpr fun hne => ?_
    have hlast := hend _ (List.getLast?_eq_some_getLast hne)
    simp [hlast]
  rw [trim, hkeepStart, hkeepEnd, String.ofList_toList]

end Text

namespace Settings

/-! ## The root -/

/-- A root without blanks around it that ends in a slash. -/
structure IsNormalRoot (root : String) : Prop where
  start : ∀ c ∈ root.toList.head?, Text.isBlank c = false
  last : root.toList.getLast? = some '/'

theorem isNormalRoot_normalRoot (root : String) : IsNormalRoot (normalRoot root) := by
  simp only [normalRoot]
  split
  · rename_i hlast
    exact ⟨fun c hc => Text.head?_trim hc, hlast⟩
  · refine ⟨fun c hc => ?_, by simp⟩
    rw [String.toList_append] at hc
    cases hhead : (Text.trim root).toList with
    | nil =>
      rw [hhead] at hc
      obtain rfl : '/' = c := by simpa using hc
      decide
    | cons d ds =>
      rw [hhead] at hc
      exact Text.head?_trim (s := root) (by rw [hhead]; simpa using hc)

theorem IsNormalRoot.normalRoot_eq {root : String} (h : IsNormalRoot root) :
    normalRoot root = root := by
  have htrim : Text.trim root = root := by
    refine Text.trim_eq_self h.start fun c hc => ?_
    rw [h.last] at hc
    obtain rfl : '/' = c := by simpa using hc
    decide
  simp only [normalRoot]
  rw [htrim, if_pos h.last]

/-! ## Numbers -/

/-- Both numbers can stand in a document. -/
structure InRange (s : ServerSettings) : Prop where
  pageSize : Toml.fits s.pageSize = true
  timeoutMs : Toml.fits s.timeoutMs = true

theorem InRange.congr {s t : ServerSettings} (h : InRange s) (hpage : t.pageSize = s.pageSize)
    (htimeout : t.timeoutMs = s.timeoutMs) : InRange t :=
  ⟨by rw [hpage, h.pageSize], by rw [htimeout, h.timeoutMs]⟩

theorem fits_of_asNat {v : Toml} {n : Nat} (hv : Toml.Bounded v)
    (h : v.asNat? = some n) : Toml.fits n = true := by
  cases hv with
  | @integer m hfits =>
    cases m with
    | ofNat m =>
      obtain rfl := Option.some.inj h
      exact hfits
    | negSucc m => exact absurd h (by simp [Toml.asNat?])
  | _ => exact absurd h (by simp [Toml.asNat?])

theorem inRange_of_readField {s t : ServerSettings} {field : String × Toml} (hs : InRange s)
    (hfield : Toml.Bounded field.2) (h : s.readField field = some t) : InRange t := by
  unfold ServerSettings.readField at h
  split at h
  · obtain ⟨x, -, rfl⟩ := Option.map_eq_some_iff.mp h
    exact hs.congr rfl rfl
  · obtain ⟨x, -, rfl⟩ := Option.map_eq_some_iff.mp h
    exact hs.congr rfl rfl
  · obtain ⟨x, -, rfl⟩ := Option.map_eq_some_iff.mp h
    exact hs.congr rfl rfl
  · obtain ⟨x, hx, rfl⟩ := Option.map_eq_some_iff.mp h
    exact ⟨fits_of_asNat hfield hx, hs.timeoutMs⟩
  · obtain ⟨x, hx, rfl⟩ := Option.map_eq_some_iff.mp h
    exact ⟨hs.pageSize, fits_of_asNat hfield hx⟩
  · exact Option.some.inj h ▸ hs

theorem foldlM_keeps {α β : Type} {f : β → α → Option β} {P : β → Prop} {Q : α → Prop}
    (hstep : ∀ {b a out}, P b → Q a → f b a = some out → P out) {as : List α} {b out : β}
    (has : ∀ a ∈ as, Q a) (hb : P b) (h : as.foldlM f b = some out) : P out := by
  induction as generalizing b with
  | nil => exact Option.some.inj h ▸ hb
  | cons a as ih =>
    obtain ⟨ha, has⟩ := List.forall_mem_cons.mp has
    rw [List.foldlM_cons] at h
    obtain ⟨next, hnext, hrest⟩ := Option.bind_eq_some_iff.mp h
    exact ih has (hstep hb ha hnext) hrest

theorem bounded_of_fields {names : List String} {v : Toml} {fields : List (String × Toml)}
    (hv : Toml.Bounded v) (h : v.fields? names = some fields) : ∀ e ∈ fields, Toml.Bounded e.2 := by
  cases hv with
  | table hentries => exact Option.some.inj h ▸ hentries
  | array hitems =>
    obtain rfl := Option.some.inj h
    exact fun e he => hitems e.2 (List.of_mem_zip he).2
  | moment written =>
    obtain rfl := Option.some.inj h
    simp
  | _ => exact absurd h (by simp [Toml.fields?])

theorem inRange_of_server {v : Toml} {s : ServerSettings} (hv : Toml.Bounded v)
    (h : ServerSettings.ofToml? v = some s) : InRange s := by
  obtain ⟨fields, hfields, hfold⟩ := Option.bind_eq_some_iff.mp h
  exact foldlM_keeps (P := InRange) inRange_of_readField (bounded_of_fields hv hfields)
    ⟨by decide, by decide⟩ hfold

theorem inRange_of_readSettings {s t : Settings} {field : String × Toml} (hs : InRange s.server)
    (hfield : Toml.Bounded field.2) (h : s.readField field = some t) : InRange t.server := by
  unfold readField at h
  split at h
  · obtain ⟨server, hserver, rfl⟩ := Option.map_eq_some_iff.mp h
    exact inRange_of_server hfield hserver
  · obtain ⟨tree, -, rfl⟩ := Option.map_eq_some_iff.mp h
    exact hs
  · exact Option.some.inj h ▸ hs

theorem inRange_of_ofToml {v : Toml} {s : Settings} (hv : Toml.Bounded v)
    (h : ofToml? v = some s) : InRange s.server := by
  cases hv with
  | table hentries =>
    exact foldlM_keeps (P := fun s => InRange s.server) inRange_of_readSettings hentries
      ⟨by decide, by decide⟩ h
  | _ => exact absurd h (by simp [ofToml?])

/-! ## Reading and overriding -/

/-- Settings as reading and overriding leave them. -/
structure Settled (s : Settings) : Prop where
  root : IsNormalRoot s.server.rootUrl
  range : InRange s.server

theorem Settled.normalize_eq {s : Settings} (h : s.Settled) : s.normalize = s := by
  rw [normalize, h.root.normalRoot_eq]

theorem normalize_rootUrl (s : Settings) :
    s.normalize.server.rootUrl = normalRoot s.server.rootUrl := by
  rw [normalize]

theorem settled_normalize {s : Settings} (h : InRange s.server) : s.normalize.Settled where
  root := by
    rw [normalize_rootUrl]
    exact isNormalRoot_normalRoot s.server.rootUrl
  range := by
    rw [normalize]
    exact h.congr rfl rfl

theorem settled_of_ofText {text : String} {s : Settings} (h : ofText text = .ok s) : s.Settled := by
  unfold ofText at h
  split at h
  · rename_i read hread
    obtain rfl := Except.ok.inj h
    obtain ⟨v, hv, hsettings⟩ := Option.bind_eq_some_iff.mp hread
    exact settled_normalize (inRange_of_ofToml (Toml.bounded_of_read hv) hsettings)
  · exact absurd h (by simp)

theorem Settled.override {s : Settings} (h : s.Settled) (env : String → Option String) :
    (s.override env).Settled :=
  settled_normalize (h.range.congr rfl rfl)

theorem Settled.foldl_override {s : Settings} (h : s.Settled)
    (envs : List (String → Option String)) :
    (envs.foldl Settings.override s).Settled := by
  induction envs generalizing s with
  | nil => exact h
  | cons env envs ih =>
    rw [List.foldl_cons]
    exact ih (h.override env)

theorem override_nothing (s : Settings) : s.override (fun _ => none) = s.normalize := rfl

/-! ## Writing -/

theorem Settled.write_eq {s : Settings} (h : s.Settled) : s.write = .ok s.toText := by
  rw [write, h.range.pageSize, h.range.timeoutMs]
  rfl

def textLine (key value : String) : Toml.Line := ⟨key, Toml.writeText value, .text value⟩

def optionalLine (key : String) : Option String → List Toml.Line
  | some value => [textLine key value]
  | none => []

def numberLine (key : String) (n : Nat) : Toml.Line := ⟨key, Nat.toDigits 10 n, .integer n⟩

def switchLine (key : String) (b : Bool) : Toml.Line := ⟨key, writeBool b, .boolean b⟩

def serverLines (s : ServerSettings) : List Toml.Line :=
  textLine "root_url" s.rootUrl :: optionalLine "session_token" s.sessionToken ++
    [textLine "session_header" s.sessionHeader, numberLine "page_size" s.pageSize,
      numberLine "timeout_ms" s.timeoutMs]

def treeLines (s : TreeSettings) : List Toml.Line :=
  optionalLine "expansion_state" s.expansionState ++ [switchLine "sort_components" s.sortComponents]

theorem textEntry_eq (key value : String) : textEntry key value = (textLine key value).text := rfl

theorem entry_toDigits (key : String) (n : Nat) :
    entry key (Nat.toDigits 10 n) = (numberLine key n).text := rfl

theorem entry_writeBool (key : String) (b : Bool) :
    entry key (writeBool b) = (switchLine key b).text :=
  rfl

theorem optionalEntry_eq (key : String) (value : Option String) :
    optionalEntry key value = (optionalLine key value).flatMap Toml.Line.text := by
  cases value with
  | none => rfl
  | some value => exact (List.append_nil _).symm

theorem toList_toText (s : Settings) :
    s.toText.toList =
      '[' :: ("server".toList ++ ']' :: '\n' :: ((serverLines s.server).flatMap Toml.Line.text ++
        '\n' :: '[' ::
          ("tree".toList ++ ']' :: '\n' :: ((treeLines s.tree).flatMap Toml.Line.text)))) := by
  have hserver : "[server]\n".toList = '[' :: ("server".toList ++ [']', '\n']) := by decide
  have htree : "\n[tree]\n".toList = '\n' :: '[' :: ("tree".toList ++ [']', '\n']) := by decide
  unfold toText
  simp only [String.toList_ofList, hserver, htree, serverLines, treeLines, textEntry_eq,
    entry_toDigits, entry_writeBool, optionalEntry_eq, List.flatMap_append, List.flatMap_cons,
    List.flatMap_nil, List.append_assoc, List.cons_append, List.nil_append, List.append_nil]

theorem readable_textLine {key : String} (hkey : Toml.IsBare key) (value : String) :
    (textLine key value).Readable :=
  ⟨hkey, Toml.writes_text value⟩

theorem readable_optionalLine {key : String} (hkey : Toml.IsBare key) (value : Option String) :
    ∀ l ∈ optionalLine key value, l.Readable := by
  cases value with
  | none => exact fun l hl => absurd hl List.not_mem_nil
  | some value => exact List.forall_mem_singleton.mpr (readable_textLine hkey value)

theorem readable_numberLine {key : String} (hkey : Toml.IsBare key) {n : Nat}
    (h : Toml.fits n = true) : (numberLine key n).Readable :=
  ⟨hkey, Toml.writes_integer h⟩

theorem readable_switchLine {key : String} (hkey : Toml.IsBare key) (b : Bool) :
    (switchLine key b).Readable := by
  cases b with
  | true => exact ⟨hkey, Toml.writes_true⟩
  | false => exact ⟨hkey, Toml.writes_false⟩

theorem readable_serverLines {s : ServerSettings} (h : InRange s) :
    ∀ l ∈ serverLines s, l.Readable := by
  have hroot : (textLine "root_url" s.rootUrl).Readable := readable_textLine (by decide) s.rootUrl
  have htoken : ∀ l ∈ optionalLine "session_token" s.sessionToken, l.Readable :=
    readable_optionalLine (by decide) s.sessionToken
  have hheader : (textLine "session_header" s.sessionHeader).Readable :=
    readable_textLine (by decide) s.sessionHeader
  have hpage : (numberLine "page_size" s.pageSize).Readable :=
    readable_numberLine (by decide) h.pageSize
  have htimeout : (numberLine "timeout_ms" s.timeoutMs).Readable :=
    readable_numberLine (by decide) h.timeoutMs
  intro l hl
  simp only [serverLines, List.mem_append, List.mem_cons, List.not_mem_nil, or_false] at hl
  obtain (rfl | hl) | rfl | rfl | rfl := hl
  · exact hroot
  · exact htoken l hl
  · exact hheader
  · exact hpage
  · exact htimeout

theorem readable_treeLines (s : TreeSettings) : ∀ l ∈ treeLines s, l.Readable := by
  have hstate : ∀ l ∈ optionalLine "expansion_state" s.expansionState, l.Readable :=
    readable_optionalLine (by decide) s.expansionState
  have hsort : (switchLine "sort_components" s.sortComponents).Readable :=
    readable_switchLine (by decide) s.sortComponents
  intro l hl
  obtain hl | hl := List.mem_append.mp hl
  · exact hstate l hl
  · exact List.mem_singleton.mp hl ▸ hsort

theorem ofToml_serverLines (s : ServerSettings) :
    ServerSettings.ofToml? (.table ((serverLines s).map fun l => (l.key, l.value))) = some s := by
  rcases s with ⟨root, token, header, pageSize, timeoutMs⟩
  cases token <;>
    simp [ServerSettings.ofToml?, Toml.fields?, serverLines, optionalLine, textLine, numberLine,
      ServerSettings.readField, Toml.asText?, Toml.asNat?]

theorem ofToml_treeLines (s : TreeSettings) :
    TreeSettings.ofToml? (.table ((treeLines s).map fun l => (l.key, l.value))) = some s := by
  rcases s with ⟨state, sorts⟩
  cases state <;>
    simp [TreeSettings.ofToml?, Toml.fields?, treeLines, optionalLine, textLine, switchLine,
      TreeSettings.readField, Toml.asText?, Toml.asBool?]

theorem nodup_serverKeys (s : ServerSettings) : ((serverLines s).map Toml.Line.key).Nodup := by
  cases htoken : s.sessionToken <;> simp [serverLines, htoken, optionalLine, textLine, numberLine]

theorem nodup_treeKeys (s : TreeSettings) : ((treeLines s).map Toml.Line.key).Nodup := by
  cases hstate : s.expansionState <;> simp [treeLines, hstate, optionalLine, textLine, switchLine]

theorem toToml_entries (lines : List Toml.Line) :
    Toml.entriesToToml (lines.map Toml.Line.entry) = lines.map fun l => (l.key, l.value) := by
  simp [Toml.entriesToToml_eq_map, Toml.Line.entry, Toml.Item.toToml]

theorem read_toText {s : Settings} (h : InRange s.server) :
    Toml.read s.toText = some (.table [
      ("server", .table ((serverLines s.server).map fun l => (l.key, l.value))),
      ("tree", .table ((treeLines s.tree).map fun l => (l.key, l.value)))]) := by
  obtain ⟨extra, hfuel⟩ : ∃ extra, s.toText.toList.length + 1 =
      (serverLines s.server).length + ((treeLines s.tree).length + (extra + 1) + 1 + 1) + 1 := by
    have hserver := Toml.length_le_length_flatMap_text (serverLines s.server)
    have htree := Toml.length_le_length_flatMap_text (treeLines s.tree)
    refine
      ⟨s.toText.toList.length - (serverLines s.server).length - (treeLines s.tree).length - 3, ?_⟩
    simp only [toList_toText, List.length_append, List.length_cons]
    omega
  have hdocument : Toml.readDocument (s.toText.toList.length + 1) {} s.toText.toList =
      some (.ofLast [("server", .table .header ((serverLines s.server).map Toml.Line.entry))] "tree"
        ((treeLines s.tree).map Toml.Line.entry)) := by
    rw [hfuel, toList_toText, Toml.readDocument_header (by decide) (by simp),
      Toml.readDocument_lines (readable_serverLines h) (by simp)
        (by simpa using nodup_serverKeys s.server),
      Toml.readDocument_blank, Toml.Document.ofLast, List.nil_append, List.nil_append,
      Toml.readDocument_header (by decide) (by simp),
      ← List.append_nil ((treeLines s.tree).flatMap Toml.Line.text),
      Toml.readDocument_lines (readable_treeLines s.tree) (by simp)
        (by simpa using nodup_treeKeys s.tree),
      Toml.readDocument_nil, List.nil_append]
  have hmark : ∀ rest, s.toText.toList ≠ '\ufeff' :: rest := by
    rw [toList_toText]
    intro rest heq
    exact absurd (List.cons.inj heq).1 (by decide)
  have hread : Toml.read s.toText =
      (Toml.readDocument (s.toText.toList.length + 1) {} s.toText.toList).map
        Toml.Document.toToml := by
    unfold Toml.read
    split
    · rename_i rest heq
      exact absurd heq (hmark rest)
    · rfl
  rw [hread, hdocument]
  simp [Toml.Document.toToml, Toml.Document.ofLast, Toml.entriesToToml, Toml.Item.toToml,
    toToml_entries]

theorem Settled.ofText_toText {s : Settings} (h : s.Settled) : ofText s.toText = .ok s := by
  have hread : (Toml.read s.toText).bind ofToml? = some s := by
    rw [read_toText h.range, Option.bind_some]
    simp [ofToml?, readField, ofToml_serverLines, ofToml_treeLines]
  rw [ofText, hread]
  dsimp only
  rw [h.normalize_eq]

/--
Settings that were read from any document, and overridden by variables any number of times, have a
normal root, are left alone by an environment without variables, and are written as a document from
which the same settings are read.
-/
theorem ofText_write_override {text : String} {s : Settings} (h : ofText text = .ok s)
    (envs : List (String → Option String)) :
    let settings := envs.foldl Settings.override s
    IsNormalRoot settings.server.rootUrl ∧ settings.override (fun _ => none) = settings ∧
      ∃ written, settings.write = .ok written ∧ ofText written = .ok settings := by
  intro settings
  have hsettled : settings.Settled := (settled_of_ofText h).foldl_override envs
  refine ⟨hsettled.root, ?_, settings.toText, hsettled.write_eq, hsettled.ofText_toText⟩
  rw [override_nothing, hsettled.normalize_eq]

def quotedDocument : String :=
  "[server]\nroot_url = ' http://cms.test/rest '\n" ++
    "session_token = \"\"\"\nit's \\\"\\u0001\\\",\ntoken\"\"\"\npage_size = 25\n"

def quotedSettings : Settings :=
  { server :=
      { rootUrl := "http://cms.test/rest/", sessionToken := some "it's \"\x01\",\ntoken",
        pageSize := 25 } }

def quotedVariables (name : String) : Option String :=
  if name = rootVariable then some " " else some "'''\\\"\"\""

theorem ofText_quotedDocument : ofText quotedDocument = .ok quotedSettings := by
  have hread : (ofText quotedDocument).toOption = some quotedSettings := by decide +kernel
  revert hread
  cases ofText quotedDocument <;> simp [Except.toOption]

theorem ofText_write_override_quoted :
    ofText quotedDocument = .ok quotedSettings ∧
      let settings := [quotedVariables].foldl Settings.override quotedSettings
      IsNormalRoot settings.server.rootUrl ∧ settings.override (fun _ => none) = settings ∧
        ∃ written, settings.write = .ok written ∧ ofText written = .ok settings :=
  ⟨ofText_quotedDocument, ofText_write_override ofText_quotedDocument [quotedVariables]⟩

end Settings

end ContentConsole
