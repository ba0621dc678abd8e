import ContentConsole.Path

set_option autoImplicit false
set_option relaxedAutoImplicit false

/-!
A tree of files as a value: what the console reads and writes. Main statement: `readText_writeText`,
what was written to a file is what is read from it.
-/
namespace ContentConsole

inductive FileEntry
  | text (content : String)
  /-- Bytes that are no text. -/
  | bytes (content : List UInt8)
  | folder
deriving DecidableEq, Repr

inductive FileFault
  | missing
  | isFolder
  | exists
  | notText
deriving DecidableEq, Repr

def FileFault.message : FileFault → String
  | .missing => "No such file or directory (os error 2)"
  | .isFolder => "Is a directory (os error 21)"
  | .exists => "File exists (os error 17)"
  | .notText => "stream did not contain valid UTF-8"

/-- The entries by the places where they are. -/
structure Files where
  entries : List (Path × FileEntry)
deriving DecidableEq, Repr

namespace Files

def empty : Files := ⟨[]⟩

def get? (fs : Files) (p : Path) : Option FileEntry :=
  if p.isGiven then some .folder else fs.entries.lookup p

def put (fs : Files) (p : Path) (entry : FileEntry) : Files :=
  ⟨(p, entry) :: fs.entries.filter (·.1 ≠ p)⟩

def isFolder (fs : Files) (p : Path) : Bool := fs.get? p = some .folder

/-- Where the parts of a path lead from a place; every place that a part is
looked up in has to be a folder. -/
def follow (fs : Files) (p : Path) : List String → Option Path
  | [] => some p
  | part :: rest => if fs.isFolder p then fs.follow (p.step part) rest else none

def locate (fs : Files) (name : String) : Option Path :=
  if name.isEmpty then none
  else
    let (start, parts) := Path.ofText name
    fs.follow start parts

def find? (fs : Files) (name : String) : Option FileEntry := (fs.locate name).bind fs.get?

def contains (fs : Files) (name : String) : Bool := (fs.find? name).isSome

def readText (fs : Files) (name : String) : Except FileFault String :=
  match fs.find? name with
  | some (.text content) => .ok content
  | some (.bytes _) => .error .notText
  | some .folder => .error .isFolder
  | none => .error .missing

/-! ## Writing -/

/-- Writes a file; the folders above it must be there. -/
def write (fs : Files) (name : String) (entry : FileEntry) : Except FileFault Files :=
  match fs.locate name with
  | none => .error .missing
  | some p => if fs.isFolder p then .error .isFolder else .ok (fs.put p entry)

def writeText (fs : Files) (name content : String) : Except FileFault Files :=
  fs.write name (.text content)

def makeEach (fs : Files) (p : Path) : List String → Except FileFault Files
  | [] => .ok fs
  | part :: rest =>
    let next := p.step part
    match fs.get? next with
    | some .folder => makeEach fs next rest
    | some _ => .error .exists
    | none => makeEach (fs.put next .folder) next rest

def makeFolders (fs : Files) (name : String) : Except FileFault Files :=
  let (start, parts) := Path.ofText name
  fs.makeEach start parts

def save (fs : Files) (name : String) (entry : FileEntry) : Except FileFault Files :=
  match fs.makeFolders (Path.folderOf name) with
  | .error e => .error e
  | .ok fs => fs.write name entry

def saveText (fs : Files) (name content : String) : Except FileFault Files :=
  fs.save name (.text content)

/-! ## What was written -/

theorem get?_put_self (fs : Files) {p : Path} (entry : FileEntry) (h : fs.isFolder p = false) :
    (fs.put p entry).get? p = some entry := by
  have hp : p.isGiven = false := by
    cases hg : p.isGiven with
    | false => rfl
    | true => simp [isFolder, get?, hg] at h
  simp [get?, put, hp]

theorem get?_put_other (fs : Files) {p other : Path} (entry : FileEntry)
    (h : other ≠ p) : (fs.put p entry).get? other = fs.get? other := by
  have hb : (other == p) = false := by simpa using h
  have hl : ∀ entries : List (Path × FileEntry),
      (entries.filter (·.1 ≠ p)).lookup other = entries.lookup other := by
    intro entries
    induction entries with
    | nil => rfl
    | cons e rest ih =>
      obtain ⟨q, x⟩ := e
      by_cases hq : q = p
      · subst hq
        simpa [List.lookup_cons, hb] using ih
      · simp only [ne_eq, hq, not_false_eq_true, decide_true, List.filter_cons_of_pos,
          List.lookup_cons]
        split <;> simp_all
  simp only [get?, put, List.lookup_cons, hb, hl]

/-- A file put where no folder was changes no folder. -/
theorem isFolder_put (fs : Files) {p : Path} {entry : FileEntry} (h : fs.isFolder p = false)
    (he : entry ≠ .folder) (other : Path) :
    (fs.put p entry).isFolder other = fs.isFolder other := by
  by_cases ho : other = p
  · subst ho
    rw [h, isFolder, get?_put_self fs entry h]
    simpa using he
  · rw [isFolder, isFolder, get?_put_other fs entry ho]

private theorem follow_put (fs : Files) {p : Path} {entry : FileEntry} (h : fs.isFolder p = false)
    (he : entry ≠ .folder) (parts : List String) (start : Path) :
    (fs.put p entry).follow start parts = fs.follow start parts := by
  induction parts generalizing start with
  | nil => rfl
  | cons part rest ih => simp only [follow, isFolder_put fs h he, ih]

theorem locate_put (fs : Files) {p : Path} {entry : FileEntry} (h : fs.isFolder p = false)
    (he : entry ≠ .folder) (name : String) : (fs.put p entry).locate name = fs.locate name := by
  simp only [locate, follow_put fs h he]

theorem readText_writeText {fs fs' : Files} {name content : String}
    (h : fs.writeText name content = .ok fs') : fs'.readText name = .ok content := by
  unfold writeText write at h
  split at h
  · cases h
  · rename_i p hp
    split at h
    · cases h
    · rename_i hf
      cases h
      have hf : fs.isFolder p = false := by simpa using hf
      have he : FileEntry.text content ≠ .folder := by simp
      simp [readText, find?, locate_put fs hf he, hp, get?_put_self fs _ hf]

theorem readText_saveText {fs fs' : Files} {name content : String}
    (h : fs.saveText name content = .ok fs') : fs'.readText name = .ok content := by
  unfold saveText save at h
  split at h
  · cases h
  · exact readText_writeText h

theorem contains_of_readText {fs : Files} {name content : String}
    (h : fs.readText name = .ok content) : fs.contains name = true := by
  rw [contains]
  cases hfind : fs.find? name with
  | none =>
    rw [readText, hfind] at h
    cases h
  | some entry => rfl

end Files

end ContentConsole
