import ContentConsole.Files

set_option autoImplicit false
set_option relaxedAutoImplicit false

/-!
Files that can be saved. Saving makes the folders on the way and then only touches the
file, so a file that was saved once can be saved again, whatever its text. Main
statement: `canSave_of_saveText`.
-/
namespace ContentConsole.Files

variable {fs fs' : Files}

/-- No write to the file fails, whatever its text. -/
def CanSave (fs : Files) (name : String) : Prop :=
  ∀ content, ∃ fs', fs.saveText name content = .ok fs'

def Paved (fs : Files) (p : Path) : List String → Prop
  | [] => True
  | part :: rest => fs.isFolder (p.step part) = true ∧ fs.Paved (p.step part) rest

theorem Paved.mono (hfolder : ∀ q, fs.isFolder q = true → fs'.isFolder q = true)
    {parts : List String} {p : Path} (h : fs.Paved p parts) : fs'.Paved p parts := by
  induction parts generalizing p with
  | nil => trivial
  | cons part rest ih => exact ⟨hfolder _ h.1, ih h.2⟩

theorem Paved.makeEach {parts : List String} {p : Path} (h : fs.Paved p parts) :
    fs.makeEach p parts = .ok fs := by
  induction parts generalizing p with
  | nil => rfl
  | cons part rest ih =>
    have hnext : fs.get? (p.step part) = some .folder := by simpa [isFolder] using h.1
    rw [Files.makeEach, hnext]
    exact ih h.2

theorem paved_of_makeEach {parts : List String} {p : Path} (h : fs.makeEach p parts = .ok fs') :
    fs'.Paved p parts ∧ ∀ q, fs.isFolder q = true → fs'.isFolder q = true := by
  induction parts generalizing fs p with
  | nil =>
    cases h
    exact ⟨trivial, fun _ hq => hq⟩
  | cons part rest ih =>
    rw [Files.makeEach] at h
    split at h
    · rename_i hthere
      obtain ⟨hpaved, hkept⟩ := ih h
      have hnext : fs.isFolder (p.step part) = true := by simp [isFolder, hthere]
      exact ⟨⟨hkept _ hnext, hpaved⟩, hkept⟩
    · cases h
    · rename_i hnone
      obtain ⟨hpaved, hkept⟩ := ih h
      have hfree : fs.isFolder (p.step part) = false := by simp [isFolder, hnone]
      have hmade : (fs.put (p.step part) .folder).isFolder (p.step part) = true := by
        simp [isFolder, get?_put_self fs _ hfree]
      refine ⟨⟨hkept _ hmade, hpaved⟩, fun q hq => hkept q ?_⟩
      have hother : q ≠ p.step part := by
        rintro rfl
        simp [hfree] at hq
      rw [isFolder, get?_put_other fs _ hother]
      exact hq

theorem write_put {name : String} {p : Path} {entry : FileEntry} (hp : fs.locate name = some p)
    (hfile : fs.isFolder p = false) (he : entry ≠ .folder) (later : FileEntry) :
    (fs.put p entry).write name later = .ok ((fs.put p entry).put p later) := by
  have hstill : ¬(fs.put p entry).isFolder p = true := by
    rw [isFolder_put fs hfile he, hfile]
    exact Bool.false_ne_true
  rw [write, locate_put fs hfile he, hp]
  exact if_neg hstill

/-- A file that was saved can be saved again. -/
theorem canSave_of_saveText {name content : String}
    (h : fs.saveText name content = .ok fs') : fs'.CanSave name := by
  intro later
  rw [saveText, save] at h
  split at h
  · cases h
  · rename_i made hmade
    rw [write] at h
    split at h
    · cases h
    · rename_i p hp
      split at h
      · cases h
      · rename_i hfile
        have hfile : made.isFolder p = false := by simpa using hfile
        have htext : FileEntry.text content ≠ .folder := nofun
        cases h
        have hfolders : (made.put p (.text content)).makeFolders (Path.folderOf name) = .ok _ :=
          ((paved_of_makeEach hmade).1.mono fun q hq =>
            (isFolder_put made hfile htext q).trans hq).makeEach
        rw [saveText, save, hfolders]
        exact ⟨_, write_put hp hfile htext (.text later)⟩

end ContentConsole.Files
