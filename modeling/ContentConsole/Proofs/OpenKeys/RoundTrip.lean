import ContentConsole.OpenKeys.Text
import ContentConsole.Proofs.Files.Saving
import ContentConsole.Proofs.Json.ReadBack
import Mathlib.Data.List.Sort

set_option autoImplicit false
set_option relaxedAutoImplicit false

/-!
The file of open keys gives back the keys it was written from. A key is read up to the text behind
it, the keys of the array follow by induction, and read keys make the set they were taken from
because an ascending list is told by its members. Main statements: `ofText_toText`, and
`load_save`, by which a file gives the keys that were saved to it, and the keys of any text that
is accepted survive being saved.
-/
namespace ContentConsole

open Json (skipSpace newLine prettyChars prettyItems prettyFields writeText nextItem nextField)

namespace OpenKey

theorem readTextValue_writeText (s : String) (rest : List Char) :
    readTextValue (writeText s.toList ++ rest) = .ok (s, rest) := by
  rw [readTextValue, Json.skipSpace_writeText, Json.writeText_append]
  simp [Json.readText_flatMap_escaped, Except.map]

theorem readTextValue_space (cs : List Char) : readTextValue (' ' :: cs) = readTextValue cs := by
  rw [readTextValue, Json.skipSpace_space, ← readTextValue]

theorem readOptionalText_optional (s : Option String) (rest : List Char) :
    readOptionalText (' ' :: ((optional s).prettyChars 2 ++ rest)) = .ok (s, rest) := by
  cases s with
  | none => rfl
  | some s =>
    change readOptionalText (' ' :: (writeText s.toList ++ rest)) = .ok (some s, rest)
    rw [readOptionalText, Json.skipSpace_space, Json.skipSpace_writeText]
    -- What begins with a quote is not `null`.
    change (readTextValue (writeText s.toList ++ rest)).map _ = _
    rw [readTextValue_writeText]
    rfl

theorem readFields_comma {f f' : Fields} {name next : String} {cs rest : List Char}
    (h : readNamed f name cs = .ok (f', ',' :: (newLine 2 ++ (writeText next.toList ++ rest))))
    (fuel : Nat) :
    readFields (fuel + 1) f (writeText name.toList ++ ':' :: cs) =
      readFields fuel f' (writeText next.toList ++ rest) := by
  have hnext : nextField (',' :: (newLine 2 ++ (writeText next.toList ++ rest))) =
      .ok (true, writeText next.toList ++ rest) := by
    refine Json.nextField_comma ?_ (by decide)
    rw [Json.skipSpace_newLine_append]
    exact Json.skipSpace_writeText next.toList rest
  simp only [readFields, Json.readKey_writeText, h, hnext]

theorem readFields_brace {f f' : Fields} {name : String} {cs rest : List Char}
    (h : readNamed f name cs = .ok (f', newLine 1 ++ '\x7d' :: rest)) (fuel : Nat) :
    readFields (fuel + 1) f (writeText name.toList ++ ':' :: cs) = .ok (f', rest) := by
  simp only [readFields, Json.readKey_writeText, h, Json.nextField_brace]

def fieldChars (key : OpenKey) (rest : List Char) : List Char :=
  writeText "entityId".toList ++ ':' :: ' ' :: (writeText key.entityId.toList ++
    ',' :: (newLine 2 ++
      (writeText "parentId".toList ++ ':' :: ' ' :: ((optional key.parentId).prettyChars 2 ++
    ',' :: (newLine 2 ++ (writeText "resourceId".toList ++ ':' :: ' ' ::
    ((optional key.resourceId).prettyChars 2 ++ (newLine 1 ++ '\x7d' :: rest))))))))

theorem length_le_fieldChars (key : OpenKey) (rest : List Char) :
    rest.length ≤ (key.fieldChars rest).length := by
  simp only [fieldChars, List.length_append, List.length_cons]
  omega

theorem prettyChars_toJson (key : OpenKey) (rest : List Char) :
    key.toJson.prettyChars 1 ++ rest = '\x7b' :: (newLine 2 ++ key.fieldChars rest) := by
  simp [toJson, prettyChars, prettyFields, Json.writeChars, fieldChars]

theorem readFields_fieldChars (key : OpenKey) (rest : List Char) (fuel : Nat) :
    readFields (fuel + 3) {} (key.fieldChars rest) =
      .ok (⟨some key.entityId, some key.parentId, some key.resourceId⟩, rest) := by
  have hentity (rest : List Char) :
      readNamed {} "entityId" (' ' :: (writeText key.entityId.toList ++ rest)) =
        .ok (⟨some key.entityId, none, none⟩, rest) := by
    rw [readNamed, if_neg (by simp), readTextValue_space, readTextValue_writeText]
    rfl
  have hparent (rest : List Char) : readNamed ⟨some key.entityId, none, none⟩ "parentId"
      (' ' :: ((optional key.parentId).prettyChars 2 ++ rest)) =
        .ok (⟨some key.entityId, some key.parentId, none⟩, rest) := by
    rw [readNamed, if_neg (by simp), readOptionalText_optional]
    rfl
  have hresource (rest : List Char) : readNamed
      ⟨some key.entityId, some key.parentId, none⟩ "resourceId"
      (' ' :: ((optional key.resourceId).prettyChars 2 ++ rest)) =
        .ok (⟨some key.entityId, some key.parentId, some key.resourceId⟩, rest) := by
    rw [readNamed, if_neg (by simp), readOptionalText_optional]
    rfl
  rw [fieldChars, readFields_comma (hentity _), readFields_comma (hparent _),
    readFields_brace (hresource _)]

theorem readFrom_toJson (key : OpenKey) (depth : Nat) (rest : List Char) :
    readFrom (newLine depth ++ (key.toJson.prettyChars 1 ++ rest)) = .ok (key, rest) := by
  have hopen : skipSpace (newLine depth ++ (key.toJson.prettyChars 1 ++ rest)) =
      '\x7b' :: (newLine 2 ++ key.fieldChars rest) := by
    rw [Json.skipSpace_newLine_append, prettyChars_toJson, Json.skipSpace_cons rfl]
  obtain ⟨tail, htail⟩ : ∃ tail, key.fieldChars rest = '"' :: 'e' :: 'n' :: tail := ⟨_, rfl⟩
  have hfirst : skipSpace (newLine 2 ++ key.fieldChars rest) = key.fieldChars rest := by
    rw [Json.skipSpace_newLine_append, htail, Json.skipSpace_cons rfl]
  have hfuel : (key.fieldChars rest).length + 1 = tail.length + 1 + 3 := by
    rw [htail]
    rfl
  simp only [readFrom, hopen, hfirst]
  split
  · rename_i hbrace
    simp [htail] at hbrace
  · rename_i hend
    simp [htail] at hend
  · rw [hfuel, readFields_fieldChars]
    rfl

end OpenKey

namespace OpenKeys

theorem readEach_skipSpace (fuel : Nat) (cs : List Char) :
    readEach (fuel + 1) (skipSpace cs) = readEach (fuel + 1) cs := by
  simp only [readEach, OpenKey.readFrom, Json.skipSpace_skipSpace]

def laterItems (rest : List Char) : List OpenKey → List Char
  | [] => rest
  | key :: keys => ',' :: (prettyItems 1 ((key :: keys).map OpenKey.toJson) ++ rest)

theorem prettyItems_append (key : OpenKey) (keys : List OpenKey) (rest : List Char) :
    prettyItems 1 ((key :: keys).map OpenKey.toJson) ++ rest =
      newLine 1 ++ (key.toJson.prettyChars 1 ++ laterItems rest keys) := by
  cases keys <;> simp [prettyItems, laterItems]

theorem length_le_laterItems (rest : List Char) (keys : List OpenKey) :
    keys.length ≤ (laterItems rest keys).length := by
  induction keys with
  | nil => exact Nat.zero_le _
  | cons key keys ih =>
    rw [laterItems, prettyItems_append]
    simp only [List.length_cons, List.length_append]
    omega

theorem skipSpace_prettyItems (key : OpenKey) (keys : List OpenKey) (rest : List Char) :
    skipSpace (prettyItems 1 ((key :: keys).map OpenKey.toJson) ++ rest) =
      '\x7b' :: (newLine 2 ++ key.fieldChars (laterItems rest keys)) := by
  rw [prettyItems_append, Json.skipSpace_newLine_append, OpenKey.prettyChars_toJson,
    Json.skipSpace_cons rfl]

theorem readEach_prettyItems (key : OpenKey) (keys : List OpenKey) {fuel : Nat}
    (hfuel : keys.length < fuel) (rest : List Char) :
    readEach fuel (prettyItems 1 ((key :: keys).map OpenKey.toJson) ++ (newLine 0 ++ ']' :: rest)) =
      .ok (key :: keys, rest) := by
  induction keys generalizing key fuel with
  | nil =>
    obtain ⟨fuel, rfl⟩ := Nat.exists_eq_add_of_lt hfuel
    simp only [prettyItems_append, laterItems, readEach, OpenKey.readFrom_toJson,
      Json.nextItem_bracket]
  | cons next keys ih =>
    obtain ⟨fuel, rfl⟩ := Nat.exists_eq_add_of_lt hfuel
    have hcomma :=
      Json.nextItem_comma (skipSpace_prettyItems next keys (newLine 0 ++ ']' :: rest)) (by decide)
    have henough : keys.length < keys.length + fuel + 1 := by omega
    have hrest := ih next henough
    rw [← readEach_skipSpace, skipSpace_prettyItems] at hrest
    have hlength : (next :: keys).length + fuel = keys.length + fuel + 1 := by
      rw [List.length_cons]
      omega
    rw [prettyItems_append, readEach, OpenKey.readFrom_toJson, laterItems, hlength]
    simp only [hcomma, hrest]

theorem readArray_toJson (keys : List OpenKey) :
    readArray ((Json.arr (keys.map OpenKey.toJson)).prettyChars 0) = .ok (keys, []) := by
  cases keys with
  | nil => rfl
  | cons key keys =>
    have htext : (Json.arr ((key :: keys).map OpenKey.toJson)).prettyChars 0 =
        '[' :: (prettyItems 1 ((key :: keys).map OpenKey.toJson) ++ (newLine 0 ++ [']'])) := by
      simp [prettyChars]
    have hitems := skipSpace_prettyItems key keys (newLine 0 ++ [']'])
    have hfuel : keys.length <
        ('\x7b' ::
          (newLine 2 ++ key.fieldChars (laterItems (newLine 0 ++ [']']) keys))).length + 1 := by
      have hlater := length_le_laterItems (newLine 0 ++ [']']) keys
      have hfields := key.length_le_fieldChars (laterItems (newLine 0 ++ [']']) keys)
      rw [List.length_cons, List.length_append]
      omega
    have hread := readEach_prettyItems key keys hfuel []
    rw [← readEach_skipSpace, hitems] at hread
    rw [htext, readArray, Json.skipSpace_cons rfl]
    simp only [hitems]
    exact hread

theorem isBlankText_toText (s : OpenKeys) : Text.isBlankText s.toText = false := by
  have hbracket : '[' ∈ s.toText.toList := by
    rw [toText, Json.pretty, String.toList_ofList]
    cases s.keys <;> simp [prettyChars]
  rw [Text.isBlankText, List.all_eq_false]
  exact ⟨'[', hbracket, by decide⟩

theorem mem_foldl_insert {keys : List OpenKey} {s : OpenKeys} {key : OpenKey} :
    key ∈ keys.foldl insert s ↔ key ∈ s ∨ key ∈ keys := by
  induction keys generalizing s with
  | nil => simp
  | cons first keys ih =>
    rw [List.foldl_cons, ih, mem_insert, List.mem_cons]
    tauto

theorem eq_of_mem_iff {s t : OpenKeys} (h : ∀ key, key ∈ s ↔ key ∈ t) : s = t := by
  have hirrefl : Std.Irrefl fun a b : OpenKey => compare a b = .lt :=
    ⟨fun a => by simp [Std.ReflCmp.compare_self]⟩
  have hantisymm : Std.Antisymm fun a b : OpenKey => compare a b = .lt :=
    ⟨fun a b hab hba => by
      have hself := Std.TransCmp.lt_trans hab hba
      simp [Std.ReflCmp.compare_self] at hself⟩
  have hkeys : s.keys = t.keys := s.ascending.eq_of_mem_iff t.ascending h
  obtain ⟨keys, hs⟩ := s
  subst hkeys
  rfl

theorem insert_erase (s : OpenKeys) (key : OpenKey) : (s.erase key).insert key = s.insert key := by
  refine eq_of_mem_iff fun x => ?_
  rw [mem_insert, mem_insert, mem_erase]
  tauto

theorem ofList_keys (s : OpenKeys) : ofList s.keys = s := by
  refine eq_of_mem_iff fun key => ?_
  rw [ofList, mem_foldl_insert, mem_keys]
  exact or_iff_right List.not_mem_nil

/-- What is written as text is read as the same keys. -/
theorem ofText_toText (s : OpenKeys) : ofText s.toText = .ok s := by
  rw [ofText, isBlankText_toText]
  simp only [toText, Json.pretty, String.toList_ofList, readArray_toJson]
  change Except.ok (ofList s.keys) = _
  rw [ofList_keys]

theorem load_of_saveText {fs fs' : Files} {path text : String} {s : OpenKeys}
    (htext : ofText text = .ok s) (h : fs.saveText path text = .ok fs') :
    load fs' path = .ok s := by
  have hread := Files.readText_saveText h
  rw [load, if_pos (Files.contains_of_readText hread), hread]
  dsimp only
  rw [htext]
  rfl

theorem saveText_of_save {s : OpenKeys} {fs fs' : Files} {path : String}
    (h : s.save fs path = .ok fs') : fs.saveText path s.toText = .ok fs' := by
  rw [save] at h
  cases hwritten : fs.saveText path s.toText with
  | error e =>
    rw [hwritten] at h
    cases h
  | ok saved =>
    rw [hwritten] at h
    cases h
    rfl

theorem load_of_save {s : OpenKeys} {fs fs' : Files} {path : String}
    (h : s.save fs path = .ok fs') : load fs' path = .ok s :=
  load_of_saveText (ofText_toText s) (saveText_of_save h)

theorem exists_save_again {s : OpenKeys} {fs fs' : Files} {path : String}
    (h : s.save fs path = .ok fs') : ∃ again, s.save fs' path = .ok again := by
  obtain ⟨again, hagain⟩ := Files.canSave_of_saveText (saveText_of_save h) s.toText
  exact ⟨again, by rw [save, hagain]; rfl⟩

theorem exists_save {fs : Files} {path : String} (hsave : fs.CanSave path) (s : OpenKeys) :
    ∃ fs', s.save fs path = .ok fs' := by
  obtain ⟨fs', hsaved⟩ := hsave s.toText
  exact ⟨fs', by rw [save, hsaved]; rfl⟩

/--
Where no write fails, any keys are loaded from the file they were saved to; and the keys of any text
that is accepted are loaded again after they took the place of the text.
-/
theorem load_save {fs : Files} {path : String} (hsave : fs.CanSave path) :
    (∀ s : OpenKeys, ∃ fs', s.save fs path = .ok fs' ∧ load fs' path = .ok s) ∧
      ∀ text s fs₁, ofText text = .ok s → fs.saveText path text = .ok fs₁ →
        load fs₁ path = .ok s ∧ ∃ fs₂, s.save fs₁ path = .ok fs₂ ∧ load fs₂ path = .ok s := by
  have hagain {fs : Files} (hsave : fs.CanSave path) (s : OpenKeys) :
      ∃ fs', s.save fs path = .ok fs' ∧ load fs' path = .ok s := by
    obtain ⟨fs', hsaved⟩ := exists_save hsave s
    exact ⟨fs', hsaved, load_of_save hsaved⟩
  refine ⟨hagain hsave, fun text s fs₁ htext hwritten => ?_⟩
  exact ⟨load_of_saveText htext hwritten, hagain (Files.canSave_of_saveText hwritten) s⟩

def quotedKeys : OpenKeys :=
  ofList [⟨"", some "\"\\", none⟩, ⟨"\x01\n", none, some ""⟩, ⟨"\u2028é😀", none, none⟩]

def doubledText : String := "[[\"a\",null,\"r\"], \x7b\"entityId\":\"a\",\"resourceId\":\"r\"\x7d]"

theorem load_save_quotedKeys :
    Files.empty.CanSave "open/keys.json" ∧ quotedKeys.size = 3 ∧
      (∃ fs, quotedKeys.save .empty "open/keys.json" = .ok fs ∧
        load fs "open/keys.json" = .ok quotedKeys) ∧
        ∃ fs₁ fs₂, Files.empty.saveText "open/keys.json" doubledText = .ok fs₁ ∧
          (ofList [⟨"a", none, some "r"⟩]).save fs₁ "open/keys.json" = .ok fs₂ ∧
            load fs₂ "open/keys.json" = .ok (ofList [⟨"a", none, some "r"⟩]) := by
  have hsave : Files.empty.CanSave "open/keys.json" := fun content => ⟨_, by rfl⟩
  have htext : ofText doubledText = .ok (ofList [⟨"a", none, some "r"⟩]) := by rfl
  obtain ⟨fs₁, hwritten⟩ := hsave doubledText
  obtain ⟨-, fs₂, hagain⟩ := (load_save hsave).2 doubledText _ fs₁ htext hwritten
  exact ⟨hsave, by decide +kernel, (load_save hsave).1 quotedKeys, fs₁, fs₂, hwritten, hagain⟩

end OpenKeys

end ContentConsole
