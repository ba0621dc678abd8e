import ContentConsole.Proofs.Entity.RoundTrip

set_option autoImplicit false
set_option relaxedAutoImplicit false

/-!
Collections that are foreign to the type of the entity that holds them. Each part of an entity
is read from the field of one name, and the type decides which of the collections are kept.
Main statement: `eq_of_agree`, by which two values that agree on what belongs to the types in
them are read as the same entity.
-/
namespace ContentConsole

/-- The collection is one of the type's own, or that of the children, which every type has. -/
def Slot.belongsTo : Slot → EntityType → Bool
  | .folders, t | .images, t | .files, t => t == .folder
  | .users, t => t == .group
  | .elements, t => t == .element
  | .children, _ => true

namespace Wire

open Json (ShapeError)
open Entity (ofJson readField readFields readValues readAll)

/-! ## Fields of a value and parts of what is read -/

def fields : Json → Record
  | .obj fields => fields
  | .arr items => fieldNames.zip items
  | .null | .bool _ | .number _ | .str _ => []

def field? (j : Json) (name : String) : Option Json := (fields j).reverse.lookup name

def textNames : List String := ["id", "type", "name", "resourceId"]

def typeOf (j : Json) : EntityType :=
  match field? j "type" with
  | some (.str s) => EntityType.ofName s
  | _ => .element

def readCollection : Json → Except ShapeError (List Entity)
  | .arr items => readAll items
  | .null => .ok []
  | j => .error (.wrongType j "a sequence")

inductive Fills (w : Wire) (value : Json) : String → Wire → Prop
  | slot (slot : Slot) {es : List Entity} (h : readCollection value = .ok es) :
      Fills w value slot.name (w.hold slot es)
  | id {s : String} (h : value.asText = .ok s) : Fills w value "id" { w with id := some s }
  | type {s : String} (h : value.asText = .ok s) : Fills w value "type" { w with type := s }
  | name {s : Option String} (h : value.asOptionalText = .ok s) :
      Fills w value "name" { w with name := s }
  | resourceId {s : Option String} (h : value.asOptionalText = .ok s) :
    Fills w value "resourceId" { w with resourceId := s }
  | unknown {name : String} (h : name ∉ fieldNames) : Fills w value name w

theorem exists_ok_of_map {α β : Type} {f : α → β} {r : Except ShapeError α} {y : β}
    (h : r.map f = .ok y) : ∃ x, r = .ok x ∧ f x = y := by
  cases r with
  | error e => cases h
  | ok x => exact ⟨x, rfl, Except.ok.inj h⟩

theorem fills_of_readField {w w' : Wire} {name : String} {value : Json}
    (h : readField w name value = .ok w') : Fills w value name w' := by
  cases hslot : Slot.ofName? name with
  | some slot =>
    obtain rfl : slot.name = name := by simpa using List.find?_some hslot
    have hfill : readField w slot.name value = (readCollection value).map fun es =>
        w.hold slot es := by
      cases value <;> simp [readField, readCollection, hslot, Except.map]
    obtain ⟨es, hes, rfl⟩ := exists_ok_of_map (hfill.symm.trans h)
    exact .slot slot hes
  | none =>
    have htext : readField w name value = w.readText name value := by
      cases value <;> simp [readField, hslot]
    rw [htext] at h
    unfold readText at h
    split at h
    · obtain ⟨s, hs, rfl⟩ := exists_ok_of_map h
      exact .id hs
    · obtain ⟨s, hs, rfl⟩ := exists_ok_of_map h
      exact .type hs
    · obtain ⟨s, hs, rfl⟩ := exists_ok_of_map h
      exact .name hs
    · obtain ⟨s, hs, rfl⟩ := exists_ok_of_map h
      exact .resourceId hs
    · obtain rfl := Except.ok.inj h
      refine .unknown fun hmem => ?_
      rcases List.mem_append.mp hmem with hmem | hmem
      · -- These four names have branches of their own.
        have hnames : name = "id" ∨ name = "type" ∨ name = "name" ∨ name = "resourceId" := by
          simpa using hmem
        rcases hnames with rfl | rfl | rfl | rfl <;> contradiction
      · obtain ⟨slot, -, rfl⟩ := List.mem_map.mp hmem
        simp [Slot.ofName?_name] at hslot

theorem readValues_eq_readFields (w : Wire) (names : List String) (items : List Json) :
    readValues w names items = readFields w (names.zip items) := by
  induction items generalizing w names with
  | nil => rw [List.zip_nil_right]; rfl
  | cons value items ih =>
    cases names with
    | nil => rfl
    | cons name names =>
      rw [readValues, List.zip_cons_cons, readFields]
      cases readField w name value with
      | error e => rfl
      | ok w => exact ih w names

theorem exists_readFields {j : Json} {e : Entity} (h : ofJson j = .ok e) :
    ∃ w id, readFields {} (fields j) = .ok w ∧ w.id = some id ∧ w.toEntity id = e := by
  cases j with
  | obj fields =>
    rw [ofJson] at h
    split at h
    · cases h
    rename_i w hread
    rw [ofObject] at h
    split at h
    · rename_i id hid
      exact ⟨w, id, hread, hid, Except.ok.inj h⟩
    · cases h
  | arr items =>
    rw [ofJson, readValues_eq_readFields] at h
    split at h
    · cases h
    rename_i w hread
    rw [ofArray] at h
    split at h
    · rename_i id hid
      split at h
      · cases h
      · exact ⟨w, id, hread, hid, Except.ok.inj h⟩
    · cases h
  | null | bool _ | number _ | str _ => cases h

def Yields {α : Type} (read : Json → Except ShapeError α) (start : α) : Option Json → α → Prop
  | some value, x => read value = .ok x
  | none, x => x = start

theorem Yields.unique {α : Type} {read : Json → Except ShapeError α} {start : α}
    {value : Option Json} {x y : α} (hx : Yields read start value x)
    (hy : Yields read start value y) : x = y := by
  cases value with
  | some value => exact Except.ok.inj (hx.symm.trans hy)
  | none => exact hx.trans hy.symm

/-- A part of what is read comes from the field of one name alone. -/
structure Reads {α : Type} (name : String) (part : Wire → α)
    (read : Json → Except ShapeError α) : Prop where
  here : ∀ {w w' : Wire} {value : Json}, readField w name value = .ok w' →
    read value = .ok (part w')
  elsewhere : ∀ {w w' : Wire} {other : String} {value : Json}, other ≠ name →
    readField w other value = .ok w' →
    part w' = part w

theorem Reads.yields {α : Type} {name : String} {part : Wire → α}
    {read : Json → Except ShapeError α} (h : Reads name part read) {w w' : Wire} {record : Record}
    (hread : readFields w record = .ok w') :
    Yields read (part w) (record.reverse.lookup name) (part w') := by
  -- Fields are read from the front, so the parts that are read first are the start for those
  -- behind them.
  induction record generalizing w with
  | nil =>
    cases hread
    rfl
  | cons field record ih =>
    obtain ⟨other, value⟩ := field
    rw [readFields] at hread
    split at hread
    · cases hread
    rename_i w₁ hfield
    have hlater := ih hread
    rw [List.reverse_cons, List.lookup_append, List.lookup_cons, List.lookup_nil]
    cases hlast : record.reverse.lookup name with
    | some last =>
      rw [hlast] at hlater
      exact hlater
    | none =>
      rw [hlast] at hlater
      have hkept : part w' = part w₁ := hlater
      by_cases hname : name = other
      · subst hname
        simpa [Yields, hkept] using h.here hfield
      · simpa [Yields, beq_eq_false_iff_ne.mpr hname, hkept]
          using h.elsewhere (Ne.symm hname) hfield

theorem name_inj {slot slot' : Slot} : slot.name = slot'.name ↔ slot = slot' := by
  refine ⟨fun hname => Option.some.inj ?_, congrArg Slot.name⟩
  rw [← Slot.ofName?_name, hname, Slot.ofName?_name]

theorem name_ne_of_mem_textNames {name : String} (hname : name ∈ textNames)
    (slot : Slot) : slot.name ≠ name := by
  rintro rfl
  revert hname
  cases slot <;> decide

theorem reads_slot (slot : Slot) : Reads slot.name (fun w => w.held slot) readCollection where
  here {w w' value} h := by
    have hfills := fills_of_readField h
    generalize hname : slot.name = name at hfills
    cases hfills with
    | slot filled hes =>
      obtain rfl := name_inj.mp hname
      simpa [hold] using hes
    | unknown hmem => exact absurd (hname ▸ by cases slot <;> decide) hmem
    | id | type | name | resourceId =>
      exact absurd hname (name_ne_of_mem_textNames (by decide) slot)
  elsewhere {w w' other value} hne h := by
    cases fills_of_readField h with
    | slot filled hes =>
      have hslot : slot ≠ filled := fun hsame => hne (name_inj.mpr hsame.symm)
      simp [hold, hslot]
    | _ => rfl

def text? (w : Wire) : String → Option String
  | "id" => w.id
  | "type" => some w.type
  | "name" => w.name
  | "resourceId" => w.resourceId
  | _ => none

def readText? (name : String) (value : Json) : Except ShapeError (Option String) :=
  if name = "id" ∨ name = "type" then value.asText.map some else value.asOptionalText

theorem forall_mem_textNames {p : String → Prop} :
    (∀ name ∈ textNames, p name) ↔ p "id" ∧ p "type" ∧ p "name" ∧ p "resourceId" := by
  simp [textNames]

theorem reads_text {name : String} (hname : name ∈ textNames) :
    Reads name (fun w => w.text? name) (readText? name) where
  here {w w' value} h := by
    cases fills_of_readField h with
    | slot filled hes => exact absurd rfl (name_ne_of_mem_textNames hname filled)
    | id hs | type hs | name hs | resourceId hs => simp [readText?, hs, text?, Except.map]
    | unknown hmem => exact absurd (List.mem_append_left _ hname) hmem
  elsewhere {w w' other value} hne h := by
    have hfills := fills_of_readField h
    revert name
    rw [forall_mem_textNames]
    refine ⟨?_, ?_, ?_, ?_⟩ <;> intro hne <;> cases hfills <;> first | rfl | exact absurd rfl hne

theorem ofName_type_eq_typeOf {j : Json} {w : Wire} (hread : readFields {} (fields j) = .ok w) :
    EntityType.ofName w.type = typeOf j := by
  have htype : Yields (readText? "type") (some "") (field? j "type") (some w.type) :=
    (reads_text (by decide : "type" ∈ textNames)).yields hread
  rw [typeOf]
  cases hvalue : field? j "type" with
  | none =>
    rw [hvalue] at htype
    obtain hempty : w.type = "" := Option.some.inj htype
    rw [hempty]
    rfl
  | some value =>
    rw [hvalue] at htype
    have htext : value.asText.map some = .ok (some w.type) := htype
    cases value with
    | str s =>
      obtain rfl : s = w.type := Option.some.inj (Except.ok.inj htext)
      rfl
    | _ => cases htext

theorem toEntity_congr {w w' : Wire} (htype : w.type = w'.type) (hname : w.name = w'.name)
    (hresource : w.resourceId = w'.resourceId)
    (hheld : ∀ slot : Slot, slot.belongsTo (EntityType.ofName w.type) = true →
      w.held slot = w'.held slot)
    (id : String) : w.toEntity id = w'.toEntity id := by
  have hkind : w.kind = w'.kind := by
    rw [kind, kind, ← htype]
    cases hof : EntityType.ofName w.type with
    | folder =>
      rw [hof] at hheld
      simp only [hheld .folders rfl, hheld .images rfl, hheld .files rfl]
    | group =>
      rw [hof] at hheld
      simp only [hheld .users rfl]
    | element =>
      rw [hof] at hheld
      simp only [hheld .elements rfl]
    | _ => rfl
  rw [toEntity, toEntity, hkind, hname, hresource, hheld .children rfl]

/-! ## Values that agree on what is kept -/

mutual

/--
The two agree on the fields that hold no entities, and in each collection that belongs to their type
they hold values that agree. Whatever else is there, foreign collections and fields that are not
known, may be there in one of them alone or be different in both; this goes for the values in their
collections as well, down to the last one.
-/
inductive Agree : Json → Json → Prop
  | entity {a b : Json} (texts : ∀ name ∈ textNames, field? a name = field? b name)
      (collections : ∀ slot : Slot, slot.belongsTo (typeOf a) = true →
        AgreeWithin (field? a slot.name) (field? b slot.name)) : Agree a b

inductive AgreeWithin : Option Json → Option Json → Prop
  | same (value : Option Json) : AgreeWithin value value
  | items {as bs : List Json} (h : AgreeAll as bs) : AgreeWithin (some (.arr as)) (some (.arr bs))

inductive AgreeAll : List Json → List Json → Prop
  | nil : AgreeAll [] []
  | cons {a b : Json} {as bs : List Json} (h : Agree a b) (later : AgreeAll as bs) :
      AgreeAll (a :: as) (b :: bs)

end

theorem exists_of_readAll_cons {j : Json} {js : List Json} {all : List Entity}
    (h : readAll (j :: js) = .ok all) :
    ∃ e es, ofJson j = .ok e ∧ readAll js = .ok es ∧ all = e :: es := by
  rw [readAll] at h
  split at h
  · cases h
  rename_i e he
  split at h
  · cases h
  rename_i es hes
  exact ⟨e, es, he, hes, (Except.ok.inj h).symm⟩

mutual

theorem Agree.eq :
    ∀ {a b : Json}, Agree a b → ∀ {e e' : Entity}, ofJson a = .ok e → ofJson b = .ok e' → e = e'
  | a, b, .entity texts collections, e, e', ha, hb => by
    obtain ⟨w, id, hread, hid, rfl⟩ := exists_readFields ha
    obtain ⟨w', id', hread', hid', rfl⟩ := exists_readFields hb
    have htext : ∀ name ∈ textNames, w.text? name = w'.text? name := by
      intro name hname
      have hyields := (reads_text hname).yields hread
      have hyields' := (reads_text hname).yields hread'
      rw [← field?, texts name hname] at hyields
      exact hyields.unique hyields'
    obtain rfl : id = id' := Option.some.inj (hid.symm.trans ((htext "id" (by decide)).trans hid'))
    have htype : w.type = w'.type := Option.some.inj (htext "type" (by decide))
    refine toEntity_congr htype (htext "name" (by decide)) (htext "resourceId" (by decide))
      (fun slot hslot => ?_) id
    rw [ofName_type_eq_typeOf hread] at hslot
    exact (collections slot hslot).eq ((reads_slot slot).yields hread)
      ((reads_slot slot).yields hread')

theorem AgreeWithin.eq : ∀ {u v : Option Json}, AgreeWithin u v → ∀ {es es' : List Entity},
    Yields readCollection [] u es → Yields readCollection [] v es' → es = es'
  | _, _, .same _, _, _, hu, hv => hu.unique hv
  | _, _, .items h, _, _, hu, hv => h.eq hu hv

theorem AgreeAll.eq : ∀ {as bs : List Json}, AgreeAll as bs → ∀ {es es' : List Entity},
    readAll as = .ok es → readAll bs = .ok es' → es = es'
  | _, _, .nil, _, _, has, hbs => Except.ok.inj (has.symm.trans hbs)
  | _, _, .cons h later, es, es', has, hbs => by
    obtain ⟨e, es, he, hes, rfl⟩ := exists_of_readAll_cons has
    obtain ⟨e', es', he', hes', rfl⟩ := exists_of_readAll_cons hbs
    rw [h.eq he he', later.eq hes hes']

end

def isOwn (type : EntityType) (name : String) : Bool :=
  (Slot.ofName? name).all fun slot => slot.belongsTo type

/-- What is left of an entity's fields without the foreign collections. -/
def ownFields (record : Record) : Record :=
  record.filter fun field => isOwn (typeOf (.obj record)) field.1

theorem lookup_filter {α β : Type} [BEq α] [LawfulBEq α] {p : α → Bool} {key : α}
    (hkey : p key = true) (xs : List (α × β)) :
    (xs.filter fun x => p x.1).lookup key = xs.lookup key := by
  induction xs with
  | nil => rfl
  | cons x xs ih =>
    obtain ⟨k, value⟩ := x
    by_cases hk : key = k
    · subst hk
      simp [hkey]
    · cases hp : p k <;> simp [hp, ih, List.lookup_cons, beq_eq_false_iff_ne.mpr hk]

theorem isOwn_of_mem_textNames (type : EntityType) {name : String} (hname : name ∈ textNames) :
    isOwn type name = true := by
  revert name
  rw [forall_mem_textNames]
  exact ⟨rfl, rfl, rfl, rfl⟩

theorem isOwn_name (type : EntityType) (slot : Slot) :
    isOwn type slot.name = slot.belongsTo type := by
  rw [isOwn, Slot.ofName?_name, Option.all_some]

theorem field?_ownFields {record : Record} {name : String}
    (hown : isOwn (typeOf (.obj record)) name = true) :
    field? (.obj (ownFields record)) name = field? (.obj record) name := by
  rw [field?, field?, fields, fields, ownFields, ← List.filter_reverse]
  exact lookup_filter hown record.reverse

theorem agree_of_ownFields_eq {record record' : Record}
    (hsame : ownFields record = ownFields record') : Agree (.obj record) (.obj record') := by
  have htexts : ∀ name ∈ textNames, field? (.obj record) name = field? (.obj record') name := by
    intro name hname
    rw [← field?_ownFields (isOwn_of_mem_textNames _ hname), hsame,
      field?_ownFields (isOwn_of_mem_textNames _ hname)]
  have htype : typeOf (.obj record) = typeOf (.obj record') := by
    rw [typeOf, typeOf, htexts "type" (by decide)]
  refine .entity htexts fun slot hslot => ?_
  have hown : isOwn (typeOf (.obj record)) slot.name = true := (isOwn_name _ slot).trans hslot
  rw [← field?_ownFields hown, hsame, field?_ownFields (htype ▸ hown)]
  exact .same _

/--
Two values that agree on what belongs to the types in them are read as the same entity, if both are
read at all. All that is foreign may differ at any depth: objects with the same fields but for
foreign collections agree, and so do values whose own collections hold values that agree.
-/
theorem eq_of_agree :
    (∀ {a b : Json} {e e' : Entity}, Agree a b → ofJson a = .ok e → ofJson b = .ok e' → e = e') ∧
      ∀ {record record' : Record}, ownFields record = ownFields record' →
        Agree (.obj record) (.obj record') :=
  ⟨fun hagree ha hb => hagree.eq ha hb, agree_of_ownFields_eq⟩

def crowdedShelf : Json :=
  .obj [("users", .arr [.obj [("id", .str "u")]]), ("id", .str "shelf"), ("type", .str "Folder"),
    ("folders", .arr [.obj [("id", .str "box"), ("elements", .null), ("type", .str "Folder"),
      ("users", .arr [.arr [.str "v", .str "User"]])]])]

def plainShelf : Json :=
  .obj [("id", .str "shelf"), ("type", .str "Folder"),
    ("folders", .arr [.obj [("id", .str "box"), ("type", .str "Folder")]])]

theorem eq_of_agree_shelf : Agree crowdedShelf plainShelf ∧
    ∃ e e', ofJson crowdedShelf = .ok e ∧ ofJson plainShelf = .ok e' ∧ e = e' := by
  have hbox : Agree (.obj [("id", .str "box"), ("elements", .null), ("type", .str "Folder"),
      ("users", .arr [.arr [.str "v", .str "User"]])])
        (.obj [("id", .str "box"), ("type", .str "Folder")]) :=
    eq_of_agree.2 rfl
  have hshelf : Agree crowdedShelf plainShelf := by
    refine .entity (forall_mem_textNames.mpr ⟨rfl, rfl, rfl, rfl⟩) fun slot hslot => ?_
    cases slot with
    | folders => exact .items (.cons hbox .nil)
    | images | files | children => exact .same none
    | users | elements => cases hslot
  exact ⟨hshelf, _, _, rfl, rfl, eq_of_agree.1 hshelf rfl rfl⟩

end Wire

end ContentConsole
