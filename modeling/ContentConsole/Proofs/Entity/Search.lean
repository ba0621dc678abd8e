import ContentConsole.Graph

set_option autoImplicit false
set_option relaxedAutoImplicit false

/-!
Looking entities up by id. Main statement: `find?_eq_preorder`, by which a search ends at
the first entity of the preorder that has the id, and a graph answers with the children of
the first one below its roots.
-/
namespace ContentConsole

mutual

theorem Entity.find?_eq (wanted : String) :
    ∀ e : Entity, e.find? wanted = e.preorder.find? fun x => x.id == wanted
  | ⟨id, name, resourceId, kind, children⟩ => by
    rw [Entity.find?, Entity.preorder, List.find?_cons, List.find?_append,
      ← Kind.find?_eq wanted kind, ← Entity.findIn?_eq wanted children]
    by_cases hid : id = wanted
    · simp [hid]
    · have hother : (id == wanted) = false := beq_eq_false_iff_ne.mpr hid
      cases Kind.find? wanted kind <;> simp [hid, hother]

theorem Kind.find?_eq (wanted : String) :
    ∀ kind : Kind Entity, kind.find? wanted = kind.preorder.find? fun x => x.id == wanted
  | .folder folders images files => by
    rw [Kind.find?, Kind.preorder, List.find?_append, List.find?_append,
      ← Entity.findIn?_eq wanted folders, ← Entity.findIn?_eq wanted images,
      ← Entity.findIn?_eq wanted files]
    cases Entity.findIn? wanted folders <;> cases Entity.findIn? wanted images <;> rfl
  | .group users => Entity.findIn?_eq wanted users
  | .element _ elements => Entity.findIn?_eq wanted elements
  | .resource | .component | .content | .image | .file | .user => rfl

theorem Entity.findIn?_eq (wanted : String) :
    ∀ es : List Entity, Entity.findIn? wanted es = (Entity.preorderAll es).find? fun x =>
      x.id == wanted
  | [] => rfl
  | e :: es => by
    rw [Entity.findIn?, Entity.preorderAll, List.find?_append, ← Entity.find?_eq wanted e,
      ← Entity.findIn?_eq wanted es]
    cases e.find? wanted <;> rfl

end

namespace Entity

theorem preorderAll_eq_flatMap (es : List Entity) : preorderAll es = es.flatMap preorder := by
  induction es with
  | nil => rfl
  | cons e es ih => rw [preorderAll, List.flatMap_cons, ih]

theorem preorder_kind (kind : Kind Entity) : kind.preorder = kind.members.flatMap preorder := by
  cases kind with
  | folder folders images files =>
    rw [Kind.preorder, Kind.members, List.flatMap_append, List.flatMap_append,
      preorderAll_eq_flatMap, preorderAll_eq_flatMap, preorderAll_eq_flatMap]
  | group users => exact preorderAll_eq_flatMap users
  | element typeName elements => exact preorderAll_eq_flatMap elements
  | _ => rfl

theorem preorder_eq (e : Entity) :
    e.preorder = e :: (e.kind.members ++ e.children).flatMap preorder := by
  obtain ⟨id, name, resourceId, kind, children⟩ := e
  rw [preorder, preorder_kind, preorderAll_eq_flatMap, List.flatMap_append]

theorem find?_eq_none_iff {e : Entity} {id : String} :
    e.find? id = none ↔ ¬∃ x ∈ e.preorder, x.id = id := by
  rw [find?_eq, List.find?_eq_none]
  simp

end Entity

namespace Graph

open Entity (preorder)

theorem find_eq (g : Graph) (id : String) :
    g.find id =
      match (g.roots.flatMap preorder).find? fun x => x.id == id with
      | some e => .ok e
      | none => .error (.notFound s!"entity {id}") := by
  rw [← Entity.preorderAll_eq_flatMap, ← Entity.findIn?_eq]
  rfl

theorem find_eq_error_iff {g : Graph} {id : String} {fault : Fault} :
    g.find id = .error fault ↔
      fault = .notFound s!"entity {id}" ∧ ¬∃ root ∈ g.roots, ∃ x ∈ root.preorder, x.id = id := by
  rw [find_eq]
  cases hfound : (g.roots.flatMap preorder).find? fun x => x.id == id with
  | some e =>
    have hmem : e ∈ g.roots.flatMap preorder := List.mem_of_find?_eq_some hfound
    obtain ⟨root, hroot, hbelow⟩ := List.mem_flatMap.mp hmem
    have hid : e.id = id := by simpa using List.find?_some hfound
    exact iff_of_false nofun fun ⟨_, hnone⟩ => hnone ⟨root, hroot, e, hbelow, hid⟩
  | none =>
    have hnone : ¬∃ root ∈ g.roots, ∃ x ∈ root.preorder, x.id = id := by
      rintro ⟨root, hroot, x, hbelow, hid⟩
      exact List.find?_eq_none.mp hfound x (List.mem_flatMap.mpr ⟨root, hroot, hbelow⟩)
        (beq_iff_eq.mpr hid)
    rw [and_iff_left hnone, Except.error.injEq]
    exact eq_comm

/--
A search below an entity ends at the first one of its preorder with the id, and fails exactly if
none there has it. The preorder visits an entity, then the collections of its type, then its
children. A graph answers a request for children with those of the first entity with the id below
its roots, taken in order; it answers with a failure exactly if no root has such an entity below it,
and then says that the id was not found.
-/
theorem find?_eq_preorder :
    (∀ (e : Entity) (id : String), e.find? id = (e.preorder.find? fun x => x.id == id) ∧
      (e.find? id = none ↔ ¬∃ x ∈ e.preorder, x.id = id)) ∧
      (∀ e : Entity, e.preorder = e :: (e.kind.members ++ e.children).flatMap preorder) ∧
      ∀ (g : Graph) (id : String) (resourceId : Option String),
        g.answer (.children id resourceId) =
            (match (g.roots.flatMap preorder).find? fun x => x.id == id with
            | some e => .ok e.children
            | none => .error (.notFound s!"entity {id}") : Except Fault (List Entity)) ∧
          ∀ fault, g.answer (.children id resourceId) = .error fault ↔
            fault = .notFound s!"entity {id}" ∧
              ¬∃ root ∈ g.roots, ∃ x ∈ root.preorder, x.id = id := by
  refine ⟨fun e id => ⟨e.find?_eq id, Entity.find?_eq_none_iff⟩, Entity.preorder_eq,
    fun g id resourceId => ?_⟩
  change (g.find id).map Entity.children = _ ∧ ∀ fault, (g.find id).map Entity.children =
    .error fault ↔ _
  refine ⟨?_, fun fault => ?_⟩
  · rw [find_eq]
    cases (g.roots.flatMap preorder).find? fun x => x.id == id <;> rfl
  · rw [← find_eq_error_iff]
    cases g.find id with
    | error e =>
      rw [Except.map, Except.error.injEq, Except.error.injEq]
    | ok e => exact iff_of_false nofun nofun

end Graph

end ContentConsole
