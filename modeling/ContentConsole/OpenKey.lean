set_option autoImplicit false
set_option relaxedAutoImplicit false

/-!
The key under which a node is remembered as open: an entity, the parent it is shown under, and the
root resource that tells apart the same entity shown in different places.
-/
namespace ContentConsole

structure OpenKey where
  entityId : String
  parentId : Option String
  resourceId : Option String
deriving DecidableEq, Repr, Inhabited

namespace OpenKey

/-- Keys are ordered by entity, then parent, then resource; an absent part comes first. -/
instance : Ord OpenKey where
  compare :=
    compareLex (compareOn entityId) (compareLex (compareOn parentId) (compareOn resourceId))

instance : Std.TransOrd OpenKey :=
  inferInstanceAs (Std.TransCmp
    (compareLex (compareOn entityId) (compareLex (compareOn parentId) (compareOn resourceId))))

theorem compare_eq_then (a b : OpenKey) : compare a b =
    (compare a.entityId b.entityId).then
      ((compare a.parentId b.parentId).then (compare a.resourceId b.resourceId)) := rfl

instance : Std.LawfulEqOrd OpenKey where
  eq_of_compare := by
    intro a b h
    simp only [compare_eq_then, Ordering.then_eq_eq, Std.LawfulEqOrd.compare_eq_iff_eq] at h
    cases a; cases b; simp_all

def mentions (key : OpenKey) (id : String) : Bool :=
  key.entityId == id || key.parentId == some id || key.resourceId == some id

def text (key : OpenKey) : String :=
  let parent := key.parentId.getD "-"
  let resource := key.resourceId.getD "-"
  s!"{key.entityId} (parent: {parent}, resource: {resource})"

end OpenKey

end ContentConsole
