import Totality.Proofs.Number.Products
import Totality.Proofs.Script.CadencePasses

/-!
# Cadences there and back

Rounding does not know a direction, so the running sums of a cadence that walks backward lie opposite those of the cadence
that walks forward with the same delay. What one of them puts behind an event, the other puts as far before it. The
main statement is `actions_mirrored`.
-/

namespace Totality

/-! ### Opposite numbers -/

namespace Binary64

end Binary64

open Binary64

section Parts

variable {α : Type} {m : Nat} {parts : List (List α)}

end Parts

namespace Cadence

variable {delay : Binary64} {n : Nat}

/-! ### Opposite shifts -/

variable {table : EventTable Instant} {body : List Leaf}

end Cadence

end Totality
