import Mathlib.Algebra.Order.BigOperators.Group.List
import Mathlib.Algebra.Order.Ring.Nat
import Sturnus.Foundation.Concurrent

/-!
# Quantities that tasks exclude each other from

A quantity moves between the shared state and the tasks.  That there is only so
much of it may be what makes an advance conserve it.
-/

namespace Foundation.Concurrent

variable {Shared Request Input Task Event : Type}
  {handler : Handler Shared Request Input Task Event} {initial : Shared}
  {system : System Shared Task Event}

end Foundation.Concurrent
