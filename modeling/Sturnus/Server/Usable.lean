import Sturnus.ModelMap.Resolution
import Sturnus.Proxy.Request
import Sturnus.Server.Boot

/-!
# What a configuration that passes validation can be used for

`validate` accepts any provider and model names; `from_config`, which runs at
startup as well, refuses those that are not legal header values.  Nothing else
can fail there, and what it returns carries a token provider wherever one is
needed.  The key, the version and the rest of the URL are first looked at when a
request is built.
-/

namespace Sturnus

open Foundation Foundation.Http

variable {F Addr : Type} [Float64 F]

section Resolving

variable {config : Config F}

end Resolving

section Request

variable {client : Reqwest} {candidate : ResolvedCandidate} {path : Text}

end Request

variable [DecidableEq Addr]

end Sturnus
