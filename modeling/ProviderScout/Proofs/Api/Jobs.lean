import ProviderScout.Proofs.Api.Requests
import ProviderScout.Proofs.Selection.Enumeration
import ProviderScout.Store.Memory

namespace ProviderScout

namespace Engine

variable (e : Engine) (job : String)

variable {e job}

end Engine

namespace Engine

variable {e : Engine} {job : String}

end Engine

namespace Api

variable {σ : Type} [ModelStore σ]

end Api

end ProviderScout
