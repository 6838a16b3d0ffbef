import DevServer.Proofs.Guesses
import DevServer.Proofs.LiftedLoads

set_option autoImplicit false

namespace DevServer.CommonJs

open Text

section Returns

end Returns

section Lifting

variable {source line : Text}

end Lifting

section Imports

end Imports

end DevServer.CommonJs
