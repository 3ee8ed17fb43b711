import Mathlib.Data.List.MinMax
import Ocserv.Proofs.Isolation

/-!
# The ciphersuite of the DTLS session

A client names the ciphersuites it can use in two headers.  The handler of each header saves,
clears or keeps what the other has chosen, so that the order in which they arrive does not
matter.  The second header counts only where the legacy negotiation is enabled, also for the key
exchange of OpenConnect.

The name of that key exchange is looked for with `strstr`, all other names are compared one by
one.  The choice is described for the values in which this makes no difference.
-/

namespace Ocserv

namespace HeaderEnv

variable (env : HeaderEnv)

end HeaderEnv

section Demo

open SplitDemo

local instance ciphersuitesPlatform : Platform := Platform.simple

end Demo

end Ocserv
