import RuleTables.Cli.Run
import RuleTables.Proofs.Gate
import RuleTables.Proofs.JsonRefusal
import RuleTables.Proofs.PostedDocument
import RuleTables.Proofs.Refusal
import RuleTables.Proofs.TreeReading

namespace RuleTables

namespace Expr

end Expr

namespace Generation

end Generation

namespace Request

section Orderly

variable {s : Settings} {v : Json} {f : Fault}

end Orderly

section Detection

variable {s : Settings} {v : Json} {f : Fault}

end Detection

end Request

namespace Cli

open Request

/-- The code with which the command ends and what it has printed by then, or the class of the fault
that ends it. -/
def Run.ending (r : Run) : Except FaultClass (Nat × String) :=
  (r.effect.map fun e => (e.code, e.out)).mapError (·.kind)

section Ending

variable {s : Settings} {path word : String} {octets : List UInt8} {v : Json}

end Ending

end Cli

end RuleTables
