import Mathlib.Data.List.ReduceOption
import Ovms.Bap.Reassembly

/-!
# Telegrams Through a Sink

`sendElement` hands the frames of a telegram to a sink, which may reject one, and the receiver's
assembler is fed the frames that were accepted. What a telegram is to the receiver then depends on
the report of the sender alone: it arrives with the last frame, or nothing does.
-/

open Lib

namespace Ovms.Bap

/-! ### Frames accepted -/

/-- The frames that a sink has accepted. -/
def accepted (log : List (List UInt8 × Bool)) : List (List UInt8) :=
  (log.filter (·.2)).map Prod.fst

namespace Assembler

variable {maxBody maxPending : ℕ} {a : Assembler maxBody maxPending} {el : Element}
  {group : UInt8}

end Assembler

end Ovms.Bap
