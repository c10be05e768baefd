import Causer.ScanMarks
import Mathlib.Data.Finite.Prod

/-!
# What the scan reads

The scan takes any head sentinel for that of an object, reads the object's size
at a negative offset from it, and its tail word wherever that size leads.  An
intact tail word makes it go on behind that, without a look whether this is
ahead.  For a damaged one it stores a ratio through the pointer in the guard,
possibly into what it scans later, and prints the tail word after that.  So it
ends and reads inside its mapping, and every store can be made, exactly if this
holds at every head that it comes to, in the memory that it finds there.
-/

namespace Causer

open ByteMemory WordArithmetic ObjectGuard

section

variable (writable : Nat → Prop) (memory : Memory) (base limit : Nat)

end

namespace ScanState

/-- A state without its marks, which the loop does not look at. -/
def bare (state : ScanState) : Nat × Memory :=
  (state.it, state.memory)

end ScanState

section

variable {writable : Nat → Prop} {memory : Memory} {base limit : Nat}
  {source state next target : ScanState}

end

end Causer
