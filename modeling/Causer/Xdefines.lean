import Mathlib.Data.BitVec

/-!
# Global definitions

The constants of `xdefines.hh` in the Makefile's configuration, and the
machine word that pointers and sizes are made of.
-/

namespace Causer

/-- A 64-bit word: a pointer, a `size_t` or an `unsigned long`. -/
abbrev Word := BitVec 64

/-- Number of entries of the thread table. -/
abbrev maxAliveThreads : Nat := 1025

instance : NeZero maxAliveThreads := ⟨by decide⟩

/-- Number of hardware watchpoints. -/
abbrev maxWatchpoints : Nat := 4

instance : NeZero maxWatchpoints := ⟨by decide⟩

/-- The ratio that marks a call site whose objects have been overflowed. -/
abbrev maxWatchRatioUpperbound : Int := 10000

/-- The bound of the draws of a call site that allocates too often. -/
abbrev maxWatchRatioSecondUpperbound : Int := 100000

/-- How often a call site may allocate before that in one period. -/
abbrev maxWatchThreshold : Nat := 5000

/-- Milliseconds after which a period is over. -/
abbrev maxWatchPeriod : Nat := 10000

/-- The percentage, over ten, left of a ratio when its call site is watched. -/
abbrev watchedReduction : Int := 5

/-- What a ratio loses when its call site allocates without being watched. -/
abbrev calledReduction : Int := 1

/-- The least ratio. -/
abbrev reductionToMin : Int := 1

/-- The ratio of a call site that has just been found. -/
abbrev initWatchRatio : Int := 5000

/-- Milliseconds for which a watchpoint cannot be preempted. -/
abbrev wpInstallMinTime : Nat := 1

/-- Weight of the installed call site's ratio in the preemption test. -/
abbrev wpPreemptWeight : Int := 2

/-- Milliseconds in which the installed ratio loses its whole weight. -/
abbrev wpPreemptTimeReductionBase : Int := 10000

/-- Length in bytes of the tail sentinel. -/
abbrev sentinelSize : Nat := 8

/-- The word before every object. -/
abbrev sentinelHeadWord : Nat := 0xCAFEBABECAFEBABE

/-- The word after every object. -/
abbrev sentinelTailWord : Nat := 0xDADEBABEDADEBABE

end Causer
