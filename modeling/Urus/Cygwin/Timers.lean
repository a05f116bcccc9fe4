/-
This file models the clock of the Cygwin core. The true time has 64 bits, and every function that the
other code calls hands on a result of 32 bits.
-/

import Mathlib.Tactic

namespace Urus.Cygwin

/-- `get_core_hrdtime`, which is `_micros64ts`: the true time. -/
def getCoreHrdtime (time : UInt64) : UInt64 := time

/-- `get_core_micros32`. -/
def getCoreMicros32 (time : UInt64) : UInt32 := (getCoreHrdtime time).toUInt32

/-- `get_core_micros64`. -/
def getCoreMicros64 (time : UInt64) : UInt64 := (getCoreMicros32 time).toUInt64

/-- `AP_HAL::micros64` at a true time. -/
def micros64 (time : UInt64) : UInt64 := getCoreMicros64 time

theorem micros64_toNat (time : UInt64) : (micros64 time).toNat = time.toNat % 4294967296 := by
  rw [micros64, getCoreMicros64, UInt32.toNat_toUInt64, getCoreMicros32, UInt64.toNat_toUInt32,
    getCoreHrdtime]

end Urus.Cygwin
