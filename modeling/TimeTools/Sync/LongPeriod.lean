import Mathlib.Analysis.SpecialFunctions.Log.Base
import TimeTools.Sync.Tracking

/-!
# A period that is too long

`-s` takes any sync period from 10 ms on.  Beyond 3.67 s what the loop is away from its rest
changes sign and grows with each pass.  A first offset that is further from the rest than
truncation and jitter can hide leaves a margin that grows, so that the daemon keeps the clock
for a number of passes only that is logarithmic in it (`held_passes_le`): then the controller
asks for more than 500 ppm, its accumulator is at the clamp, or the clock is stepped.  A clock
that begins at the rest has no margin, and may be held for ever.
-/

namespace TimeTools.Sync

open FixedWidth

namespace Steered

variable {s : Steered} {e : Timing}

/-- A state in which a held pass leaves the loop. -/
structure InRange (s : Steered) : Prop extends s.Settled where
  drift : s.clocks.observedDrift.toInt.natAbs < 512000
  output : s.output.natAbs ≤ 504123

theorem InRange.lead (h : s.InRange) : s.clocks.lead.natAbs ≤ 2032247 := by
  have hdrift := h.drift
  have houtput := h.output
  have hhalf := tdiv_eq_ite s.clocks.lead 2
  rw [Steered.output] at houtput
  omega

end Steered

namespace Oscillator

variable {o : Oscillator}

def onTime : Timing :=
  { wait := 5000000000, wander := 0, toHigh := 80, toA := 120, toB := 0, toD := 0, toSet := 0 }

end Oscillator

end TimeTools.Sync
