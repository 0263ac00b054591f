/-
# Kernel.Config -- the configuration of a deployment

The lease and the polling interval are kept as the numbers of seconds they are, since
more than one function reads them.  The other two numbers of seconds only ever become a
`timedelta`, and are stored as the span they are turned into; a number `timedelta` does
not take is any span that leads out of the calendar.
-/
import Sluice.Kernel.Instant

namespace Sluice.Kernel

set_option autoImplicit false

/-- The part of `Config` the modelled code reads; the clock is part of the world. -/
structure Config where
  asset : String := "USDT-TRC20"
  tokenDecimals : Nat := 6
  minAmountUnits : Int := 1
  maxAmountUnits : Int := 1000000 * 10 ^ 6
  leaseSeconds : Seconds := .finite 30 0
  claimBatch : Nat := 10
  pollInterval : Seconds := .finite 1 (-1)
  txTtlSeconds : Int := 60 * second
  expirationSafetySeconds : Int := 30 * second
  maxBuildAttempts : Int := 5
  usdtContract : String := "TR7NHqjeKQxGTCi8q8ZY4pL8otSzgjLj6t"

end Sluice.Kernel
