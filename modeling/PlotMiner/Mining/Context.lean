import PlotMiner.Config
import PlotMiner.Decimal.Binary64
import PlotMiner.Keys.PlotKey

/-!
# What a miner needs besides its collaborators

The address of the rewards, the keys of the farmers, and how long the miner waits for what. Times
are counted in nanoseconds.
-/

namespace PlotMiner.Mining

open Keys

def millisecond : Nat := 1000000

def second : Nat := 1000000000

structure Timings where
  errorBackoff : Nat
  notReadyWait : Nat
  duplicateWait : Nat
  pollTick : Nat
  rpcErrorWait : Nat
  /-- The multiple of a round's target duration after which a time proof is requested again. -/
  vdfTimeoutFactor : Float

instance : Inhabited Timings :=
  ⟨⟨3 * second, 3 * second, second, 200 * millisecond, second, 1.5⟩⟩

def defaultFactorBits : UInt8 := 35

structure Context where
  rewardTo : String
  factorBits : UInt8
  farmerKeys : FarmerKeys
  timings : Timings

/-- A span of time that many seconds long, to the nearest nanosecond, a tie going to the even one.
There is none for a negative number, and none from `2 ^ 64` seconds on. -/
def duration? (seconds : Float) : Option Nat :=
  let x := Binary64.ofFloat seconds
  if !x.isFinite || (x.isNegative && x.mantissa != 0) then none
  else
    let scaled := x.mantissa * second
    let nanos :=
      if 0 ≤ x.exponent then scaled <<< x.exponent.toNat
      else divRoundEven scaled (1 <<< (-x.exponent).toNat)
    if nanos < UInt64.size * second then some nanos else none

/-- How long to wait for a time proof in a round that is meant to take `targetDuration` seconds. -/
def Timings.vdfTimeout? (t : Timings) (targetDuration : UInt64) : Option Nat :=
  duration? (targetDuration.toFloat * t.vdfTimeoutFactor)

namespace Context

def new (rewardTo : String) (farmerKeys : FarmerKeys) : Context :=
  ⟨rewardTo, defaultFactorBits, farmerKeys, default⟩

def ofConfig (c : MinerConfig) (gen : KeyGenerator := SecretKey.ofSeed) : Except Failure Context :=
  match c.validate with
  | .error e => .error (.other e.kind e.message)
  | .ok () =>
    match FarmerKeys.ofSeeds c.seed.toList gen with
    | .error e => .error (.other .invalidInput e.message)
    | .ok keys =>
      if keys.isEmpty then
        .error (.other .invalidInput "no farmer key could be derived from `seed`")
      else .ok (new c.reward keys)

end Context

end PlotMiner.Mining
