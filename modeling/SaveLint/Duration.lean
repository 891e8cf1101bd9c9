import SaveLint.Fault
import SaveLint.Number.Binary64

/-!
# Durations

A duration is a whole number of nanoseconds below `2 ^ 64` seconds. It is read from a floating-point
number of seconds by rounding the exact value to the nearest nanosecond, ties to even.
-/

namespace SaveLint

open SaveLint.Number

structure Duration where
  nanoseconds : Nat
  deriving DecidableEq, Repr

namespace Duration

def perSecond : Nat := 1000000000

def ofParts (seconds nanos : Nat) : Duration := ⟨seconds * perSecond + nanos⟩

def ofSeconds (seconds : Nat) : Duration := ofParts seconds 0

def seconds (d : Duration) : Nat := d.nanoseconds / perSecond

def nanos (d : Duration) : Nat := d.nanoseconds % perSecond

/-- Whether a duration is longer than nothing and shorter than a minute. -/
def isWithinMinute (d : Duration) : Bool := 0 < d.nanoseconds && d.nanoseconds < 60 * perSecond

/-- The seconds as a floating-point number: whole seconds and the rest are rounded and added. -/
def toBinary64 (d : Duration) : Binary64 :=
  (Binary64.ofNat d.seconds).addAbs ((Binary64.ofNat d.nanos).divNat perSecond)

/-- The duration of a number of seconds that is not below zero. -/
def ofBinary64 (x : Binary64) : Except Fault Duration :=
  match x with
  | .finite _ m e =>
    let (n, d) := Binary64.ratio m e
    if n < Nat.pow 2 64 * d then .ok ⟨roundRatio (n * perSecond) d⟩ else .error .delayOutOfRange
  | _ => .error .delayOutOfRange

end Duration

end SaveLint
