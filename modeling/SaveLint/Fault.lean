/-!
# Faults

A fault stops the program on the spot. There are two, and both are arithmetic: a position that
cannot be shown because counting from one would pass the 32-bit range, and a delay that is too long
to be a duration.
-/

namespace SaveLint

/-- What stops the program on the spot. -/
inductive Fault where
  /-- A line or a column has no successor in 32 bits. -/
  | positionOverflow
  /-- A number of seconds is not below `2 ^ 64`. -/
  | delayOutOfRange
  deriving DecidableEq, Repr

def Fault.message : Fault → String
  | positionOverflow => "attempt to add with overflow"
  | delayOutOfRange => "cannot convert float seconds to Duration: value is either too big or NaN"

end SaveLint
