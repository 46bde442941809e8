/-!
# Time

Moments on a clock and spans of time, both counted in nanoseconds. The clock counts its seconds in
63 bits, so a moment that is too far away is none that it can show (`Moment.after?`).
-/

namespace PeerMessaging

/-- A span of time in nanoseconds. -/
abbrev Duration := Nat

/-- A moment, in nanoseconds on a clock. -/
abbrev Moment := Nat

/-- A number of milliseconds. -/
def milliseconds (n : Nat) : Duration := n * 1000000

/-- The last moment that the clock can show. -/
def Moment.last : Moment := Nat.pow 2 63 * 1000000000 - 1

/-- The moment so much later, if the clock can show it. -/
def Moment.after? (m : Moment) (d : Duration) : Option Moment :=
  if m + d ≤ Moment.last then some (m + d) else none

end PeerMessaging
