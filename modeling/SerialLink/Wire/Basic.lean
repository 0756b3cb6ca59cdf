/-
# The wire and its interrupt sources

A wire, the detector that watches it for edges, and the timer by which it is sampled, as they
stand at one moment.  Time is counted in cycles of the timer's clock.

The detector *latches*: a change of level that happens while it is armed is kept until time
moves again.  The timer restarts itself: it matches one interval after it was last restarted,
and a match restarts it.  An interval of zero counts as one cycle (`Wire.target`), so matches
never pile up at one instant (`timerStart_lt_due`).

The interrupts that are served are counted, edges and matches apart, in 32 bits each.  That there
is room for one more is asked where it is served.

This is the `State` of the program's simulated `Line`, with what its handles do to it: `Edge`
arms and disarms the detector, and `Timer` sets, restarts, arms and disarms the timer.  Nothing
here lets time pass; that is `Reception.Run`.
-/

namespace SerialLink

/-- The wire and the receiving side's interrupt sources. -/
structure Wire where
  /-- Cycles in a second. -/
  clock : UInt32
  /-- The level of the wire; high is `true`. -/
  level : Bool
  /-- Cycles since the start. -/
  now : Nat
  /-- Changes of level are latched. -/
  edgeArmed : Bool
  /-- A change of level is waiting to be served. -/
  edgeLatched : Bool
  /-- Matches of the timer are served. -/
  timerArmed : Bool
  /-- Cycles from a restart of the timer to its match. -/
  interval : Nat
  /-- When the timer was last restarted. -/
  timerStart : Nat
  /-- How many edges have been served. -/
  edgesServed : UInt32
  /-- How many matches have been served. -/
  matchesServed : UInt32
  deriving DecidableEq, Repr

namespace Wire

/-- A wire that idles high, with nothing armed. -/
def fresh (clock : UInt32) : Wire where
  clock := clock
  level := true
  now := 0
  edgeArmed := false
  edgeLatched := false
  timerArmed := false
  interval := 0
  timerStart := 0
  edgesServed := 0
  matchesServed := 0

/-- The whole cycles in so many nanoseconds. -/
def cyclesIn (w : Wire) (nanos : Nat) : Nat := nanos * w.clock.toNat / 1000000000

/-- The first count of cycles that cannot be told. -/
def timeLimit : Nat := UInt64.size

/-- The first count of interrupts that cannot be told. -/
def countLimit : Nat := UInt32.size

/-- The count of edges as a number. -/
def edgeCount (w : Wire) : Nat := w.edgesServed.toNat

/-- The count of matches as a number. -/
def matchCount (w : Wire) : Nat := w.matchesServed.toNat

/-! ## 1. The level -/

/-- Put a level on the wire.  A change is latched if the detector is armed. -/
def drive (w : Wire) (high : Bool) : Wire :=
  if w.level = high then w
  else { w with level := high, edgeLatched := w.edgeLatched || w.edgeArmed }

/-! ## 2. The edge detector -/

/-- Latch the changes of level from now on. -/
def armEdge (w : Wire) : Wire := { w with edgeArmed := true }

/-- Latch no more changes, and forget the one that waits. -/
def disarmEdge (w : Wire) : Wire := { w with edgeArmed := false, edgeLatched := false }

/-- A latched edge is due to be served. -/
def edgeDue (w : Wire) : Bool := w.edgeLatched && w.edgeArmed

/-- Take the latched edge off the detector. -/
def unlatch (w : Wire) : Wire := { w with edgeLatched := false }

/-- Take the latched edge off the detector, and count it if it was due. -/
def takeEdge (w : Wire) : Wire :=
  { w.unlatch with
    edgesServed := if w.edgeDue then w.edgesServed + 1 else w.edgesServed }

/-! ## 3. The timer -/

/-- Set the interval.  The timer runs on from its last restart. -/
def setInterval (w : Wire) (cycles : Nat) : Wire := { w with interval := cycles }

/-- Restart the timer. -/
def restartTimer (w : Wire) : Wire := { w with timerStart := w.now }

/-- Serve matches from now on. -/
def armTimer (w : Wire) : Wire := { w with timerArmed := true }

/-- Serve no more matches. -/
def disarmTimer (w : Wire) : Wire := { w with timerArmed := false }

/-- The cycle at which the timer next reaches its interval. -/
def target (w : Wire) : Nat := w.timerStart + max w.interval 1

/-- When the next match is served: at its target, or at once if that has gone by. -/
def due (w : Wire) : Nat := max w.target w.now

/-- Come to the next match: time moves up to it and the timer restarts there. -/
def reachMatch (w : Wire) : Wire := { w with now := w.due, timerStart := w.due }

/-- Serve the next match: come to it and count it. -/
def takeMatch (w : Wire) : Wire :=
  { w.reachMatch with matchesServed := w.matchesServed + 1 }

/-- How many matches come by `stop` if the timer is left alone: one as soon as it is due, and then
one an interval. -/
def matchesBy (w : Wire) (stop : Nat) : Nat :=
  if w.timerArmed ∧ w.due ≤ stop then (stop - w.due) / max w.interval 1 + 1 else 0

/-- Serve so many matches of a timer that is left alone. -/
def takeMatches (w : Wire) : Nat → Wire
  | 0 => w
  | count + 1 =>
    let last := w.due + count * max w.interval 1
    { w with
      now := last
      timerStart := last
      matchesServed := w.matchesServed + UInt32.ofNat (count + 1) }

/-- Let time pass to `stop` with nothing left to serve. -/
def settle (w : Wire) (stop : Nat) : Wire := { w with now := stop }

/-- **A match is served later than the last restart,** whatever the interval. -/
theorem timerStart_lt_due (w : Wire) : w.timerStart < w.due := by
  simp only [due, target]
  omega

end Wire

end SerialLink
