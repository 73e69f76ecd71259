/-!
# Spans of time in words

A number of seconds is written in days, hours, minutes and seconds. Units before the first that is
not zero are left out; the seconds are always there.
-/

namespace PlotMiner.Text

structure Elapsed where
  days : Nat
  hours : Nat
  minutes : Nat
  seconds : Nat
deriving DecidableEq

namespace Elapsed

def ofSeconds (n : Nat) : Elapsed where
  days := n / 86400
  hours := n % 86400 / 3600
  minutes := n % 3600 / 60
  seconds := n % 60

def total (e : Elapsed) : Nat := e.days * 86400 + e.hours * 3600 + e.minutes * 60 + e.seconds

def units (e : Elapsed) : List (Nat × Char) :=
  [(e.days, 'd'), (e.hours, 'h'), (e.minutes, 'm'), (e.seconds, 's')]

/-- Leaves out the leading units that are zero, except the last one. -/
def shown : List (Nat × Char) → List (Nat × Char)
  | (n, mark) :: u :: rest => if n = 0 then shown (u :: rest) else (n, mark) :: u :: rest
  | us => us

def render (e : Elapsed) : String :=
  " ".intercalate ((shown e.units).map fun (n, mark) => s!"{n}{mark}")

end Elapsed

end PlotMiner.Text
