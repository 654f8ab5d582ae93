/-!
# Durations

A duration counts nanoseconds, and its whole seconds have to fit in 64 bits. Sums and products that do
not fit have no result, so whoever forms one has to say what is to happen then.

Time passes in whole milliseconds. A pause lasts thirty years at most, however long it was to be.
-/

namespace AlarmPanel

/-- A span of time of less than 2⁶⁴ seconds. -/
structure Duration where
  nanos : Nat
  fits : nanos < UInt64.size * 1000000000
  deriving DecidableEq

/-- The longest pause: thirty years, in milliseconds. -/
def longestPause : Nat := 30 * 365 * 86400 * 1000

namespace Duration

/-- The duration of a number of nanoseconds, if they fit. -/
def ofNanos? (nanos : Nat) : Option Duration :=
  if h : nanos < UInt64.size * 1000000000 then some ⟨nanos, h⟩ else none

def ofMillis (ms : UInt64) : Duration :=
  ⟨ms.toNat * 1000000, by have := ms.toNat_lt_size; omega⟩

def ofSeconds (s : UInt64) : Duration :=
  ⟨s.toNat * 1000000000, by have := s.toNat_lt_size; omega⟩

/-- The whole milliseconds of the duration. -/
def toMillis (d : Duration) : Nat := d.nanos / 1000000

/-- The whole seconds of the duration. -/
def toSeconds (d : Duration) : Nat := d.nanos / 1000000000

/-- The fewest whole milliseconds that are no shorter than the duration. -/
def ceilMillis (d : Duration) : Nat := (d.nanos + 999999) / 1000000

/-- How many milliseconds a pause for this duration lasts. -/
def pauseMillis (d : Duration) : Nat := Nat.min d.ceilMillis longestPause

def add? (a b : Duration) : Option Duration := ofNanos? (a.nanos + b.nanos)

def scale? (d : Duration) (k : Nat) : Option Duration := ofNanos? (d.nanos * k)

def min (a b : Duration) : Duration := if a.nanos ≤ b.nanos then a else b

/-- A pause that is to end within thirty years lasts as long as it was to be. -/
theorem pauseMillis_eq_ceilMillis {d : Duration} (h : d.ceilMillis ≤ longestPause) :
    d.pauseMillis = d.ceilMillis :=
  Nat.min_eq_left h

theorem ceilMillis_ofMillis (ms : UInt64) : (ofMillis ms).ceilMillis = ms.toNat := by
  simp only [ceilMillis, ofMillis]
  omega

end Duration

end AlarmPanel
