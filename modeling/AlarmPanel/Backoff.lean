import AlarmPanel.Duration

/-!
# Backoff

The delays between attempts that fail one after the other: each is the one before it times a factor, up to
a longest delay. The power of the factor is kept in 32 bits and the delay has to be a duration; where
either does not fit, the longest delay is taken.
-/

namespace AlarmPanel

/-- The power of a 32-bit number, if it fits in 32 bits. -/
def powerInWord? (base exponent : Nat) : Option Nat :=
  if 2 ≤ base ∧ 32 ≤ exponent then none
  else if base.pow exponent < UInt32.size then some (base.pow exponent)
  else none

/-- The delays after attempts that fail, and how many have failed since the last success. -/
structure Backoff where
  shortest : Duration
  longest : Duration
  factor : UInt32
  attempt : UInt32
  deriving DecidableEq

namespace Backoff

/-- No attempt has failed yet. A factor of zero counts as one. -/
def new (shortest longest : Duration) (factor : UInt32) : Backoff :=
  { shortest, longest, factor := if factor = 0 then 1 else factor, attempt := 0 }

/-- The delay after the current attempt. -/
def delay (b : Backoff) : Duration :=
  match (powerInWord? b.factor.toNat b.attempt.toNat).bind b.shortest.scale? with
  | some d => d.min b.longest
  | none => b.longest

/-- One more attempt has failed. The count stops at the largest 32-bit number. -/
def advance (b : Backoff) : Backoff :=
  { b with attempt := if b.attempt = 0xffffffff then b.attempt else b.attempt + 1 }

/-- An attempt has succeeded. -/
def reset (b : Backoff) : Backoff := { b with attempt := 0 }

/-- The delays after so many failures in a row. -/
def delays : Nat → Backoff → List Duration
  | 0, _ => []
  | n + 1, b => b.delay :: delays n b.advance

end Backoff

end AlarmPanel
