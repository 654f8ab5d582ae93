/-!
# Bounded broadcast

Whoever listens to a broadcast may fall behind by a fixed number of messages; of those sent since it last
listened it then gets only the newest, and learns how many it missed.
-/

namespace AlarmPanel

/-- What a listener gets: how many messages it missed, and those that were kept for it. -/
structure Heard (α : Type) where
  missed : Nat
  messages : List α
  deriving DecidableEq, Repr

/-- What a listener gets of the messages sent since it last listened. -/
def hear {α : Type} (capacity : Nat) (sent : List α) : Heard α :=
  ⟨sent.length - capacity, sent.drop (sent.length - capacity)⟩

/-- The least power of two that is not below a number. -/
def powerOfTwoAbove (n : Nat) : Nat := if n ≤ 1 then 1 else 1 <<< (Nat.log2 (n - 1) + 1)

/-- Nothing that was sent is lost without being counted. -/
theorem missed_add_length_messages {α : Type} (capacity : Nat) (sent : List α) :
    (hear capacity sent).missed + (hear capacity sent).messages.length = sent.length := by
  simp only [hear, List.length_drop]
  omega

end AlarmPanel
