import AlarmPanel.Client.Basic

/-!
# Slots for answers

Whoever waits for the answer to a status request shares a slot with all others who wait for it. The slot is
on the table of open requests from the first request until the answer comes; it stays there when those who
wait for it give up.
-/

namespace AlarmPanel

namespace Client

/-- The slot that the next answer to a request fills. -/
def openSlot? (code : UInt8) (c : Client) : Option Nat := c.openSlots.lookup code

/-- Fills the slot that is open for the update's request, and takes it off the table. -/
def fillSlot (update : StatusUpdate) (c : Client) : Client :=
  let code := update.request.code
  match c.openSlot? code with
  | some slot =>
    { c with
      slots := c.slots.set slot (some update)
      openSlots := c.openSlots.filter (·.1 ≠ code) }
  | none => c

/-- A slot for the next answer to a request: the open one, while it is empty, else a new one. -/
def shareSlot (code : UInt8) (c : Client) : Client × Nat :=
  let slot := c.slots.length
  let renewed :=
    { c with
      slots := c.slots ++ [none]
      openSlots := (code, slot) :: c.openSlots.filter (·.1 ≠ code) }
  match c.openSlot? code with
  | some shared => if c.slots[shared]? = some none then (c, shared) else (renewed, slot)
  | none => (renewed, slot)

end Client

end AlarmPanel
