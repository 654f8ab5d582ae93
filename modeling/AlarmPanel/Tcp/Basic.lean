import AlarmPanel.Error
import AlarmPanel.Text.Lines

/-!
# Links over TCP

A link to an address is read line by line. It goes down when the peer ends its stream, and when it is
closed from this end; a read that is under way then ends without a line. What the peer sends before it ends
its stream can still be read, and a last line need not be ended.
-/

namespace AlarmPanel

/-- Where a panel's bridge listens. -/
structure TcpAddress where
  host : String
  portNumber : UInt16
  deriving DecidableEq, Repr

namespace TcpAddress

def usualPortNumber : UInt16 := 2401

/-- The address of a bridge that listens where bridges usually do. -/
def withDefaultPort (host : String) : TcpAddress := ⟨host, usualPortNumber⟩

end TcpAddress

/-- What has arrived from the peer. -/
structure Inflow where
  bytes : List UInt8
  /-- Whether the peer has ended its stream. -/
  ended : Bool
  deriving DecidableEq, Repr

structure TcpLink where
  connected : Bool
  inflow : Option Inflow
  writable : Bool
  deriving DecidableEq, Repr

namespace TcpLink

/-- A link that has not been connected. -/
def new : TcpLink := { connected := false, inflow := none, writable := false }

/-- A peer has accepted the link. -/
def accepted : TcpLink := { connected := true, inflow := some ⟨[], false⟩, writable := true }

/-- Bytes arrive from the peer. -/
def arrive (bytes : List UInt8) (l : TcpLink) : TcpLink :=
  { l with inflow := l.inflow.map fun flow => { flow with bytes := flow.bytes ++ bytes } }

/-- The peer ends its stream. -/
def endInflow (l : TcpLink) : TcpLink :=
  { l with inflow := l.inflow.map fun flow => { flow with ended := true } }

/-- The bytes up to the first line feed, with it, and those after it, if there is one. -/
def firstLine? : List UInt8 → Option (List UInt8 × List UInt8)
  | [] => none
  | b :: bs =>
    if b = Text.lineFeed then some ([b], bs)
    else (firstLine? bs).map fun (line, rest) => (b :: line, rest)

/-- The end of a read: a line without its end, or no line. While neither a line nor the end of the stream
has arrived, the read waits. -/
def read? (l : TcpLink) : Option (TcpLink × Option (List UInt8)) :=
  if !l.connected then some (l, none)
  else
    match l.inflow with
    | none => some (l, none)
    | some flow =>
      match firstLine? flow.bytes with
      | some (line, rest) =>
        some ({ l with inflow := some { flow with bytes := rest } }, some (Text.dropLineEnd line))
      | none =>
        if !flow.ended then none
        else if flow.bytes.isEmpty then some ({ l with inflow := none, connected := false }, none)
        else
          some ({ l with inflow := some { flow with bytes := [] } },
            some (Text.dropLineEnd flow.bytes))

/-- Whether bytes can be written. -/
def write (l : TcpLink) : Except Error Unit :=
  if l.writable then .ok () else .error (.io "not connected")

/-- Closes the link from this end. -/
def close (_ : TcpLink) : TcpLink := new

/-- The two parts of a first line are the whole of the bytes. -/
theorem append_of_firstLine? {bytes line rest : List UInt8}
    (h : firstLine? bytes = some (line, rest)) : line ++ rest = bytes := by
  induction bytes generalizing line with
  | nil => simp [firstLine?] at h
  | cons b bs ih =>
    unfold firstLine? at h
    split at h
    · simp only [Option.some.injEq, Prod.mk.injEq] at h
      obtain ⟨rfl, rfl⟩ := h
      rfl
    · obtain ⟨⟨l, r⟩, hl, h⟩ := Option.map_eq_some_iff.1 h
      simp only [Prod.mk.injEq] at h
      obtain ⟨rfl, rfl⟩ := h
      simp [ih hl]

end TcpLink

end AlarmPanel
