import AlarmPanel.Frame.Decode
import AlarmPanel.Panel.Basic
import AlarmPanel.Text.Blank

/-!
# Commands to the simulated panel

Users arm with or without their code, disarm with it, ask for status and switch outputs. Any other text is
left out of account. A status request forms its answer from the state as it stands and sends it afterwards,
so what happens in between is not in it.
-/

namespace AlarmPanel

/-- What a user can ask of the panel. -/
inductive UserCommand
  | arm (mode : ArmingMode)
  | disarm
  | askZones (bank : ZoneBank)
  | askArming
  | askVersion
  | askAuxOutputs
  | setAuxOutput (number : UInt8) (on : Bool)
  deriving DecidableEq, Repr

namespace UserCommand

/-- A command that switches an output: its digit twice, and a star for on or a hash for off. -/
def switch? : List Char → Option UserCommand
  | [a, b, action] =>
    if a = b then do
      let number ← Text.decValue? a
      match action with
      | '*' => some (.setAuxOutput (UInt8.ofNat number) true)
      | '#' => some (.setAuxOutput (UInt8.ofNat number) false)
      | _ => none
    else none
  | _ => none

/-- The command that a text gives, where `code` is the user's code. The commands without a code come
before those with one. -/
def parse? (code text : String) : Option UserCommand :=
  if text = "AE" then some (.arm .away)
  else if text = "HE" then some (.arm .home)
  else if text = "A" ++ code ++ "E" then some (.arm .away)
  else if text = "H" ++ code ++ "E" then some (.arm .home)
  else if text = code ++ "E" then some .disarm
  else if text = "S00" then some (.askZones .lower)
  else if text = "S20" then some (.askZones .upper)
  else if text = "S14" then some .askArming
  else if text = "S17" then some .askVersion
  else if text = "S18" then some .askAuxOutputs
  else switch? text.toList

end UserCommand

namespace SimulatedPanel

/-- Carries a command out up to its answer, which is formed and not yet sent. -/
def obey (command : UserCommand) (p : SimulatedPanel) : SimulatedPanel :=
  let reply (update : StatusUpdate) : SimulatedPanel :=
    { p with replies := p.replies ++ [update] }
  match command with
  | .arm mode => p.arm mode
  | .disarm => p.disarm
  | .askZones bank => reply (.zone bank .inputUnsealed (p.zoneWord bank))
  | .askArming => reply (.arming (armingStatus p.state))
  | .askVersion => reply p.version
  | .askAuxOutputs => reply (.auxOutputs p.auxOutputs)
  | .setAuxOutput number on =>
    match p.setAuxOutput number on with
    | .ok q => q
    | .error _ => p

/-- Takes in the text of a command, up to its answer. -/
def accept (text : String) (p : SimulatedPanel) : SimulatedPanel :=
  match UserCommand.parse? p.settings.userCode text with
  | some command => p.obey command
  | none => p

/-- Takes in the text of a command and sends the answer at once. -/
def handleCommand (text : String) (p : SimulatedPanel) : SimulatedPanel :=
  (p.accept text).sendReplies

/-- The text of the command in a line that a client sends: the payload of a request frame. -/
def commandOfLine? (line : List Char) : Option String :=
  match Frame.decode (String.ofList (Text.trim line)) with
  | .ok frame =>
    if frame.command = .userInterface ∧ ¬frame.isResponse then some frame.data else none
  | .error _ => none

/-- Takes in a line that a client sends; one that carries no command is left out of account. -/
def handleLine (line : List Char) (p : SimulatedPanel) : SimulatedPanel :=
  match commandOfLine? line with
  | some text => p.handleCommand text
  | none => p

end SimulatedPanel

end AlarmPanel
