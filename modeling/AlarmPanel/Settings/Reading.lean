/-!
# Reading settings

A settings file gives names with values of a few simple kinds. A name that is absent keeps its default, an
unknown name is left out of account, and a known name needs a value of its own kind and within its range.
-/

namespace AlarmPanel

/-- A value in a settings file. Only the kinds that some setting can have are told apart. -/
inductive SettingValue
  | flag (value : Bool)
  | number (value : Nat)
  | text (value : String)
  | other
  deriving DecidableEq, Repr

namespace SettingValue

def flag? : SettingValue → Option Bool
  | .flag value => some value
  | _ => none

/-- A number below the bound. -/
def below? (bound : Nat) : SettingValue → Option Nat
  | .number value => if value < bound then some value else none
  | _ => none

def word64? (v : SettingValue) : Option UInt64 := (v.below? UInt64.size).map UInt64.ofNat

def word32? (v : SettingValue) : Option UInt32 := (v.below? UInt32.size).map UInt32.ofNat

def byte? (v : SettingValue) : Option UInt8 := (v.below? UInt8.size).map UInt8.ofNat

def text? : SettingValue → Option String
  | .text value => some value
  | _ => none

end SettingValue

end AlarmPanel
