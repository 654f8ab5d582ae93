/-!
# Sets of flags in a sixteen-bit word

A status word holds one bit per condition. `Flag` says which conditions a kind of word declares and at
which bit each stands; `FlagSet` is the word itself, which may also carry undeclared bits. Reading a word
from the panel drops those (`FlagSet.declared`).
-/

namespace AlarmPanel

/-- A kind of flags: the conditions in the order in which the panel's manual lists them, the bit of
each in a status word, and its label. -/
class Flag (F : Type) where
  all : List F
  mask : F → UInt16
  label : F → String

/-- A status word whose bits stand for flags of kind `F`. -/
structure FlagSet (F : Type) where
  bits : UInt16
  deriving DecidableEq, Repr

namespace FlagSet

variable {F : Type} [Flag F]

/-- The word without any flag. -/
def empty : FlagSet F := ⟨0⟩

/-- The word that has exactly the given flags. -/
def ofList (flags : List F) : FlagSet F := ⟨flags.foldl (fun w f => w ||| Flag.mask f) 0⟩

/-- All bits that stand for a flag. -/
def allBits (F : Type) [Flag F] : UInt16 := (ofList (Flag.all : List F)).bits

/-- The word without its undeclared bits. -/
def declared (bits : UInt16) : FlagSet F := ⟨bits &&& allBits F⟩

/-- Whether the flag is set. -/
def has (s : FlagSet F) (f : F) : Bool := s.bits &&& Flag.mask f == Flag.mask f

/-- The word with the flag set or cleared. -/
def assign (s : FlagSet F) (f : F) (on : Bool) : FlagSet F :=
  if on then ⟨s.bits ||| Flag.mask f⟩ else ⟨s.bits &&& ~~~ Flag.mask f⟩

/-- The flags that are set, in the order of their declaration. -/
def toList (s : FlagSet F) : List F := (Flag.all : List F).filter s.has

/-- The labels of the flags that are set. -/
def labels (s : FlagSet F) : List String := s.toList.map Flag.label

end FlagSet

end AlarmPanel
