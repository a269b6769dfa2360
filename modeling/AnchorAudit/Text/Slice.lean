/-! Parts of a list between signed positions. A negative position counts from the end. -/
namespace AnchorAudit.Text

/-- A signed position in a list of the given length, moved to its nearest end when outside. -/
def clampPosition (length : Nat) (i : Int) : Nat :=
  if i < 0 then (i + length).toNat else min i.toNat length

/-- The elements from one signed position up to, and without, another. -/
def slice {α : Type} (xs : List α) (start stop : Int) : List α :=
  (xs.take (clampPosition xs.length stop)).drop (clampPosition xs.length start)

/-- Why there is no element at a signed position. -/
inductive PositionError where
  | outside
  /-- The position does not fit into a machine word. -/
  | outOfReach
  deriving DecidableEq

def PositionError.message : PositionError → String
  | .outside => "list index out of range"
  | .outOfReach => "cannot fit 'int' into an index-sized integer"

/-- The positions of machine words lie below this number and not below its negative. -/
def positionBound : Int := 0x8000000000000000

/-- The element at a signed position, if the position is inside the list. -/
def signedGet {α : Type} (xs : List α) (i : Int) : Except PositionError α :=
  if i < -positionBound ∨ positionBound ≤ i then .error .outOfReach
  else
    let j := if i < 0 then i + xs.length else i
    match (if 0 ≤ j then xs[j.toNat]? else none) with
    | some x => .ok x
    | none => .error .outside

end AnchorAudit.Text
