import Breadboard.ValueType.Basic
/-!
# Widening between value types

Which value types may flow into a port of a given type. The relation is directed: a
`byte` may feed an `int` port, but an `int` may not feed a `byte` port. `any` is
compatible with everything, in both directions.

Main statement: `isCompatible_any_left` and `isCompatible_any_right`, and every type
accepts itself (`isCompatible_refl`).
-/

namespace Breadboard.ValueType

/-- The source types a port of type `target` accepts besides `any`, listed from the
target's own type outward. -/
def acceptedSources : ValueType → List ValueType
  | void => []
  | int => [int, byte, uint8, bool, boolean, char]
  | long => [long, int, byte, uint8, uint16, bool, boolean, char]
  | float => [float, int, long, byte, uint8, uint16, uint32]
  | double => [double, float, int, long, byte, uint8, uint16, uint32]
  | bool => [bool, boolean, int, byte]
  | boolean => [boolean, bool, int, byte]
  | byte => [byte, uint8, char]
  | char => [char, byte, uint8]
  | string => [string, charPtr]
  | uint8 => [uint8, byte, char]
  | uint16 => [uint16, int]
  | uint32 => [uint32, long, unsignedLong]
  | unsignedLong => [unsignedLong, uint32, long]
  | intPtr => [intPtr]
  | charPtr => [charPtr, string]
  | any => all

/-- Whether a value of type `source` may be connected into a port of type `target`. -/
def isCompatible (source target : ValueType) : Bool :=
  source == any || target == any || (acceptedSources target).contains source

/-- Whether a port of this type accepts a value of type `source`. -/
def accepts (target source : ValueType) : Bool :=
  isCompatible source target

theorem isCompatible_any_left (t : ValueType) : isCompatible any t = true := by
  cases t <;> rfl

theorem isCompatible_any_right (t : ValueType) : isCompatible t any = true := by
  cases t <;> rfl

theorem isCompatible_refl (t : ValueType) (h : t ≠ void) : isCompatible t t = true := by
  cases t with
  | void => exact absurd rfl h
  | _ => rfl

end Breadboard.ValueType
