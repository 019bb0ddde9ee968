/-!
# JSON values

A JSON value as the editor's exports carry it. A number keeps the kind it was read as: a
whole number that fits in 64 unsigned bits, a negative whole number that fits in 64
signed bits, or otherwise a double. An object lists its members in order; an object read
from text keeps them sorted by key, bytewise, with one member per key, a later member
replacing an earlier one of the same key (`insertMember`).
-/

namespace Breadboard.Json

/-- A JSON number as read. -/
inductive Number where
  /-- A whole number below `2^64`. -/
  | nat (n : Nat)
  /-- A negative whole number not below `-2^63`. -/
  | neg (n : Int)
  /-- Any other number, as a double. -/
  | float (x : Float)

/-- A JSON value. -/
inductive Value where
  | null
  | bool (b : Bool)
  | num (n : Number)
  | str (s : String)
  | arr (items : List Value)
  /-- Members in order. -/
  | obj (members : List (String × Value))

/-- Inserts a member into members sorted by key, replacing a member with the same key. -/
def insertMember (k : String) (v : Value) : List (String × Value) → List (String × Value)
  | [] => [(k, v)]
  | (k', v') :: rest =>
    if k < k' then (k, v) :: (k', v') :: rest
    else if k = k' then (k, v) :: rest
    else (k', v') :: insertMember k v rest

end Breadboard.Json
