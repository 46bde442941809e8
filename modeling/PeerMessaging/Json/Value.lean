import PeerMessaging.Number.Binary64

/-!
# JSON values

A JSON value (`JsonValue`) with integers and floating point numbers told apart, and objects with
their members in the order of the keys, each key once (`JsonValue.insert`).
-/

namespace PeerMessaging

/-- A JSON value. -/
inductive JsonValue
  | null
  | bool (value : Bool)
  /-- A number written without point and exponent that fits 64 bits, signed or unsigned. -/
  | integer (value : Int)
  /-- Every other number. -/
  | real (value : Binary64)
  | text (value : String)
  | array (elements : List JsonValue)
  | object (members : List (String × JsonValue))

namespace JsonValue

/-- Puts a member into a list ordered by key; the last value of a key stays. -/
def insert (key : String) (value : JsonValue) :
    List (String × JsonValue) → List (String × JsonValue)
  | [] => [(key, value)]
  | (k, v) :: rest =>
    if key < k then (key, value) :: (k, v) :: rest
    else if key = k then (key, value) :: rest
    else (k, v) :: insert key value rest

end JsonValue

end PeerMessaging
