import SymbolicQuery.Json
import SymbolicQuery.Value

/-! Values and documents. A whole number that does not fit 64 signed bits becomes a floating-point
one; decimals leave as floating-point numbers, and groupings as objects of a key and elements. -/
namespace SymbolicQuery.Value

mutual

def ofJson : Json → Value
  | .null => .null
  | .bool b => .boolean b
  | .whole n => match int64? n with
    | some i => .integer i
    | none => .float (Binary64.ofInt n)
  | .real x => .float x
  | .string s => .string s
  | .array items => .array (ofJsonItems items)
  | .object fields => .object (ofJsonFields fields)

def ofJsonItems : List Json → List Value
  | [] => []
  | j :: rest => ofJson j :: ofJsonItems rest

def ofJsonFields : List (String × Json) → List (String × Value)
  | [] => []
  | (name, j) :: rest => (name, ofJson j) :: ofJsonFields rest

end

def realToJson (x : Binary64) : Json := if x.isFinite then .real x else .null

mutual

def toJson : Value → Json
  | .null => .null
  | .boolean b => .bool b
  | .integer n => .whole n.toInt
  | .float x => realToJson x
  | .decimal d => realToJson d.toBinary
  | .string s => .string s
  | .array items => .array (toJsonItems items)
  | .object members => .object (toJsonMembers members)
  | .grouping key elements => .object [("key", key.toJson), ("elements", .array (toJsonItems elements))]

def toJsonItems : List Value → List Json
  | [] => []
  | v :: rest => v.toJson :: toJsonItems rest

def toJsonMembers : List (String × Value) → List (String × Json)
  | [] => []
  | (name, v) :: rest => (name, v.toJson) :: toJsonMembers rest

end

end SymbolicQuery.Value
