import Mathlib.Data.List.Induction
import Mathlib.Data.List.Infix
import Mathlib.Algebra.Group.Nat.Defs

namespace RmqttThings

-- `serde_json::Number`. A float is always finite there.
inductive Number where
  | posInt (value : UInt64)
  | negInt (value : Int64)
  | float (value : Float)

namespace Number

def asF64 : Number → Float
  | posInt value => value.toFloat
  | negInt value => Float.ofInt value.toInt
  | float value => value

def asI64 : Number → Option Int64
  | posInt value => if value.toNat < 2 ^ 63 then some value.toInt64 else none
  | negInt value => some value
  | float _ => none

-- Numbers of different kinds are never equal, whatever they denote.
def beq : Number → Number → Bool
  | posInt a, posInt b => a == b
  | negInt a, negInt b => a == b
  | float a, float b => a == b
  | _, _ => false

instance : BEq Number := ⟨beq⟩

end Number

-- `serde_json::Value`. An object lists its members in key order, each key once,
-- as the `BTreeMap` behind `serde_json::Map` does.
inductive Json where
  | null
  | bool (value : Bool)
  | number (value : Number)
  | string (value : String)
  | array (items : List Json)
  | object (fields : List (String × Json))

namespace Json

mutual

def beq : Json → Json → Bool
  | null, null => true
  | bool a, bool b => a == b
  | number a, number b => a == b
  | string a, string b => a == b
  | array a, array b => beqItems a b
  | object a, object b => beqFields a b
  | _, _ => false

def beqItems : List Json → List Json → Bool
  | [], [] => true
  | a :: as, b :: bs => beq a b && beqItems as bs
  | _, _ => false

def beqFields : List (String × Json) → List (String × Json) → Bool
  | [], [] => true
  | (key, a) :: as, (other, b) :: bs => key == other && beq a b && beqFields as bs
  | _, _ => false

end

instance : BEq Json := ⟨beq⟩

-- `Value::get` with a string index: only an object has members.
def get (value : Json) (key : String) : Option Json :=
  match value with
  | object fields => fields.lookup key
  | _ => none

def asStr : Json → Option String
  | string value => some value
  | _ => none

def asArray : Json → Option (List Json)
  | array items => some items
  | _ => none

def asObject : Json → Option (List (String × Json))
  | object fields => some fields
  | _ => none

end Json

-- `str::parse::<f64>`: an optional sign, then `inf`, `infinity` or `nan` in any
-- case, or decimal digits with an optional point and exponent, and nothing else.
namespace ParseF64

def digits (chars : List Char) : Nat :=
  chars.foldl (fun value char => 10 * value + (char.toNat - '0'.toNat)) 0

def sign : List Char → Bool × List Char
  | '-' :: rest => (true, rest)
  | '+' :: rest => (false, rest)
  | rest => (false, rest)

def exponent : List Char → Option Int
  | [] => some 0
  | char :: rest =>
      if char = 'e' ∨ char = 'E' then
        let (negative, rest) := sign rest
        let (power, tail) := rest.span Char.isDigit
        if power.isEmpty ∨ ¬tail.isEmpty then none
        else some (if negative then -(digits power : Int) else digits power)
      else none

def number (chars : List Char) : Option Float :=
  let (whole, rest) := chars.span Char.isDigit
  let (fraction, rest) := match rest with
    | '.' :: rest => rest.span Char.isDigit
    | rest => ([], rest)
  if whole.isEmpty ∧ fraction.isEmpty then none
  else (exponent rest).map fun power =>
    let scale : Int := power - fraction.length
    Float.ofScientific (digits (whole ++ fraction)) (decide (scale < 0)) scale.natAbs

end ParseF64

def parseF64 (text : String) : Option Float :=
  let (negative, rest) := ParseF64.sign text.toList
  let magnitude :=
    match String.ofList (rest.map Char.toLower) with
    | "inf" | "infinity" => some (1.0 / 0.0)
    | "nan" => some (0.0 / 0.0)
    | _ => ParseF64.number rest
  magnitude.map fun value => if negative then -value else value

example : (parseF64 "-1.5e1").map (· == -15.0) = some true := by decide +kernel
example : (parseF64 ".").isNone := by decide +kernel

end RmqttThings
