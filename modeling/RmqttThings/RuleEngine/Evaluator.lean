import RmqttThings.Json

namespace RmqttThings.RuleEngine

inductive TriggerType where
  | property
  | event
  | deviceOnline
  | deviceOffline
  deriving DecidableEq

namespace TriggerType

def fromStr : String → Option TriggerType
  | "property" => some .property
  | "event" => some .event
  | "device_online" => some .deviceOnline
  | "device_offline" => some .deviceOffline
  | _ => none

def asStr : TriggerType → String
  | .property => "property"
  | .event => "event"
  | .deviceOnline => "device_online"
  | .deviceOffline => "device_offline"

theorem fromStr_eq_some_iff (text : String) (kind : TriggerType) :
    fromStr text = some kind ↔ text = kind.asStr := by
  constructor
  · intro h
    unfold fromStr at h
    split at h <;> cases kind <;> simp_all [asStr]
  · rintro rfl
    cases kind <;> rfl

end TriggerType

def supportedOperators : List String :=
  [">", ">=", "<", "<=", "==", "!=", "between", "contains", "always"]

def isSupportedOperator (op : String) : Bool := supportedOperators.contains op

namespace RuleEvaluator

def jsonToF64 : Json → Option Float
  | .number value => some value.asF64
  | .string text => parseF64 text
  | _ => none

def compareF64 (a b : Json) (op : Float → Float → Bool) : Option Bool := do
  let left ← jsonToF64 a
  let right ← jsonToF64 b
  return op left right

def compareStr (a b : Json) (op : String → String → Bool) : Option Bool := do
  let left ← a.asStr
  let right ← b.asStr
  return op left right

-- `f64::EPSILON` is 2 to the power of -52.
def f64Epsilon : Float := 1.0 / 4503599627370496.0

def compareOrdered (condition actual : Json) (numOp : Float → Float → Bool)
    (strOp : String → String → Bool) : Bool :=
  match condition.get "value" with
  | none => false
  | some threshold =>
      ((compareF64 actual threshold numOp).or (compareStr actual threshold strOp)).getD false

-- `==` and `!=` try numbers, then strings, then the JSON values themselves.
def compareEqual (condition actual : Json) (numOp : Float → Float → Bool)
    (strOp : String → String → Bool) (jsonOp : Json → Json → Bool) : Bool :=
  match condition.get "value" with
  | none => false
  | some expected =>
      ((compareF64 actual expected numOp).or (compareStr actual expected strOp)).getD
        (jsonOp actual expected)

def between (condition actual : Json) : Bool :=
  match (condition.get "min").bind jsonToF64, (condition.get "max").bind jsonToF64,
      jsonToF64 actual with
  | some low, some high, some value => decide (value ≥ low) && decide (value ≤ high)
  | _, _, _ => false

def contains (condition actual : Json) : Bool :=
  match (condition.get "value").bind Json.asStr, actual.asStr with
  | some pattern, some text => decide (pattern.toList <:+: text.toList)
  | _, _ => false

def evaluate (condition actual : Json) : Bool :=
  match (condition.get "operator").bind Json.asStr with
  | none => false
  | some ">" =>
      compareOrdered condition actual (fun a b => decide (a > b)) (fun a b => decide (b < a))
  | some ">=" =>
      compareOrdered condition actual (fun a b => decide (a ≥ b)) (fun a b => !decide (a < b))
  | some "<" =>
      compareOrdered condition actual (fun a b => decide (a < b)) (fun a b => decide (a < b))
  | some "<=" =>
      compareOrdered condition actual (fun a b => decide (a ≤ b)) (fun a b => !decide (b < a))
  | some "==" => compareEqual condition actual (fun a b => decide ((a - b).abs < f64Epsilon))
      (fun a b => a == b) (fun a b => a == b)
  | some "!=" => compareEqual condition actual (fun a b => decide ((a - b).abs ≥ f64Epsilon))
      (fun a b => a != b) (fun a b => !(a == b))
  | some "between" => between condition actual
  | some "contains" => contains condition actual
  | some "always" => true
  | some _ => false

example : evaluate (.object [("operator", .string ">"), ("value", .number (.posInt 50))])
    (.string "60") = true := by decide +kernel
example : evaluate (.object [("operator", .string "=="), ("value", .number (.posInt 50))])
    (.number (.float 50.0)) = true := by decide +kernel
example : evaluate (.object [("value", .number (.posInt 50))]) (.number (.posInt 60)) = false := by
  decide +kernel

end RuleEvaluator

end RmqttThings.RuleEngine
