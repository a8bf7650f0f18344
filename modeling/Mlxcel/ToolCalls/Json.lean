import Mathlib.Algebra.Ring.Int.Defs
import Mlxcel.Lib.Str

/-!
# JSON values of tool calls

`serde_json` is not part of the repository: its values are modelled as a data type, its parser and
its printer are the parameters of a `Serde`. Objects keep the order of insertion (the crate is
built with `preserve_order`), and numbers are whatever the crate makes of an `i64` or an `f64`.

The two coercions of the XML-like formats stand here too: `coerceMinimaxParam` reads a scalar
parameter, and `insertField` adds a field to an object under construction.
-/

namespace Mlxcel.ToolCalls

open Str

/-- `serde_json::Value`. -/
inductive Value (ν : Type)
  | null
  | bool (b : Bool)
  | number (n : ν)
  | string (s : List Char)
  | array (items : List (Value ν))
  | object (fields : List (List Char × Value ν))

/-- An object, or an array that has one among its items. -/
def Value.HasObject {ν : Type} : Value ν → Prop
  | .object _ => True
  | .array items => ∃ fields, .object fields ∈ items
  | _ => False

/-- The functions of `serde_json` and of the float parser that the code calls. -/
structure Serde (ν : Type) where
  /-- `serde_json::from_str::<Value>`, `none` on a parse error. -/
  fromStr : List Char → Option (Value ν)
  /-- `serde_json::to_string`. -/
  toStr : Value ν → List Char
  /-- `Number::from(i64)`. -/
  ofI64 : ℤ → ν
  /-- `str::parse::<f64>` followed by `Number::from_f64`. -/
  parseF64 : List Char → Option ν
  /-- An object is written with a brace. -/
  brace_mem : ∀ {s v}, fromStr s = some v → v.HasObject → '{' ∈ s

variable {ν : Type}

namespace Value

/-- `Value::get` with a string key. -/
def get (v : Value ν) (key : List Char) : Option (Value ν) :=
  match v with
  | .object fields => (fields.find? fun field => field.1 = key).map (·.2)
  | _ => none

def asStr : Value ν → Option (List Char)
  | .string s => some s
  | _ => none

end Value

/-- `Map::insert`: a key that is there keeps its place. -/
def insertField (fields : List (List Char × Value ν)) (key : List Char) (v : Value ν) :
    List (List Char × Value ν) :=
  if fields.any fun field => field.1 = key then
    fields.map fun field => if field.1 = key then (key, v) else field
  else fields ++ [(key, v)]

/-- The object built by inserting pairs in turn. -/
def objectOf (pairs : List (List Char × Value ν)) : Value ν :=
  .object (pairs.foldl (fun fields pair => insertField fields pair.1 pair.2) [])

namespace Serde

variable (serde : Serde ν)

/-- `serde_json::from_str::<Vec<Value>>`. -/
def fromStrArray (s : List Char) : Option (List (Value ν)) :=
  match serde.fromStr s with
  | some (.array items) => some items
  | _ => none

/-- An argument value as text: a string as it is, anything else printed. -/
def argumentsText (v : Value ν) : List Char :=
  match v with
  | .string s => s
  | v => serde.toStr v

end Serde

/-- The value of a run of decimal digits. -/
def digitsValue (s : List Char) : Option ℕ :=
  if s ≠ [] ∧ s.all Char.isDigit then
    some (s.foldl (fun n a => 10 * n + (a.toNat - '0'.toNat)) 0)
  else none

/-- `str::parse::<i64>`: an optional sign and decimal digits, within range. -/
def parseI64 (s : List Char) : Option ℤ :=
  let value : Option ℤ :=
    match s with
    | '-' :: digits => (digitsValue digits).map fun n => -(n : ℤ)
    | '+' :: digits => (digitsValue digits).map fun n => (n : ℤ)
    | digits => (digitsValue digits).map fun n => (n : ℤ)
  value.filter fun n => decide (-2 ^ 63 ≤ n ∧ n < 2 ^ 63)

/-- `coerce_minimax_param`: null, integer, float, boolean, JSON object or array, string. The words
are compared in lower case; no character outside ASCII has one of them as its lower case. -/
def coerceMinimaxParam (serde : Serde ν) (value : List Char) : Value ν :=
  let lower := value.map Char.toLower
  if lower = "null".toList ∨ lower = "none".toList ∨ lower = "nil".toList then .null
  else
    match parseI64 value with
    | some i => .number (serde.ofI64 i)
    | none =>
      match serde.parseF64 value with
      | some n => .number n
      | none =>
        if lower = "true".toList ∨ lower = "1".toList ∨ lower = "yes".toList ∨
            lower = "on".toList then .bool true
        else if lower = "false".toList ∨ lower = "0".toList ∨ lower = "no".toList ∨
            lower = "off".toList then .bool false
        else if value.head? = some '{' ∨ value.head? = some '[' then
          (serde.fromStr value).getD (.string value)
        else .string value

end Mlxcel.ToolCalls
