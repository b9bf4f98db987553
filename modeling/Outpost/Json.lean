import Outpost.Number.Decimal
import Outpost.Text

/-!
# JSON values

Values of JSON, which configurations, log entries and thrown values are made of. The fields of an
object have an order: keys that are array indices come first, in ascending order, and all others
stand in the order in which they were first set; setting a key again keeps its place.

## Contents

* `Json` with `Json.ofLoose`, `Json.ofGiven`, `Json.lookup`, `Json.field?`, `Json.set` and
  `Json.remove`.
* `Json.mkObject`: the object that a list of settings builds.
* `Json.spread`: the fields that a value lends to an object; `Json.elements`: what it consists of.
* `Json.isVoid`: the values that say nothing.
* `Json.display`: the text that stands for a value inside a message.
* `Json.textOf`, `Json.shown`, `Json.fieldOf`: values that may be left out.
-/

namespace Outpost

/-- A JSON value. -/
inductive Json where
  | null
  | bool (value : Bool)
  | number (value : Number)
  | string (value : String)
  /-- A string that is no text, since a `Piece.half` stands alone in it. -/
  | loose (value : Text.Loose)
  | array (items : List Json)
  | object (fields : List (String × Json))
deriving BEq, Inhabited

namespace Json

/-- The value of an integer. -/
def int (n : Int) : Json := .number (.ofInt n)

/-- The value of a natural number. -/
def nat (n : Nat) : Json := .number (.ofNat n)

/-- The string that a `Loose` text is: a `string` if it is one, and `loose` otherwise. -/
def ofLoose (text : Text.Loose) : Json :=
  match text.whole? with
  | some text => .string text
  | none => .loose text

/-- The value of a `Given` string. -/
def ofGiven : Text.Given → Json
  | .whole text => .string text
  | .loose text => .loose text

/-! ## Objects -/

/-- The value under `key`, among fields without repeated keys. -/
def lookup (key : String) : List (String × Json) → Option Json
  | [] => none
  | (k, v) :: rest => if k = key then some v else lookup key rest

/-- The value of the field `key`, where there is one. -/
def field? (key : String) : Json → Option Json
  | .object fields => lookup key fields
  | _ => none

/-- Fields with `key` set to `value`: in place where the key occurs, at the end otherwise. -/
def insert (key : String) (value : Json) : List (String × Json) → List (String × Json)
  | [] => [(key, value)]
  | (k, v) :: rest => if k = key then (k, value) :: rest else (k, v) :: insert key value rest

/-- The array index that a key spells: a decimal without leading zeros, below `2 ^ 32 - 1`. -/
def index? (key : String) : Option Nat :=
  match key.toList with
  | [] => none
  | ['0'] => some 0
  | '0' :: _ => none
  | digits =>
    if digits.all Char.isDigit && digits.length ≤ 10 then
      let n := Text.digitsValue digits
      if n < 4294967295 then some n else none
    else none

/-- Whether the field `a` stands before `b` although it was set after it. -/
def precedes (a b : String × Json) : Bool :=
  match index? a.1, index? b.1 with
  | some i, some j => i ≤ j
  | some _, none => true
  | none, none => true
  | none, some _ => false

/-- Fields in the order in which an object shows them, by `precedes`. -/
def inOrder (fields : List (String × Json)) : List (String × Json) := fields.mergeSort precedes

/-- The object that a list of `settings` builds, by `insert`: of two settings of one key the later
one gives the value and the earlier one the place. -/
def mkObject (settings : List (String × Json)) : Json :=
  .object (inOrder (settings.foldl (fun fields (key, value) => insert key value fields) []))

/-- An object with the field `key` set to `value`; any other value is left as it is. -/
def set (j : Json) (key : String) (value : Json) : Json :=
  match j with
  | .object fields => .object (inOrder (insert key value fields))
  | other => other

/-- An object without the field `key`; any other value is left as it is. -/
def remove (j : Json) (key : String) : Json :=
  match j with
  | .object fields => .object (fields.filter fun field => field.1 != key)
  | other => other

/-- Fields for `items`, each under its place. -/
def placed (items : List Json) : List (String × Json) :=
  items.zipIdx.map fun (item, place) => (toString place, item)

/-- The fields that a value lends to an object: of an array or a string its items or UTF-16 units as
`placed`, of any other value that is no object none. -/
def spread : Json → List (String × Json)
  | .object fields => fields
  | .array items => placed items
  | .string text =>
    placed ((text.toList.flatMap Text.unitPieces).map fun piece => ofLoose [piece])
  | .loose text => placed (text.map fun piece => ofLoose [piece])
  | _ => []

/-- The values that a value consists of: the `items` of an array, or the characters of a string. -/
def elements : Json → List Json
  | .array items => items
  | .string text => text.toList.map fun c => .string (String.singleton c)
  | .loose text => text.map fun piece => ofLoose [piece]
  | _ => []

/-- Whether a value says nothing: `null`, false, zero and the empty text. -/
def isVoid : Json → Bool
  | .null | .bool false => true
  | .number n => n = .ofInt 0
  | .string text => text = ""
  | _ => false

/-! ## Texts -/

mutual

/-- The text that stands for a value inside a message: strings bare, the items of an array joined by
commas with nothing for `null`, and one fixed text for every object. -/
def display : Json → String
  | .null => "null"
  | .bool true => "true"
  | .bool false => "false"
  | .number n => n.text
  | .string s => s
  | .loose text => text.shown
  | .array items => ",".intercalate (displayItems items)
  | .object _ => "[object Object]"

/-- The texts of the items of an array, where `null` shows nothing. -/
def displayItems : List Json → List String
  | [] => []
  | .null :: rest => "" :: displayItems rest
  | item :: rest => display item :: displayItems rest

end

/-- The texts of items joined by `separator`. -/
def joined (separator : String) (items : List Json) : String :=
  separator.intercalate (displayItems items)

/-! ## Values that may be left out -/

/-- The text that `display` has for a value that may have been left out, which is `undefined` then.
-/
def textOf : Option Json → String
  | some value => value.display
  | none => "undefined"

/-- A value that may have been left out where something has to be shown, which is `null` then. -/
def shown (value : Option Json) : Json := value.getD .null

/-- The field `key` for a value, where there is one. -/
def fieldOf (key : String) : Option Json → List (String × Json)
  | some value => [(key, value)]
  | none => []

end Json

end Outpost
