/-
  JSON values: what clients send and the service answers.

  * `Json`: a value; whole numbers and other numbers are kept apart;
  * `Json.kind`: the name of a value's kind in messages, and `lacksMessage`,
    one of these;
  * `Json.isEmpty`: null, false, zero and the empty text, list or object.
-/
import GotoBasic.Number.Basic

namespace GotoBasic

/-- The wording of the mistake of asking an item for something that its kind
    does not have. -/
def lacksMessage (kind feature : String) : String :=
  "'" ++ kind ++ "' object has no attribute '" ++ feature ++ "'"

/-- A JSON value. -/
inductive Json where
  | null
  | bool (b : Bool)
  | integer (n : Int)
  | number (x : Number)
  | string (s : String)
  | array (items : List Json)
  | object (fields : List (String × Json))

namespace Json

/-- The name of the kind of a value. -/
def kind : Json → String
  | null => "NoneType"
  | bool _ => "bool"
  | integer _ => "int"
  | number _ => "float"
  | string _ => "str"
  | array _ => "list"
  | object _ => "dict"

/-- Whether a value is the empty one of its kind. -/
def isEmpty : Json → Bool
  | null => true
  | bool b => !b
  | integer n => n == 0
  | number x => x.isZero
  | string s => s.isEmpty
  | array items => items.isEmpty
  | object fields => fields.isEmpty

/-- An object with a `type` field in front. -/
def tagged (type : String) (fields : List (String × Json)) : Json :=
  .object (("type", .string type) :: fields)

/-- A list of texts. -/
def strings (texts : List String) : Json := .array (texts.map .string)

end Json

end GotoBasic
