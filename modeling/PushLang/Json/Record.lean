import PushLang.Binary32.Elementary
import PushLang.Error
import PushLang.Json.Reader
import PushLang.Numeral.Integer

/-! Records read from JSON values. A record is an object with its fields as keys, or an array with
its fields in order; fields that are not given take their defaults. -/

namespace PushLang.Json

/-- What a JSON text describes to a decoder of values. -/
def decode {α : Type} (ofJson? : Json → Option α) (text : String) : Except Error α :=
  match (parse? text.toList).bind ofJson? with
  | some value => .ok value
  | none => .error .malformedConfig

/-- The values given for the fields of a record, by position. -/
abbrev Fields := Nat → Option Json

/-- The value of a key. -/
def lookup? (members : List (Option String × Json)) (key : String) : Option Json :=
  (members.find? fun (name, _) => name == some key).map Prod.snd

/-- The fields of a record. A key that is a field may not be repeated and other keys do not matter;
an array is not longer than the list of fields. -/
def fields? (names : List String) : Json → Option Fields
  | .object members =>
    let keys := members.map Prod.fst
    if keys.all Option.isSome && names.all fun name => keys.count (some name) ≤ 1 then
      some fun index => names[index]?.bind (lookup? members)
    else none
  | .array elements =>
    if elements.length ≤ names.length then some fun index => elements[index]? else none
  | _ => none

/-- A field's value, or its default where it is not given. -/
def Fields.get? {α : Type} (fields : Fields) (index : Nat) (read : Json → Option α) (default : α) :
    Option α :=
  match fields index with
  | none => some default
  | some value => read value

/-- An integer from zero that fits in 64 bits. -/
def word? : Json → Option Nat
  | .number (.integer value) => if 0 ≤ value then some value.toNat else none
  | _ => none

/-- An integer that fits in 32 bits. -/
def int32? : Json → Option Int32
  | .number (.integer value) => Numeral.toInt32? value
  | _ => none

/-- Any number, rounded to single precision. -/
def single? : Json → Option Binary32
  | .number (.integer value) => some (Binary32.ofInt value)
  | .number (.real value) => some (Binary32.ofDouble value)
  | _ => none

def boolean? : Json → Option Bool
  | .boolean value => some value
  | _ => none

/-- A string, or null for none. -/
def path? : Json → Option (Option String)
  | .null => some none
  | .string (some text) => some (some text)
  | _ => none

end PushLang.Json
