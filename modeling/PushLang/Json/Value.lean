namespace PushLang

/-- A number of a JSON text. -/
inductive Json.Number where
  /-- Written without point or exponent, and inside the range of 64-bit integers, signed or not.
  Minus zero is not. -/
  | integer (value : Int)
  | real (value : Float)
  /-- Too large for double precision. -/
  | overflow

/-- A JSON value. A string is missing its text when an escape in it names half of a surrogate pair.
The members of an object keep their order and repetitions. -/
inductive Json where
  | null
  | boolean (value : Bool)
  | number (value : Json.Number)
  | string (text : Option String)
  | array (elements : List Json)
  | object (members : List (Option String × Json))

end PushLang
