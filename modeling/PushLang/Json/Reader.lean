import PushLang.Json.Number
import PushLang.Text.Words

namespace PushLang.Json

/-- Drops the blanks at the front of a text. -/
def skipBlanks (text : List Char) : List Char :=
  text.dropWhile fun c => c == ' ' || c == '\n' || c == '\t' || c == '\r'

/-- A part of a string: a character, or half of a surrogate pair. -/
inductive Piece where
  | whole (c : Char)
  | half (code : Nat)

/-- The value of four hexadecimal digits. -/
def hex? (digits : List Char) : Option Nat :=
  digits.foldlM (fun value c =>
    let code := c.toNat
    if 48 ≤ code ∧ code ≤ 57 then some (16 * value + (code - 48))
    else if 97 ≤ code ∧ code ≤ 102 then some (16 * value + (code - 87))
    else if 65 ≤ code ∧ code ≤ 70 then some (16 * value + (code - 55))
    else none) 0

/-- The character that a letter after a backslash stands for. -/
def escape? (c : Char) : Option Char :=
  match c with
  | '"' => some '"'
  | '\\' => some '\\'
  | '/' => some '/'
  | 'b' => some '\x08'
  | 'f' => some '\x0c'
  | 'n' => some '\n'
  | 'r' => some '\r'
  | 't' => some '\t'
  | _ => none

/-- The piece that a code of four digits stands for. -/
def Piece.ofCode (code : Nat) : Piece :=
  if 0xD800 ≤ code ∧ code ≤ 0xDFFF then .half code else .whole (Char.ofNat code)

/-- The pieces up to the closing quote, and what follows it. -/
def pieces? : List Char → Option (List Piece × List Char)
  | [] => none
  | '"' :: rest => some ([], rest)
  | '\\' :: 'u' :: a :: b :: c :: d :: rest => do
    let code ← hex? [a, b, c, d]
    let (pieces, rest) ← pieces? rest
    return (.ofCode code :: pieces, rest)
  | '\\' :: letter :: rest => do
    let c ← escape? letter
    let (pieces, rest) ← pieces? rest
    return (.whole c :: pieces, rest)
  | c :: rest => do
    guard (32 ≤ c.toNat ∧ c ≠ '\\')
    let (pieces, rest) ← pieces? rest
    return (.whole c :: pieces, rest)

/-- The characters of some pieces; the halves of a pair stand next to each other. -/
def join? : List Piece → Option (List Char)
  | [] => some []
  | .whole c :: rest => (join? rest).map (c :: ·)
  | .half high :: .half low :: rest =>
    if high < 0xDC00 ∧ 0xDC00 ≤ low then
      (join? rest).map (Char.ofNat (0x10000 + (high - 0xD800) * 0x400 + (low - 0xDC00)) :: ·)
    else none
  | .half _ :: _ => none

/-- The string after an opening quote and what follows it. -/
def string? (text : List Char) : Option (Option String × List Char) :=
  (pieces? text).map fun (pieces, rest) => ((join? pieces).map String.ofList, rest)

mutual

/-- The value at the front of a text and what follows. The depth bounds the values read one inside
or after another. -/
def value? : Nat → List Char → Option (Json × List Char)
  | 0, _ => none
  | depth + 1, text => match skipBlanks text with
    | '\x7b' :: rest => match skipBlanks rest with
      | '\x7d' :: rest => some (.object [], rest)
      | rest => (members? depth rest).map fun (members, rest) => (.object members, rest)
    | '[' :: rest => match skipBlanks rest with
      | ']' :: rest => some (.array [], rest)
      | rest => (elements? depth rest).map fun (elements, rest) => (.array elements, rest)
    | '"' :: rest => (string? rest).map fun (text, rest) => (.string text, rest)
    | 'n' :: rest => (Text.after? ['u', 'l', 'l'] rest).map (.null, ·)
    | 't' :: rest => (Text.after? ['r', 'u', 'e'] rest).map (.boolean true, ·)
    | 'f' :: rest => (Text.after? ['a', 'l', 's', 'e'] rest).map (.boolean false, ·)
    | rest => (number? rest).map fun (value, rest) => (.number value, rest)

/-- At least one value, separated by commas, up to the closing bracket. -/
def elements? : Nat → List Char → Option (List Json × List Char)
  | 0, _ => none
  | depth + 1, text => do
    let (element, rest) ← value? depth text
    match skipBlanks rest with
    | ',' :: rest =>
      let (elements, rest) ← elements? depth rest
      return (element :: elements, rest)
    | ']' :: rest => return ([element], rest)
    | _ => none

/-- At least one key with its value, separated by commas, up to the closing brace. -/
def members? : Nat → List Char → Option (List (Option String × Json) × List Char)
  | 0, _ => none
  | depth + 1, text => match skipBlanks text with
    | '"' :: rest => do
      let (key, rest) ← string? rest
      let ':' :: rest := skipBlanks rest | none
      let (member, rest) ← value? depth rest
      match skipBlanks rest with
      | ',' :: rest =>
        let (members, rest) ← members? depth rest
        return ((key, member) :: members, rest)
      | '\x7d' :: rest => return ([(key, member)], rest)
      | _ => none
    | _ => none

end

/-- The value of a whole text. -/
def parse? (text : List Char) : Option Json := do
  let (value, rest) ← value? (2 * text.length + 2) text
  guard (skipBlanks rest).isEmpty
  return value

end PushLang.Json
