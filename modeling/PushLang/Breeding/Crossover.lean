import PushLang.Json.Record
import PushLang.Program.Limit

/-! Settings of crossover, which makes two children by exchanging parts of two parents. Parts are
addressed by cuts: the cut `n` stands for point `n + 1`, so that the root of a parent is never
exchanged. -/

namespace PushLang

/-- What has to fit the limit in one attempt: both children, or one child at a time. -/
inductive RetryScope where
  | pair
  | perParent
deriving Repr, DecidableEq

namespace RetryScope

def key : RetryScope → String
  | .pair => "pair"
  | .perParent => "per_parent"

def ofKey? (key : String) : Option RetryScope :=
  [pair, perParent].find? fun scope => scope.key == key

/-- The scope that a JSON value describes: its key, or an object with null under that key. -/
def ofJson? : Json → Option RetryScope
  | .string (some key) => ofKey? key
  | .object [(some key, .null)] => ofKey? key
  | _ => none

end RetryScope

structure Crossover where
  /-- Whether both parents are cut at the same points. -/
  homologous : Bool := false
  /-- Attempts before the parents are kept. -/
  tries : Nat := 10
  scope : RetryScope := .pair
deriving Repr, DecidableEq

namespace Crossover

def fieldNames : List String := ["homologous", "tries", "retry_scope"]

def ofJson? (json : Json) : Option Crossover := do
  let fields ← json.fields? fieldNames
  let default : Crossover := {}
  return {
    homologous := ← fields.get? 0 Json.boolean? default.homologous
    tries := ← fields.get? 1 Json.word? default.tries
    scope := ← fields.get? 2 RetryScope.ofJson? default.scope }

def parse (text : String) : Except Error Crossover := Json.decode ofJson? text

end Crossover

/-- A child that keeps to a limit, and else its parent. -/
def Program.orParent (child parent : Program) (limit : Nat) : Program :=
  if child.fits limit then child else parent

end PushLang
