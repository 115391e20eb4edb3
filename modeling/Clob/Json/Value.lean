import Clob.Numeric.Print
import Clob.Text.Quoted
/-!
# JSON values

A JSON value as the documents of this library carry it: integers of any size apart from
binary64 numbers, strings and keys as `CodeText` (a lone surrogate included), and objects as
lists of members in the order they were written, each key once.

`Json.object` builds an object from members that may repeat a key: the later value wins and
keeps the place of the first.

`Json.literal` writes a value the way messages quote a value they were given: `None`, `True`,
`False`, integers in decimal, numbers by `Binary64.toText`, strings by `CodeText.quote`, arrays as
`[a, b]` and objects as `{'k': v}`.
-/

namespace Clob

inductive Json where
  | null
  | bool (b : Bool)
  | int (n : Int)
  | float (x : Binary64)
  | str (s : CodeText)
  | arr (items : List Json)
  | obj (members : List (CodeText × Json))
  deriving Inhabited

namespace Json

def setMember (key : CodeText) (value : Json) :
    List (CodeText × Json) → List (CodeText × Json)
  | [] => [(key, value)]
  | (k, v) :: rest => if k == key then (k, value) :: rest else (k, v) :: setMember key value rest

def object (members : List (CodeText × Json)) : Json :=
  .obj (members.foldl (fun acc (k, v) => setMember k v acc) [])

def get? (j : Json) (key : String) : Option Json :=
  match j with
  | .obj members => members.lookup (.plain key)
  | _ => none

end Json

end Clob

namespace Clob.Json

mutual

def literal : Json → String
  | .null => "None"
  | .bool b => if b then "True" else "False"
  | .int n => toString n
  | .float x => x.toText
  | .str s => s.quote
  | .arr items => "[" ++ literalItems items ++ "]"
  | .obj members => "\x7b" ++ literalMembers members ++ "\x7d"

def literalItems : List Json → String
  | [] => ""
  | [j] => literal j
  | j :: rest => literal j ++ ", " ++ literalItems rest

def literalMembers : List (CodeText × Json) → String
  | [] => ""
  | [(k, v)] => k.quote ++ ": " ++ literal v
  | (k, v) :: rest => k.quote ++ ": " ++ literal v ++ ", " ++ literalMembers rest

end

end Clob.Json
