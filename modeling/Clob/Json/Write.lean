import Clob.Json.Value
import Clob.Numeric.Print
/-!
# Writing JSON

JSON text is written in ASCII: a string escapes the quote, the backslash and every character
outside space to tilde, the usual controls by their short escapes and the rest as `\u` with four
lowercase hex digits (a character above `U+FFFF` as its UTF-16 surrogate pair). A number is
written as an integer or as its shortest decimal (`Binary64.toText`), the non-finite ones as
`NaN`, `Infinity` and `-Infinity`.

`Json.compact` puts no blanks between tokens; `Json.pretty` puts each member and item on a line
of its own, indented by two spaces a level, with `": "` after a key.
-/

namespace Clob.Json

def hex4 (n : Nat) : String :=
  let d (k : Nat) : Char := "0123456789abcdef".toList.getD (n / 16 ^ k % 16) '0'
  String.ofList ['\\', 'u', d 3, d 2, d 1, d 0]

def escapeChar (c : Char) : String :=
  match c with
  | '"' => "\\\""
  | '\\' => "\\\\"
  | '\n' => "\\n"
  | '\r' => "\\r"
  | '\t' => "\\t"
  | '\x08' => "\\b"
  | '\x0c' => "\\f"
  | _ =>
    let n := c.toNat
    if 32 ≤ n ∧ n ≤ 126 then c.toString
    else if n < 0x10000 then hex4 n
    else
      let v := n - 0x10000
      hex4 (0xD800 + v / 1024) ++ hex4 (0xDC00 + v % 1024)

def escapePoint (n : Nat) : String :=
  if isSurrogate n then hex4 n else escapeChar (Char.ofNat n)

def quote : CodeText → String
  | .plain s => "\"" ++ String.join (s.toList.map escapeChar) ++ "\""
  | .codes ps _ => "\"" ++ String.join (ps.map escapePoint) ++ "\""

def floatText (x : Binary64) : String :=
  if x.isNaN then "NaN"
  else if x.isInfinite then (if x.signBit then "-Infinity" else "Infinity")
  else x.toText

mutual

def compactInto (out : String) : Json → String
  | .null => out ++ "null"
  | .bool b => out ++ (if b then "true" else "false")
  | .int n => out ++ toString n
  | .float x => out ++ floatText x
  | .str s => out ++ quote s
  | .arr items => compactItemsInto (out ++ "[") items ++ "]"
  | .obj members => compactMembersInto (out ++ "\x7b") members ++ "\x7d"

def compactItemsInto (out : String) : List Json → String
  | [] => out
  | [j] => compactInto out j
  | j :: rest => compactItemsInto (compactInto out j ++ ",") rest

def compactMembersInto (out : String) : List (CodeText × Json) → String
  | [] => out
  | [(k, v)] => compactInto (out ++ quote k ++ ":") v
  | (k, v) :: rest => compactMembersInto (compactInto (out ++ quote k ++ ":") v ++ ",") rest

end

def compact (j : Json) : String := compactInto "" j

def newline (level : Nat) : String := "\n" ++ String.ofList (List.replicate (2 * level) ' ')

mutual

def prettyInto (out : String) (level : Nat) : Json → String
  | .arr [] => out ++ "[]"
  | .obj [] => out ++ "\x7b\x7d"
  | .arr items => prettyItemsInto (out ++ "[") (level + 1) items ++ newline level ++ "]"
  | .obj members =>
    prettyMembersInto (out ++ "\x7b") (level + 1) members ++ newline level ++ "\x7d"
  | j => compactInto out j

def prettyItemsInto (out : String) (level : Nat) : List Json → String
  | [] => out
  | [j] => prettyInto (out ++ newline level) level j
  | j :: rest => prettyItemsInto (prettyInto (out ++ newline level) level j ++ ",") level rest

def prettyMembersInto (out : String) (level : Nat) : List (CodeText × Json) → String
  | [] => out
  | [(k, v)] => prettyInto (out ++ newline level ++ quote k ++ ": ") level v
  | (k, v) :: rest =>
    let out' := prettyInto (out ++ newline level ++ quote k ++ ": ") level v ++ ","
    prettyMembersInto out' level rest

end

def pretty (j : Json) : String := prettyInto "" 0 j

end Clob.Json
