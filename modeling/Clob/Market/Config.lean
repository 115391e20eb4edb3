import Clob.Fault
import Clob.Json.Value
import Clob.Numeric.Nearest
import Clob.Numeric.Read
/-!
# Market configuration

A market quantises prices and sizes into lots. Its configuration gives the size of a base lot
and a quote lot in the tokens' smallest units, and the number of decimals of each token.

A configuration carries the validator's bounds, so none can be built that the validator would
refuse: a name, when given, is not empty, lot sizes are positive and below `2 ^ 64`, and each
token has at most 30 decimals. The field readers return the proofs of their checks, and
`MarketConfig.ofJson` assembles them. `MarketConfig.Valid` states the bounds of a configuration
as a predicate, which every configuration meets (`MarketConfig.valid`).

`MarketConfig.ofJson` validates a configuration given as a JSON object. Fields are checked in
the order `name`, `base_lot_size`, `quote_lot_size`, `base_decimals`, `quote_decimals`, and
every problem is reported, then each unexpected key; only a configuration whose fields all pass
is checked for lot sizes that fit in 64 bits. An integer field accepts an integer, a boolean
(as `0` or `1`), an integral finite number strictly between `-2 ^ 63` and `2 ^ 63`, or a text of
an integer (`integerOfText`). A text holding a lone surrogate is refused as `string_unicode`, in
a field at its place, and as a key for the configuration as a whole, every other issue dropped.
-/

namespace Clob

structure MarketConfig where
  name : Option String
  baseLotSize : Nat
  quoteLotSize : Nat
  baseDecimals : Nat
  quoteDecimals : Nat
  name_ne_empty : name ≠ some ""
  baseLotSize_pos : 0 < baseLotSize
  quoteLotSize_pos : 0 < quoteLotSize
  baseLotSize_lt : baseLotSize < 2 ^ 64
  quoteLotSize_lt : quoteLotSize < 2 ^ 64
  baseDecimals_le : baseDecimals ≤ 30
  quoteDecimals_le : quoteDecimals ≤ 30

namespace MarketConfig

/-- What validating a configuration guarantees beyond positive lot sizes. -/
structure Valid (m : MarketConfig) : Prop where
  name_ne_empty : m.name ≠ some ""
  baseLotSize_lt : m.baseLotSize < 2 ^ 64
  quoteLotSize_lt : m.quoteLotSize < 2 ^ 64
  baseDecimals_le : m.baseDecimals ≤ 30
  quoteDecimals_le : m.quoteDecimals ≤ 30

theorem valid (m : MarketConfig) : m.Valid :=
  ⟨m.name_ne_empty, m.baseLotSize_lt, m.quoteLotSize_lt, m.baseDecimals_le, m.quoteDecimals_le⟩

/-- The unnamed configuration of the given lot sizes and decimals, its bounds decided where it is
written. -/
def ofSizes (baseLotSize quoteLotSize baseDecimals quoteDecimals : Nat)
    (h : 0 < baseLotSize ∧ baseLotSize < 2 ^ 64 ∧ 0 < quoteLotSize ∧ quoteLotSize < 2 ^ 64 ∧
      baseDecimals ≤ 30 ∧ quoteDecimals ≤ 30 := by decide) : MarketConfig :=
  ⟨none, baseLotSize, quoteLotSize, baseDecimals, quoteDecimals, nofun, h.1, h.2.2.1, h.2.1,
    h.2.2.2.1, h.2.2.2.2.1, h.2.2.2.2.2⟩

def baseMultiplier (m : MarketConfig) : Nat := 10 ^ m.baseDecimals

def quoteMultiplier (m : MarketConfig) : Nat := 10 ^ m.quoteDecimals

theorem baseMultiplier_pos (m : MarketConfig) : 0 < m.baseMultiplier := Nat.pow_pos (by decide)

theorem quoteMultiplier_pos (m : MarketConfig) : 0 < m.quoteMultiplier := Nat.pow_pos (by decide)

def fieldNames : List String :=
  ["name", "base_lot_size", "quote_lot_size", "base_decimals", "quote_decimals"]

def hasDoubleUnderscore (cs : List Char) : Bool :=
  (cs.zip (cs.drop 1)).any fun (a, b) => a == '_' && b == '_'

def dropZeroFraction (cs : List Char) : List Char :=
  let rev := cs.reverse
  let frac := rev.takeWhile (· != '.')
  match rev.dropWhile (· != '.') with
  | '.' :: whole => if !frac.isEmpty && frac.all (· == '0') then whole.reverse else cs
  | _ => cs

def dropZeroRun (cs : List Char) : List Char :=
  match cs with
  | '0' :: _ =>
    match cs.dropWhile (fun c => c == '0' || c == '_') with
    | [] => ['0']
    | rest => rest
  | _ => cs

def maxIntegerLength : Nat := 4300

/-- An integer in the strict grammar: an optional minus, then `0` alone or a digit other than
`0` followed by digits. A minus and digits running over `maxIntegerLength` characters are too
long, whatever follows them. -/
def strictInteger (cs : List Char) : Except IssueKind Int :=
  let (neg, body) := match cs with
    | '-' :: r => (true, r)
    | r => (false, r)
  let digits := body.takeWhile Numeric.isAsciiDigit
  if digits.isEmpty then .error .intParsing
  else if digits.head? == some '0' && digits.length > 1 then .error .intParsing
  else if digits.length + (if neg then 1 else 0) > maxIntegerLength then .error .intParsingSize
  else if digits.length ≠ body.length then .error .intParsing
  else
    let v : Int := Numeric.digitsValue digits
    .ok (if neg then -v else v)

/-- The integer of a text read loosely. White space at the ends is ignored and a fraction of zeros
dropped (`dropZeroFraction`); the text may not then end in an underscore. A sign comes next,
which must be followed by an ASCII digit; a leading run of zeros and underscores goes
(`dropZeroRun`), which may uncover a minus. What is left may not hold two underscores in a row;
without its underscores and with the sign when it is a minus, it must be a strict integer, no
longer than `maxIntegerLength` characters. -/
def looseInteger (s : String) : Option Int :=
  let cs := dropZeroFraction (Text.trimBy Text.isWhiteSpace s)
  if cs.getLast? == some '_' then none
  else
    let (neg, body) := match cs with
      | '-' :: r => (true, r)
      | '+' :: r => (false, r)
      | r => (false, r)
    match body with
    | c :: _ =>
      if !Numeric.isAsciiDigit c then none
      else
        let rest := dropZeroRun body
        if hasDoubleUnderscore rest then none
        else
          let text := (if neg then ['-'] else []) ++ rest.filter (· != '_')
          (strictInteger text).toOption
    | [] => none

/-- The integer that a text denotes. A text that is exactly a strict integer is that integer,
and one whose leading minus and digits are too long for it is refused as too long; any other text
is read loosely (`looseInteger`). -/
def integerOfText (s : String) : Except IssueKind Int :=
  match strictInteger s.toList with
  | .ok v => .ok v
  | .error .intParsingSize => .error .intParsingSize
  | .error _ =>
    match looseInteger s with
    | some v => .ok v
    | none => .error .intParsing

def integerOf (j : Json) : Except IssueKind Int :=
  match j with
  | .int n => .ok n
  | .bool b => .ok (if b then 1 else 0)
  | .float x =>
    if !x.isFinite then .error .finiteNumber
    else
      let (neg, num, den) := x.toRatio
      if num % den ≠ 0 then .error .intFromFloat
      else if num / den ≥ 2 ^ 63 then .error .intParsingSize
      else
        let v : Int := num / den
        .ok (if neg then -v else v)
  | .str (.plain s) => integerOfText s
  | .str (.codes ..) => .error .stringUnicode
  | _ => .error .intType

def check (field : String) (r : Except IssueKind α) : List Issue :=
  match r with
  | .error k => [⟨field, k⟩]
  | .ok _ => []

def lotSize (j : Json) : Except IssueKind {n : Nat // 0 < n} := do
  let n ← integerOf j
  if h : n > 0 then pure ⟨n.toNat, by omega⟩ else throw .greaterThan

def decimals (j : Json) : Except IssueKind {n : Nat // n ≤ 30} := do
  let n ← integerOf j
  if n < 0 then throw .greaterThanEqual
  else if h : n > 30 then throw .lessThanEqual
  else pure ⟨n.toNat, by omega⟩

def nameOf : Option Json → Except IssueKind {s : Option String // s ≠ some ""}
  | none | some .null => .ok ⟨none, nofun⟩
  | some (.str (.plain s)) =>
    if h : s.isEmpty then .error .stringTooShort
    else .ok ⟨some s, fun e => h (by cases e; rfl)⟩
  | some (.str (.codes ..)) => .error .stringUnicode
  | some _ => .error .stringType

def required (j : Option Json) (f : Json → Except IssueKind α) : Except IssueKind α :=
  match j with
  | none => .error .missing
  | some v => f v

def ofJson (j : Json) : Except Fault MarketConfig :=
  match j with
  | .obj members =>
    let get (k : String) : Option Json := members.lookup (.plain k)
    let name := nameOf (get "name")
    let baseLot := required (get "base_lot_size") lotSize
    let quoteLot := required (get "quote_lot_size") lotSize
    let baseDec := required (get "base_decimals") decimals
    let quoteDec := required (get "quote_decimals") decimals
    let extras := members.filterMap fun (k, _) => match k with
      | .plain k => if fieldNames.contains k then none else some (⟨k, .extraForbidden⟩ : Issue)
      | .codes .. => none
    if members.any (fun (k, _) => (k.toString?).isNone) then
      .error (.configInvalid [⟨"", .stringUnicode⟩])
    else
    match name, baseLot, quoteLot, baseDec, quoteDec with
    | .ok n, .ok bl, .ok ql, .ok bd, .ok qd =>
      if extras = [] then
        if h : bl.1 < 2 ^ 64 ∧ ql.1 < 2 ^ 64 then
          .ok ⟨n.1, bl.1, ql.1, bd.1, qd.1, n.2, bl.2, ql.2, h.1, h.2, bd.2, qd.2⟩
        else .error (.configInvalid [⟨"", .valueError⟩])
      else .error (.configInvalid extras)
    | _, _, _, _, _ =>
      .error (.configInvalid (check "name" name ++ check "base_lot_size" baseLot ++
        check "quote_lot_size" quoteLot ++ check "base_decimals" baseDec ++
        check "quote_decimals" quoteDec ++ extras))
  | _ => .error (.configInvalid [⟨"", .modelType⟩])

end MarketConfig

end Clob
