import Clob.Numeric.Read
/-!
# Command-line arguments

The command line is `[--log-level LEVEL] COMMAND OPTIONS`, where `COMMAND` is `book` or `fills`.
Both commands take `--market PATH` and `--account PATH` (required) and the flag `--base64`;
`book` also takes `--depth N` (default 20) and the flag `--orders`, and `fills` takes
`--history N`.

An option is written in full, as `--name=value`, or as any prefix of its name that no other
option of the same command shares. A value is the next argument unless that looks like an option:
a negative number or a text with a space is a value. The last occurrence of an option wins.

A one-dash flag may carry more one-dash flags in the same argument: `-hh` is `-h -h`, and each
attached character must name a flag. Any other text attached to a flag, or empty text after `=`,
is refused.

The `--` that ends the options is dropped from an option's values, and so an option that takes
a value and is written `--name=--` is given nothing at all (`Given.nothing`): no text to convert
or check. What is done with such an option is up to the command that reads it.

Parsing fails, to be reported as a usage error, on an unknown or ambiguous option, a stray
argument, a missing or malformed value, a value given to a flag, or a missing required option.
`-h` and `--help` ask for help, unless the argument that names them is refused.
-/

namespace Clob.Cli

inductive Command where
  | book
  | fills
  deriving DecidableEq, Repr

/-- What an option that takes a value was given: a value, or nothing at all. -/
inductive Given (α : Type) where
  | value (a : α)
  | nothing
  deriving DecidableEq, Repr

structure Invocation where
  command : Command
  logLevel : Option (Given String)
  market : Given String
  account : Given String
  base64 : Bool
  depth : Given Int
  orders : Bool
  history : Option (Given Int)
  deriving DecidableEq, Repr

inductive Refusal where
  | usage
  | help
  deriving DecidableEq, Repr

structure OptionSpec where
  name : String
  takesValue : Bool
  deriving DecidableEq, Repr

namespace OptionSpec

def isShort (spec : OptionSpec) : Bool := (spec.name.toList.drop 1).head? != some '-'

def isHelp (spec : OptionSpec) : Bool := spec.name == "-h" || spec.name == "--help"

end OptionSpec

inductive Token where
  | positional (text : String)
  | option (spec : OptionSpec) (explicit : Option String)
  | unknown (text : String)
  | ambiguous
  deriving DecidableEq, Repr

def globalOptions : List OptionSpec :=
  [⟨"-h", false⟩, ⟨"--help", false⟩, ⟨"--log-level", true⟩]

def commandOptions : Command → List OptionSpec
  | .book => [⟨"-h", false⟩, ⟨"--help", false⟩, ⟨"--market", true⟩, ⟨"--account", true⟩,
      ⟨"--base64", false⟩, ⟨"--depth", true⟩, ⟨"--orders", false⟩]
  | .fills => [⟨"-h", false⟩, ⟨"--help", false⟩, ⟨"--market", true⟩, ⟨"--account", true⟩,
      ⟨"--base64", false⟩, ⟨"--history", true⟩]

/-- Whether a text is a negative number: a minus, then digits, or digits around a point with at
least one after it, and at most one line break after those. -/
def isNegativeNumber (s : String) : Bool :=
  let chars := s.toList
  let body := if chars.getLast? == some '\n' then chars.dropLast else chars
  match body with
  | '-' :: rest =>
    let whole := rest.takeWhile Text.isDecimalDigit
    let afterWhole := rest.dropWhile Text.isDecimalDigit
    match afterWhole with
    | [] => !whole.isEmpty
    | '.' :: frac => !frac.isEmpty && frac.all Text.isDecimalDigit
    | _ => false
  | _ => false

def classify (opts : List OptionSpec) (arg : String) : Token :=
  let chars := arg.toList
  let exact := fun (n : String) => opts.find? (·.name == n)
  match chars with
  | [] => .positional arg
  | c :: rest =>
    if c ≠ '-' ∨ arg = "--" then .positional arg
    else if let some spec := exact arg then .option spec none
    else if rest.isEmpty then .positional arg
    else
      let (name, value) := match chars.splitOn '=' with
        | n :: v :: more =>
          (String.ofList n, some ("=".intercalate (String.ofList v :: more.map String.ofList)))
        | _ => (arg, none)
      match value, exact name with
      | some v, some spec => .option spec (some v)
      | _, _ =>
        let candidates : List (OptionSpec × Option String) :=
          if rest.head? == some '-' then
            (opts.filter fun o => name.toList.isPrefixOf o.name.toList).map (·, value)
          else
            opts.filterMap fun o =>
              if o.name == String.ofList (chars.take 2) then
                some (o, some (String.ofList (chars.drop 2)))
              else if chars.isPrefixOf o.name.toList then some (o, none)
              else none
        match candidates with
        | [(spec, v)] => .option spec v
        | _ :: _ :: _ => .ambiguous
        | [] =>
          if isNegativeNumber arg || chars.contains ' ' then .positional arg else .unknown arg

/-- The flags that the flag `spec` with the attached characters `text` stands for, `spec` first:
while the flag is a one-dash one, the next character names the next one-dash flag, which must
exist. Text attached to any other flag is refused, and so is an option taking a value in the
chain, which no option set here has. -/
def attachedFlags (opts : List OptionSpec) (spec : OptionSpec) :
    List Char → Except Refusal (List OptionSpec)
  | [] => .ok [spec]
  | c :: rest =>
    if spec.isShort then
      match opts.find? (·.name == String.ofList ['-', c]) with
      | some next =>
        if next.takesValue then .error .usage
        else (spec :: ·) <$> attachedFlags opts next rest
      | none => .error .usage
    else .error .usage

def flagsOf (opts : List OptionSpec) (spec : OptionSpec) :
    Option String → Except Refusal (List OptionSpec)
  | none => .ok [spec]
  | some text => if text.isEmpty then .error .usage else attachedFlags opts spec text.toList

def integerValue (s : String) : Except Refusal Int :=
  match Numeric.readInteger s with
  | some (.ok n) => .ok n
  | _ => .error .usage

def integerOptions : List String := ["--depth", "--history"]

def attached (text : String) : Given String :=
  if text == "--" then .nothing else .value text

abbrev Seen := List (String × Given String)

def record (name : String) (v : Given String) (seen : Seen) : Except Refusal Seen :=
  match v with
  | .value text =>
    if integerOptions.contains name then (integerValue text).map fun _ => (name, v) :: seen
    else .ok ((name, v) :: seen)
  | .nothing => .ok ((name, v) :: seen)

def readCommandArgs (opts : List OptionSpec) :
    List String → Seen → Bool → Except Refusal (Seen × Bool)
  | [], seen, strays => .ok (seen, strays)
  | arg :: rest, seen, strays =>
    if arg == "--" then .ok (seen, true)
    else
    match classify opts arg with
    | .ambiguous => .error .usage
    | .positional _ | .unknown _ => readCommandArgs opts rest seen true
    | .option spec explicit =>
      if !spec.takesValue then
        match flagsOf opts spec explicit with
        | .error e => .error e
        | .ok flags =>
          if flags.any OptionSpec.isHelp then .error .help
          else readCommandArgs opts rest (flags.reverse.map (·.name, .value "") ++ seen) strays
      else
        match explicit with
        | some v => do readCommandArgs opts rest (← record spec.name (attached v) seen) strays
        | none =>
          match rest with
          | v :: more =>
            if v == "--" then .error .usage
            else
            match classify opts v with
            | .positional _ =>
              do readCommandArgs opts more (← record spec.name (.value v) seen) strays
            | _ => .error .usage
          | [] => .error .usage

structure Head where
  command : String
  rest : List String
  stray : Bool
  logLevel : Option (Given String)
  deriving DecidableEq, Repr

def readGlobal (level : Option (Given String)) : List String → Except Refusal Head
  | [] => .error .usage
  | arg :: rest =>
    if arg == "--" then .error .usage
    else
    match classify globalOptions arg with
    | .positional cmd => .ok ⟨cmd, rest, false, level⟩
    | .ambiguous => .error .usage
    | .unknown _ => (readGlobal level rest).map fun h => { h with stray := true }
    | .option spec explicit =>
      if spec.name == "--log-level" then
        match explicit with
        | some v => readGlobal (some (attached v)) rest
        | none =>
          match rest with
          | v :: more =>
            match classify globalOptions v with
            | .positional _ =>
              if v == "--" then .error .usage else readGlobal (some (.value v)) more
            | _ => .error .usage
          | [] => .error .usage
      else (flagsOf globalOptions spec explicit).bind fun _ => .error .help

/-- Whether an argument list, read against `opts`, has an ambiguous option before any `--`. -/
def hasAmbiguous (opts : List OptionSpec) (args : List String) : Bool :=
  (args.takeWhile (· != "--")).any fun a => classify opts a == .ambiguous

def parse (argv : List String) : Except Refusal Invocation := do
  if hasAmbiguous globalOptions argv then throw Refusal.usage
  let head ← readGlobal none argv
  let command ← match head.command with
    | "book" => pure Command.book
    | "fills" => pure Command.fills
    | _ => throw Refusal.usage
  let opts := commandOptions command
  if hasAmbiguous opts head.rest then throw Refusal.usage
  let (seen, strays) ← readCommandArgs opts head.rest [] false
  let value (name : String) : Option (Given String) := seen.lookup name
  let count : Given String → Except Refusal (Given Int)
    | .value v => Given.value <$> integerValue v
    | .nothing => pure Given.nothing
  let depth ← match value "--depth" with
    | some v => count v
    | none => pure (Given.value 20)
  let history ← match value "--history" with
    | some v => some <$> count v
    | none => pure none
  match value "--market", value "--account" with
  | some market, some account =>
    if strays || head.stray then throw Refusal.usage
    pure { command, logLevel := head.logLevel, market, account
           base64 := (value "--base64").isSome
           depth, history
           orders := (value "--orders").isSome }
  | _, _ => throw Refusal.usage

end Clob.Cli
