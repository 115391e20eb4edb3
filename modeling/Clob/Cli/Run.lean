import Clob.Book.Order
import Clob.Book.Depth
import Clob.Bytes.Text
import Clob.Cli.Args
import Clob.Cli.Files
import Clob.Json.Read
import Clob.Json.Write
import Clob.Market.Config
import Clob.Queue.Fill
/-!
# Running a command line

`Cli.run` carries out a command line against a file system, given as a lookup from path to
what it names (`Entry`), and gives the exit code and the text written to standard output, or
the error that stopped it unhandled (`Crash`). Files are looked up by the normal form of the
paths the command line names (`normalizePath`).

* A usage error exits with 2 and help with 0, writing nothing here.
* The market file is read first: it must exist, be UTF-8 JSON text, and describe a valid
  market configuration. Then the account file: raw bytes, or with `--base64` ASCII text that,
  less blanks at its ends, is strict base64.
* A path that names a directory, or is too long to look up, stops the run unhandled, and so
  does market text nesting more than `marketNesting` arrays and objects.
* An option given nothing (`Given.nothing`) stops the run unhandled where its value is first
  used: the log level at once, a path when its file is to be read, `--depth` after the account
  is decoded and unless `--orders` is given, `--history` after the queue's header is checked.
* `book` prints the depth of the order book account (`--depth` levels), or with `--orders`
  every order best first; `fills` prints the fills of the event queue account, live events or
  the `--history` most recent ones.
* Any failure on the way exits with 1 and writes nothing; success prints the list of rows as
  indented JSON and exits with 0.
-/

namespace Clob.Cli

/-- An error that stops a command line with nothing to handle it. -/
inductive Crash where
  | isDirectory (path : String)
  | nameTooLong (path : String)
  | tooDeep (container : Json.Container)
  | emptyLevel
  | emptyPath
  | emptyCount
  deriving DecidableEq, Repr

def Crash.message : Crash → String
  | .isDirectory p => "IsADirectoryError: [Errno 21] Is a directory: " ++ Text.quote p
  | .nameTooLong p => "OSError: [Errno 36] File name too long: " ++ Text.quote p
  | .tooDeep c =>
    let kind := match c with
      | .array => "array"
      | .object => "object"
    "RecursionError: maximum recursion depth exceeded while decoding a JSON " ++ kind ++
      " from a unicode string"
  | .emptyLevel => "AttributeError: 'list' object has no attribute 'upper'"
  | .emptyPath => "AttributeError: 'list' object has no attribute 'exists'"
  | .emptyCount => "TypeError: '<' not supported between instances of 'list' and 'int'"

inductive Outcome where
  | exited (code : Nat) (stdout : Option String)
  | crashed (crash : Crash)
  deriving DecidableEq, Repr

inductive Stop where
  | failed
  | crashed (crash : Crash)
  deriving DecidableEq, Repr

def contentsAt (lookup : String → Entry) (path : String) : Except Stop (List UInt8) :=
  match lookup path with
  | .file contents => .ok contents
  | .missing => .error .failed
  | .directory => .error (.crashed (.isDirectory path))
  | .nameTooLong => .error (.crashed (.nameTooLong path))

def contentsOf (lookup : String → Entry) : Given String → Except Stop (List UInt8)
  | .value path => contentsAt lookup (normalizePath path)
  | .nothing => .error (.crashed .emptyPath)

def failOn (r : Except Fault α) : Except Stop α :=
  match r with
  | .ok a => .ok a
  | .error _ => .error .failed

/-- The most arrays and objects that market text may nest: the reader of that text recurses
once for each, and a deeper one exhausts its recursion. -/
def marketNesting : Nat := 990

def readMarket (contents : List UInt8) : Except Stop MarketConfig := do
  let some text := String.fromUTF8? (ByteArray.mk contents.toArray) | throw .failed
  let j ← match Json.read marketNesting text with
    | .ok j => pure j
    | .error .malformed => throw .failed
    | .error (.tooDeep c) => throw (.crashed (.tooDeep c))
  match MarketConfig.ofJson j with
  | .ok m => pure m
  | .error _ => throw .failed

def readAccount (contents : List UInt8) (base64 : Bool) : Option (List UInt8) :=
  if !base64 then some contents
  else if contents.any (· ≥ 128) then none
  else
    let text := String.ofList (contents.map fun b => Char.ofNat b.toNat)
    Base64.decode (String.ofList (Text.trimBlank text))

def rows (inv : Invocation) (m : MarketConfig) (account : List UInt8) : Except Stop (List Json) :=
  match inv.command with
  | .book => do
    let b ← failOn (Orderbook.decode account m)
    if inv.orders then
      let w := b.byPriority
      match w.fault with
      | some _ => throw .failed
      | none => pure (w.orders.map Order.toJson)
    else
      match inv.depth with
      | .nothing => throw (.crashed .emptyCount)
      | .value depth =>
        let levels ← failOn (b.depth depth)
        pure (levels.map BookLevel.toJson)
  | .fills => do
    let history ← match inv.history with
      | none => pure none
      | some (.value h) => pure (some h)
      | some .nothing => do
        let _ ← failOn (Ring.read .event account)
        throw (.crashed .emptyCount)
    let q ← failOn (Event.decodeQueue account history)
    let fs ← failOn (fills m q.records)
    pure (fs.map Fill.toJson)

def execute (lookup : String → Entry) (inv : Invocation) : Outcome :=
  let printed : Except Stop (List Json) := do
    if inv.logLevel == some .nothing then throw (.crashed .emptyLevel)
    let m ← readMarket (← contentsOf lookup inv.market)
    let contents ← contentsOf lookup inv.account
    let some account := readAccount contents inv.base64 | throw .failed
    rows inv m account
  match printed with
  | .ok rs => .exited 0 (some (Json.pretty (.arr rs) ++ "\n"))
  | .error .failed => .exited 1 none
  | .error (.crashed c) => .crashed c

/-- The outcome of a command line run against the file system `lookup` describes. -/
def run (lookup : String → Entry) (argv : List String) : Outcome :=
  match parse argv with
  | .error .usage => .exited 2 none
  | .error .help => .exited 0 none
  | .ok inv => execute lookup inv

end Clob.Cli
