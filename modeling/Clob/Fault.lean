import Clob.Account.Flags
import Clob.Json.Value
import Clob.Slab.Node
/-!
# Faults

Every way reading an account or converting a quantity can fail is a constructor of `Fault`,
carrying the data of that cause. `Fault.message` gives its text and `Fault.kind` its category:
a malformed layout, a tree whose links are corrupt, an argument out of range, a zero
denominator, a number beyond the binary64 range, or an invalid market configuration.

A fault names what was being read. A quantity handed to a conversion has a `Measure`. A market
has two ring queues (`QueueKind`): the event queue of fills and outs, and the request queue of
orders and cancels waiting to be matched; both share one header layout and differ in the flag
that marks them and the size of a record. Each problem that validating a market configuration
finds is an `Issue`: where it is (a field name, an unexpected key, or the empty location for the
configuration as a whole) and what kind of problem it is, written `location: kind`.
-/

namespace Clob

inductive Measure where
  | priceLots
  | sizeLots
  | nativeBase
  | nativeQuote
  | price
  | size
  deriving DecidableEq, Repr

def Measure.label : Measure → String
  | .priceLots => "price_lots"
  | .sizeLots => "size_lots"
  | .nativeBase => "native base amount"
  | .nativeQuote => "native quote amount"
  | .price => "price"
  | .size => "size"

inductive QueueKind where
  | event
  | request
  deriving DecidableEq, Repr

namespace QueueKind

def label : QueueKind → String
  | event => "event queue"
  | request => "request queue"

def flag : QueueKind → AccountFlag
  | event => .eventQueue
  | request => .requestQueue

def stride : QueueKind → Nat
  | event => 88
  | request => 80

end QueueKind

inductive IssueKind where
  | missing
  | intType
  | intParsing
  | intParsingSize
  | intFromFloat
  | finiteNumber
  | greaterThan
  | greaterThanEqual
  | lessThanEqual
  | stringType
  | stringTooShort
  | stringUnicode
  | extraForbidden
  | modelType
  | valueError
  deriving DecidableEq, Repr

def IssueKind.name : IssueKind → String
  | .missing => "missing"
  | .intType => "int_type"
  | .intParsing => "int_parsing"
  | .intParsingSize => "int_parsing_size"
  | .intFromFloat => "int_from_float"
  | .finiteNumber => "finite_number"
  | .greaterThan => "greater_than"
  | .greaterThanEqual => "greater_than_equal"
  | .lessThanEqual => "less_than_equal"
  | .stringType => "string_type"
  | .stringTooShort => "string_too_short"
  | .stringUnicode => "string_unicode"
  | .extraForbidden => "extra_forbidden"
  | .modelType => "model_type"
  | .valueError => "value_error"

structure Issue where
  location : String
  kind : IssueKind
  deriving DecidableEq, Repr

def Issue.render (i : Issue) : String := i.location ++ ": " ++ i.kind.name

inductive AccountKind where
  | orderbook
  | openOrders
  deriving DecidableEq, Repr

def AccountKind.label : AccountKind → String
  | .orderbook => "orderbook"
  | .openOrders => "open orders"

inductive FaultKind where
  | format
  | corruption
  | value
  | zeroDivision
  | overflow
  | validation
  deriving DecidableEq, Repr

inductive Fault where
  | fieldOutOfBounds (what : String) (size : Nat) (offset : Int) (length : Nat)
  | slabHeaderShort (size : Nat)
  | slabBodyStride (size : Nat)
  | slabBumpBeyond (bump count : Nat)
  | slabRootOutOfRange (root count : Nat)
  | nodeTagUnknown (index tag : Nat)
  | nodePrefixTooLong (index prefixLen : Nat)
  | nodeIndexOutOfRange (index count : Nat)
  | searchNonTree (index : Nat) (kind : NodeKind)
  | searchUnfinished (limit : Nat)
  | walkNonTree (index : Nat) (kind : NodeKind)
  | walkCyclic (limit : Nat)
  | envelopeShort (account : AccountKind) (size : Nat)
  | bookUninitialized (flags : AccountFlags)
  | bookSideUnclear (flags : AccountFlags)
  | bookSlabShort (size : Nat)
  | openOrdersUnmarked (flags : AccountFlags)
  | openOrdersBodySize (size : Nat)
  | openOrdersAddressSize (size : Nat)
  | queueHeaderShort (queue : QueueKind) (size : Nat)
  | queueUnmarked (queue : QueueKind) (flags : AccountFlags)
  | queueCountBeyond (queue : QueueKind) (count capacity : Nat)
  | queueHeadBeyond (queue : QueueKind) (head capacity : Nat)
  | fillWithoutBase (orderId : Nat)
  | fillFeeBeyondQuote (orderId fee quote : Nat)
  | sideUnknown (side : Json)
  | priceOutOfRange (price : Int)
  | sequenceOutOfRange (sequence : Int)
  | keyOutOfRange (key : Int)
  | wordOutOfRange (value : Int)
  | operandNegative (num den : Int)
  | denominatorZero
  | amountNegative (measure : Measure) (amount : Int)
  | numberNotFinite (measure : Measure) (x : Binary64)
  | numberNegative (measure : Measure) (x : Binary64)
  | numberTextInvalid (text : CodeText)
  | integerTextTooLong (digits : Nat)
  | integerTooLongForText
  | integerTooLargeForNumber
  | depthNegative (depth : Int)
  | historyNegative (history : Int)
  | configInvalid (issues : List Issue)
  deriving Inhabited

namespace Fault

def kind : Fault → FaultKind
  | fieldOutOfBounds .. | slabHeaderShort .. | slabBodyStride .. | slabBumpBeyond ..
  | slabRootOutOfRange .. | nodeTagUnknown .. | nodePrefixTooLong .. | envelopeShort ..
  | bookUninitialized .. | bookSideUnclear .. | bookSlabShort .. | openOrdersUnmarked ..
  | openOrdersBodySize .. | queueHeaderShort .. | queueUnmarked .. | queueCountBeyond ..
  | queueHeadBeyond .. | fillWithoutBase .. | fillFeeBeyondQuote .. => .format
  | nodeIndexOutOfRange .. | searchNonTree .. | searchUnfinished .. | walkNonTree ..
  | walkCyclic .. => .corruption
  | denominatorZero => .zeroDivision
  | integerTooLargeForNumber => .overflow
  | configInvalid .. => .validation
  | _ => .value

def message : Fault → String
  | fieldOutOfBounds what size offset length =>
    what ++ s!": need {size} bytes at offset {offset}, buffer has {length}"
  | slabHeaderShort n => s!"slab header needs 32 bytes, buffer has {n}"
  | slabBodyStride n => s!"slab body is {n} bytes, not a multiple of the 72-byte node stride"
  | slabBumpBeyond bump count => s!"header declares {bump} nodes, buffer holds {count}"
  | slabRootOutOfRange root count => s!"root_index {root} out of range for {count} nodes"
  | nodeTagUnknown i tag => s!"node {i}: unknown tag {tag}"
  | nodePrefixTooLong i p => s!"node {i}: inner prefix_len {p} > 127"
  | nodeIndexOutOfRange i count => s!"node index {i} out of range for {count} nodes"
  | searchNonTree i k => s!"search reached non-tree node {i} (" ++ k.typeName ++ ")"
  | searchUnfinished n => s!"search did not terminate within {n} steps"
  | walkNonTree i k => s!"traversal reached non-tree node {i} (" ++ k.typeName ++ ")"
  | walkCyclic n => s!"traversal visited more than {n} nodes; child links are cyclic"
  | envelopeShort a n => a.label ++ s!": account is {n} bytes, envelope alone needs 20"
  | bookUninitialized f =>
    "orderbook account is not initialized (flags=" ++ f.render ++ ")"
  | bookSideUnclear f =>
    "orderbook account must be flagged as exactly one of bids/asks (flags=" ++ f.render ++ ")"
  | bookSlabShort n => s!"orderbook slab region is {n} bytes, header needs 32"
  | openOrdersUnmarked f =>
    "open orders: account flags " ++ f.render ++
      " do not mark an initialized open-orders account"
  | openOrdersBodySize n => s!"open orders: body is {n} bytes, expected 3200 (v1) or 3208 (v2)"
  | openOrdersAddressSize n => s!"open orders address must be 32 bytes, got {n}"
  | queueHeaderShort q n => q.label ++ s!": header needs 37 bytes, buffer has {n}"
  | queueUnmarked q f =>
    q.label ++ ": account flags " ++ f.render ++ " do not mark an initialized " ++ q.flag.name
  | queueCountBeyond q c k => q.label ++ s!": count {c} exceeds capacity {k}"
  | queueHeadBeyond q h k => q.label ++ s!": head {h} out of range for capacity {k}"
  | fillWithoutBase o => s!"fill event for order {o} moved no base quantity"
  | fillFeeBeyondQuote o fee quote =>
    s!"fill event for order {o}: fee {fee} exceeds quote amount {quote}"
  | sideUnknown side => "Unknown side: " ++ side.literal
  | priceOutOfRange v => s!"price out of u64 range: {v}"
  | sequenceOutOfRange v => s!"sequence out of u64 range: {v}"
  | keyOutOfRange v => s!"key out of u128 range: {v}"
  | wordOutOfRange v => s!"value out of u128 range: {v}"
  | operandNegative n d => s!"divide_to_number: negative operand ({n}/{d})"
  | denominatorZero => "divide_to_number: zero denominator"
  | amountNegative m v => m.label ++ s!" must be non-negative, got {v}"
  | numberNotFinite m x => m.label ++ " must be finite, got " ++ x.toText
  | numberNegative m x => m.label ++ " must be non-negative, got " ++ x.toText
  | numberTextInvalid t => "could not convert string to float: " ++ t.quote
  | integerTextTooLong n =>
    s!"Exceeds the limit (4300 digits) for integer string conversion: value has {n} digits; " ++
      "use sys.set_int_max_str_digits() to increase the limit"
  | integerTooLargeForNumber => "int too large to convert to float"
  | integerTooLongForText =>
    "Exceeds the limit (4300 digits) for integer string conversion; " ++
      "use sys.set_int_max_str_digits() to increase the limit"
  | depthNegative d => s!"depth must be >= 0, got {d}"
  | historyNegative h => s!"history must be >= 0, got {h}"
  | configInvalid issues => "; ".intercalate (issues.map Issue.render)

end Fault

end Clob
