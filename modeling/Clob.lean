import Clob.Account.Flags
import Clob.Account.OpenOrders
import Clob.Book.Depth
import Clob.Book.Order
import Clob.Bytes.Layout
import Clob.Bytes.LittleEndian
import Clob.Bytes.Text
import Clob.Cli.Args
import Clob.Cli.Files
import Clob.Cli.Run
import Clob.Fault
import Clob.Json.Read
import Clob.Json.Value
import Clob.Json.Write
import Clob.Main
import Clob.Market.Config
import Clob.Market.Lots
import Clob.Numeric.Binary64
import Clob.Numeric.Nearest
import Clob.Numeric.Print
import Clob.Numeric.Quotient
import Clob.Numeric.Read
import Clob.OrderKey
import Clob.Prelude
import Clob.Proofs.Account.OpenOrders
import Clob.Proofs.Book.Account
import Clob.Proofs.Book.Depth
import Clob.Proofs.Book.Keys
import Clob.Proofs.Book.Levels
import Clob.Proofs.Book.Owners
import Clob.Proofs.Book.Priority
import Clob.Proofs.Bytes.Halves
import Clob.Proofs.Cli.Exit
import Clob.Proofs.Fields
import Clob.Proofs.Market.Refusals
import Clob.Proofs.Market.Rounding
import Clob.Proofs.Numeric.Monotone
import Clob.Proofs.Numeric.Quotient
import Clob.Proofs.Queue.Fills
import Clob.Proofs.Queue.Header
import Clob.Proofs.Queue.Ring
import Clob.Proofs.Slab.Decode
import Clob.Proofs.Slab.Descent
import Clob.Proofs.Slab.Search
import Clob.Proofs.Slab.Tree
import Clob.Proofs.Slab.Unfolding
import Clob.Proofs.Slab.Walk
import Clob.Queue.Event
import Clob.Queue.Fill
import Clob.Queue.Ring
import Clob.Slab.Decode
import Clob.Slab.Node
import Clob.Slab.Walk
import Clob.Text.Quoted
