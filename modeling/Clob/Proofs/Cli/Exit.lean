import Clob.Cli.Run
/-!
# How a command line ends

A command line that gives every option taking a value a value, leaves the log level alone, and
names a market file of JSON text and an account file, ends in one of two ways: it exits with
`1` having printed nothing, or with `0` having printed the indented JSON list of its rows
(`Printed`). The rows are every order best first (`--orders`), the levels of the book's depth,
or the fills of the event queue, live or the `--history` most recent. A fault that ends the
walk part way through the orders is a failure like any other: the orders read before it are not
printed.

An option written `--depth=--` is given nothing, and then the book command stops unhandled once
the account decodes.
-/

namespace Clob.Cli

def Given.value? {α : Type} : Given α → Option α
  | .value a => some a
  | .nothing => none

/-- The rows that a command prints for market `m` and account data `account`. -/
def Printed (inv : Invocation) (m : MarketConfig) (account : List UInt8) (rs : List Json) :
    Prop :=
  match inv.command with
  | .book =>
    ∃ b, Orderbook.decode account m = .ok b ∧
      if inv.orders then b.byPriority.fault = none ∧ rs = b.byPriority.orders.map Order.toJson
      else ∃ d levels, inv.depth = .value d ∧ b.depth d = .ok levels ∧
        rs = levels.map BookLevel.toJson
  | .fills =>
    ∃ q fs, Event.decodeQueue account (inv.history.bind Given.value?) = .ok q ∧
      fills m q.records = .ok fs ∧ rs = fs.map Fill.toJson

structure Invocation.Plain (inv : Invocation) : Prop where
  logLevel_eq : inv.logLevel = none
  depth_ne : inv.depth ≠ .nothing
  history_ne : inv.history ≠ some .nothing

theorem failOn_bind {α β : Type} (r : Except Fault α) (f : α → Except Stop β) :
    failOn r >>= f = match r with
      | .ok a => f a
      | .error _ => .error .failed := by
  cases r <;> rfl

section Rows

variable (m : MarketConfig) (account : List UInt8)

theorem rows_failed_or_printed {inv : Invocation} (hdepth : inv.depth ≠ .nothing)
    (hhistory : inv.history ≠ some .nothing) :
    rows inv m account = .error .failed ∨
      ∃ rs, rows inv m account = .ok rs ∧ Printed inv m account rs := by
  obtain ⟨command, logLevel, market, acc, base64, depth, orders, history⟩ := inv
  cases command with
  | book =>
      simp only [rows, failOn_bind]
      cases hb : Orderbook.decode account m with
      | error e => exact .inl rfl
      | ok b =>
          cases orders with
          | true =>
              cases hf : b.byPriority.fault with
              | some f => simp [hf, throw, throwThe, MonadExceptOf.throw]
              | none =>
                  simp only [if_true, hf]
                  exact .inr ⟨_, rfl, b, hb, by simp [hf]⟩
          | false =>
              cases depth with
              | nothing => exact absurd rfl hdepth
              | value d =>
                  simp only [Bool.false_eq_true, if_false]
                  cases hd : b.depth d with
                  | error e => exact .inl rfl
                  | ok levels => exact .inr ⟨_, rfl, b, hb, by simp [hd]⟩
  | fills =>
      have hrows : rows ⟨.fills, logLevel, market, acc, base64, depth, orders, history⟩ m account =
          (failOn (Event.decodeQueue account (history.bind Given.value?)) >>= fun q =>
            failOn (fills m q.records) >>= fun fs => pure (fs.map Fill.toJson)) := by
        rcases history with _ | _ | _
        · rfl
        · rfl
        · exact absurd rfl hhistory
      rw [hrows, failOn_bind]
      cases hq : Event.decodeQueue account (history.bind Given.value?) with
      | error e => exact .inl rfl
      | ok q =>
          simp only [failOn_bind]
          cases hfs : fills m q.records with
          | error e => exact .inl rfl
          | ok fs => exact .inr ⟨_, rfl, q, fs, hq, hfs, rfl⟩

end Rows

theorem readMarket_failed_or_ok {contents : List UInt8} {text : String}
    (htext : String.fromUTF8? (ByteArray.mk contents.toArray) = some text)
    (hjson : (Json.read marketNesting text).isOk = true) :
    readMarket contents = .error .failed ∨ ∃ m, readMarket contents = .ok m := by
  obtain ⟨j, hj⟩ : ∃ j, Json.read marketNesting text = .ok j := by
    cases h : Json.read marketNesting text with
    | error e => simp [h, Except.isOk, Except.toBool] at hjson
    | ok j => exact ⟨j, rfl⟩
  simp only [readMarket, htext, hj, bind, Except.bind, pure, Except.pure]
  cases MarketConfig.ofJson j with
  | error e => exact .inl rfl
  | ok m => exact .inr ⟨m, rfl⟩

/-- With every option given a value, the default log level, a market file of JSON text and an
account file, a command line either exits with `1` and prints nothing, or exits with `0` and
prints the rows of its command, whatever the walk, the decoders or the conversions meet. -/
theorem run_prints_rows_or_fails (lookup : String → Entry) (argv : List String)
    (inv : Invocation) (marketBytes accountBytes : List UInt8) (text : String)
    (hparse : parse argv = .ok inv) (hplain : inv.Plain)
    (hmarket : contentsOf lookup inv.market = .ok marketBytes)
    (htext : String.fromUTF8? (ByteArray.mk marketBytes.toArray) = some text)
    (hjson : (Json.read marketNesting text).isOk = true)
    (haccount : contentsOf lookup inv.account = .ok accountBytes) :
    run lookup argv = .exited 1 none ∨
      ∃ m account rs, readMarket marketBytes = .ok m ∧
        readAccount accountBytes inv.base64 = some account ∧ Printed inv m account rs ∧
        run lookup argv = .exited 0 (some (Json.pretty (.arr rs) ++ "\n")) := by
  have hrun : run lookup argv = execute lookup inv := by simp [run, hparse]
  rw [hrun]
  rcases readMarket_failed_or_ok htext hjson with hm | ⟨m, hm⟩
  · left
    simp [execute, hplain.logLevel_eq, hmarket, hm, bind, Except.bind]
  cases hacc : readAccount accountBytes inv.base64 with
  | none =>
      left
      simp [execute, hplain.logLevel_eq, hmarket, hm, haccount, hacc, bind, Except.bind, throw,
        throwThe, MonadExceptOf.throw]
  | some account =>
      rcases rows_failed_or_printed m account hplain.depth_ne hplain.history_ne with
        hr | ⟨rs, hr, hp⟩
      · left
        simp [execute, hplain.logLevel_eq, hmarket, hm, haccount, hacc, hr, bind, Except.bind]
      · right
        refine ⟨m, account, rs, hm, rfl, hp, ?_⟩
        simp [execute, hplain.logLevel_eq, hmarket, hm, haccount, hacc, hr, bind, Except.bind]

def unitMarketText : String :=
  "\x7b\"base_lot_size\":1,\"quote_lot_size\":1,\"base_decimals\":0,\"quote_decimals\":0\x7d"

def unitMarketFile : List UInt8 := unitMarketText.toUTF8.toList

def emptyAsksFile : List UInt8 :=
  [115, 101, 114, 117, 109, 65] ++ List.replicate 39 0 ++ [112, 97, 100, 100, 105, 110, 103]

def bookFiles : String → Entry :=
  lookupIn [("/work/market.json", unitMarketFile), ("/work/account.bin", emptyAsksFile)]

/-- An ask book of two orders, at the lot prices `3` and `5` for `10` and `20` lots, in its
account envelope. -/
def twoAsksFile : List UInt8 :=
  [115, 101, 114, 117, 109] ++ LittleEndian.encode 8 0x41 ++
    (LittleEndian.encode 4 3 ++ List.replicate 16 0 ++ LittleEndian.encode 4 0 ++
      LittleEndian.encode 4 2 ++ List.replicate 4 0) ++
    (LittleEndian.encode 4 1 ++ LittleEndian.encode 4 61 ++
      LittleEndian.encode 16 (3 * 2 ^ 64 + 1) ++ LittleEndian.encode 4 1 ++
      LittleEndian.encode 4 2 ++ List.replicate 40 0) ++
    (LittleEndian.encode 4 2 ++ List.replicate 4 0 ++ LittleEndian.encode 16 (3 * 2 ^ 64 + 1) ++
      List.replicate 32 7 ++ LittleEndian.encode 8 10 ++ LittleEndian.encode 8 1) ++
    (LittleEndian.encode 4 2 ++ List.replicate 4 0 ++ LittleEndian.encode 16 (5 * 2 ^ 64 + 2) ++
      List.replicate 32 7 ++ LittleEndian.encode 8 20 ++ LittleEndian.encode 8 2) ++
    [112, 97, 100, 100, 105, 110, 103]

def twoAsksFiles : String → Entry :=
  lookupIn [("/work/market.json", unitMarketFile), ("/work/account.bin", twoAsksFile)]

theorem twoAsks_depth_prints_both_levels :
    (run twoAsksFiles ["book", "--market", "/work/market.json", "--account",
        "/work/account.bin", "--depth=3"] = .exited 1 none ∨
      ∃ m account rs, readMarket unitMarketFile = .ok m ∧
        readAccount twoAsksFile false = some account ∧
        Printed ⟨.book, none, .value "/work/market.json", .value "/work/account.bin", false,
          .value 3, false, none⟩ m account rs ∧
        run twoAsksFiles ["book", "--market", "/work/market.json", "--account",
          "/work/account.bin", "--depth=3"] = .exited 0 (some (Json.pretty (.arr rs) ++ "\n"))) ∧
      run twoAsksFiles ["book", "--market", "/work/market.json", "--account",
          "/work/account.bin", "--depth=3"] =
        .exited 0 (some ("[\n  \x7b\n    \"price\": 3.0,\n    \"size\": 10.0,\n    " ++
          "\"price_lots\": 3,\n    \"size_lots\": 10\n  \x7d,\n  \x7b\n    " ++
          "\"price\": 5.0,\n    \"size\": 20.0,\n    \"price_lots\": 5,\n    " ++
          "\"size_lots\": 20\n  \x7d\n]\n")) :=
  ⟨run_prints_rows_or_fails twoAsksFiles _ ⟨.book, none, .value "/work/market.json",
    .value "/work/account.bin", false, .value 3, false, none⟩ unitMarketFile twoAsksFile
    unitMarketText
    (by decide +kernel) ⟨rfl, by decide, by decide⟩ (by decide +kernel) (by decide +kernel)
    (by decide +kernel) (by decide +kernel), by decide +kernel⟩

/-- `--depth=--` is accepted and gives the depth nothing; the book command then stops unhandled,
after the market and the account are read. -/
theorem depth_given_nothing_stops_unhandled :
    parse ["book", "--market", "/work/market.json", "--account", "/work/account.bin",
        "--depth=--"] =
      .ok ⟨.book, none, .value "/work/market.json", .value "/work/account.bin", false, .nothing,
        false, none⟩ ∧
    run bookFiles ["book", "--market", "/work/market.json", "--account", "/work/account.bin",
        "--depth=--"] = .crashed .emptyCount :=
  ⟨by decide +kernel, by decide +kernel⟩

end Clob.Cli
