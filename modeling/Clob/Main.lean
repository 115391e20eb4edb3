import Clob.Cli.Run
/-!
# Command-line entry point

Reads the two files that a well-formed command line names, runs it, prints what it prints and
exits with its code; an unhandled error is reported on standard error, with exit code 1.
-/

open Clob.Cli

/-- What a path names here. A read that fails with errno 21 found a directory, and one that
fails with errno 36 (reported negated by the file layer) a name too long; any other failure
counts as nothing there. -/
def entryAt (path : String) : IO Entry := do
  try
    let bytes ← IO.FS.readBinFile path
    pure (.file bytes.toList)
  catch e =>
    pure (match e with
      | .inappropriateType _ 21 _ => .directory
      | .invalidArgument _ code _ => if code == 36 || code == 0 - 36 then .nameTooLong else .missing
      | _ => .missing)

def main (args : List String) : IO UInt32 := do
  let lookup ← match parse args with
    | .ok inv => do
      let paths := [inv.market, inv.account].filterMap fun
        | .value p => some (normalizePath p)
        | .nothing => none
      let entries ← paths.mapM fun p => do pure (p, ← entryAt p)
      pure fun p => (entries.lookup p).getD Entry.missing
    | .error _ => pure fun _ => Entry.missing
  match run lookup args with
  | .exited code stdout =>
    if let some text := stdout then
      IO.print text
    pure code.toUInt32
  | .crashed c =>
    IO.eprintln c.message
    pure 1
