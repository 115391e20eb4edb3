import Clob.Prelude
/-!
# Paths and what they name

A path that names a file on the command line is put in normal form before the file is read.
The components between slashes that are empty or `.` are dropped, so doubled and trailing
slashes and `.` steps vanish, while `..` stays. A path that starts with exactly two slashes
keeps both, one that starts with one or with three or more keeps one, and a path with nothing
left is `.`.

A path read from the command line names a file with its contents, a directory, nothing, or is
refused because a name in it is longer than the system allows. `Cli.lookupIn` gives the answer
for a file system holding a list of files, whose only known directories are the root, the
working directory and those above them (paths whose every step is `..`).

The system looks a path up step by step. It refuses the path outright when its encoded form
takes `4096` bytes or more, or holds a zero byte (then nothing is found); otherwise the first
step that is not `..` is looked up in a directory that exists, and a step of more than `255`
bytes is refused there. Paths are compared by their steps and whether they are absolute, so a
path led by two slashes names the same file as with one.
-/

namespace Clob.Cli

def pathRoot (p : String) : String :=
  match p.toList with
  | '/' :: '/' :: '/' :: _ => "/"
  | '/' :: '/' :: _ => "//"
  | '/' :: _ => "/"
  | _ => ""

def pathComponents (p : String) : List String :=
  (p.toList.splitOn '/').map String.ofList

def pathSteps (p : String) : List String :=
  (pathComponents p).filter fun s => !s.isEmpty && s != "."

def normalizePath (p : String) : String :=
  let text := pathRoot p ++ "/".intercalate (pathSteps p)
  if text.isEmpty then "." else text

theorem mem_pathSteps {p s : String} (h : s ∈ pathSteps p) :
    s ∈ pathComponents p ∧ s ≠ "" ∧ s ≠ "." := by
  simp only [pathSteps, List.mem_filter, Bool.and_eq_true, Bool.not_eq_true',
    String.isEmpty_eq_false_iff, bne_iff_ne, ne_eq] at h
  exact ⟨h.1, h.2.1, h.2.2⟩

inductive Entry where
  | file (contents : List UInt8)
  | directory
  | missing
  | nameTooLong
  deriving DecidableEq, Repr

def pathByteLimit : Nat := 4096

def nameByteLimit : Nat := 255

def isAbsolute (p : String) : Bool := !(pathRoot p).isEmpty

def namesDirectory (p : String) : Bool := (pathSteps p).all (· == "..")

def isTooLong (p : String) : Bool :=
  p.utf8ByteSize ≥ pathByteLimit ||
    match (pathSteps p).find? (· != "..") with
    | some step => step.utf8ByteSize > nameByteLimit
    | none => false

def samePlace (p q : String) : Bool :=
  isAbsolute p == isAbsolute q && pathSteps p == pathSteps q

def lookupIn (files : List (String × List UInt8)) (p : String) : Entry :=
  if p.toList.contains '\x00' then .missing
  else if isTooLong p then .nameTooLong
  else
    match files.find? (samePlace p ·.1) with
    | some (_, contents) => .file contents
    | none => if namesDirectory p then .directory else .missing

end Clob.Cli
