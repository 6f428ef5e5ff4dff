import RowQuery.CommandLine.Answer
import Std.Time.Zoned

/-!
# The program

Reads the files and the clock that the command line asks for, and prints the answer.
-/

namespace RowQuery.CommandLine

/-- The text of a file, or why there is none. -/
def readFile (path : String) : IO (Except String String) := do
  try
    return .ok (← IO.FS.readFile path)
  catch e =>
    return .error (toString e)

/-- The date of today where the program runs. -/
def today : IO Date := do
  let now ← Std.Time.PlainDate.now
  let date? := Date.ofNumbers? now.year.toInt now.month.val.toNat now.day.val.toNat
  return date?.getD ⟨1970, 1, 1, by decide⟩

end RowQuery.CommandLine

open RowQuery.CommandLine in
/-- Prints the answer to the arguments, or says what went wrong. -/
def main (args : List String) : IO UInt32 := do
  let answer ← run readFile (← today) args
  match answer with
  | .printed text => IO.print text
  | .failed error => IO.eprintln ("error: " ++ error.message)
  | .help => IO.println "Usage: sift [-c FILE] [--log-level LEVEL] keys|suggest|describe|filter|summarize"
  | .misuse => IO.eprintln "error: unexpected arguments; try '--help'"
  return answer.exitCode.toUInt32
