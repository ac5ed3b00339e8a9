import Abacus.CommandLine

/-!
# The program

Reads what the invocation needs, and writes the response.
-/

namespace Abacus

/-- The number of an error of the system, which may come negated in 32 bits. -/
def systemNumber? : IO.Error → Option Nat
  | .noFileOrDirectory _ code _ => some (absolute code)
  | .permissionDenied _ code _ => some (absolute code)
  | .inappropriateType _ code _ => some (absolute code)
  | .invalidArgument _ code _ => some (absolute code)
  | _ => none
where
  /-- The number without its sign. -/
  absolute (code : UInt32) : Nat := code.toInt32.toInt.natAbs

/-- Why a file could not be read. -/
def readFailure (failure : IO.Error) : Response.ReadFailure :=
  ((systemNumber? failure).bind Response.ReadFailure.ofNumber?).getD (.other (toString failure))

/-- The bytes of a file, or why there are none. -/
def readFile (path : String) : IO (Except Response.ReadFailure ByteArray) := do
  try
    return .ok (← IO.FS.readBinFile path)
  catch failure =>
    return .error (readFailure failure)

/-- The content of the file that an invocation names. -/
def fileContent : Invocation → IO (Except Response.ReadFailure ByteArray)
  | .file path _ => readFile path
  | _ => return .error .notFound

/-- The standard input, if an invocation reads it. -/
def standardInput : Invocation → IO ByteArray
  | .prompt _ => do (← IO.getStdin).readBinToEnd
  | _ => return ByteArray.empty

end Abacus

/-- Runs the program. -/
def main (arguments : List String) : IO UInt32 := do
  let invocation := Abacus.Invocation.ofArguments arguments
  let content ← Abacus.fileContent invocation
  let input ← Abacus.standardInput invocation
  let response := invocation.respond content input
  IO.print response.out
  IO.eprint response.err
  return response.code
