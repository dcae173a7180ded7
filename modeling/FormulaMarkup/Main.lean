import FormulaMarkup.CommandLine.Run

/-!
# The command
-/

namespace FormulaMarkup.CommandLine

/-- Why the system refuses to read. -/
def readErrorOf : IO.Error → ReadError
  | .permissionDenied .. => .denied
  | .inappropriateType .. => .directory
  | _ => .missing

/-- All bytes of a stream after those that have been read. -/
partial def readRest (stream : IO.FS.Stream) (bytes : ByteArray) : IO ByteArray := do
  let more ← stream.read 65536
  if more.isEmpty then return bytes else readRest stream (bytes ++ more)

/-- Bytes, or why there are none. -/
def attempt (bytes : IO ByteArray) : IO (Except ReadError ByteArray) := do
  match ← bytes.toBaseIO with
  | .ok bytes => return .ok bytes
  | .error e => return .error (readErrorOf e)

def systemSources : Sources IO where
  file name := attempt (IO.FS.readBinFile name)
  input := attempt do readRest (← IO.getStdin) .empty

end FormulaMarkup.CommandLine

open FormulaMarkup.CommandLine in
def main (arguments : List String) : IO UInt32 := do
  let outcome ← run systemSources arguments
  match outcome with
  | .printed text => IO.print text
  | .failed message => IO.eprintln message
  | .misused => IO.eprintln usageText
  return outcome.code.toUInt32
