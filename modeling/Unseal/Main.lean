import Unseal.Program
import Unseal.Text.Utf8

/-!
# The command

The program on real files. Everything that is decided is decided elsewhere; here files are read
and texts printed.
-/

set_option autoImplicit false

namespace Unseal.Main

/-- A fault of the system in the words of `FileFault`. -/
def fault : IO.Error → FileFault
  | .noFileOrDirectory _ _ _ => .notFound
  | .inappropriateType _ code details =>
    if code = 20 then .notDirectory
    else if code = 21 then .isDirectory
    else .other (details ++ " (os error " ++ toString code ++ ")")
  | .permissionDenied _ code details => .other (details ++ " (os error " ++ toString code ++ ")")
  | e => .other (toString e)

def decode (bytes : ByteArray) : Except FileFault String :=
  match Utf8.decode bytes.toList with
  | .ok text => .ok text
  | .error _ => .error .badEncoding

def reading (action : IO ByteArray) : IO (Except FileFault String) := do
  try
    return decode (← action)
  catch e => return .error (fault e)

def names (path : String) : IO (Except FileFault (List String)) := do
  try
    let entries ← (System.mkFilePath [path]).readDir
    return .ok ((entries.toList.map (·.fileName)).mergeSort fun a b => decide (a ≤ b))
  catch e => return .error (fault e)

def files : FileAccess IO where
  readText path := reading (IO.FS.readBinFile path)
  list := names
  readInput := reading do (← IO.getStdin).readBinToEnd

end Unseal.Main

def main (words : List String) : IO UInt32 := do
  let outcome ← Unseal.runProgram Unseal.Main.files words
  IO.print outcome.output
  IO.eprint outcome.errors
  return UInt32.ofNat outcome.status
