/-!
# Access to files

What the program needs of the world: the text of a file, the names in a directory and the
standard input. Everything above this is the same for files on a disk and files in memory.
-/

set_option autoImplicit false

namespace Unseal

inductive FileFault where
  | notFound | notDirectory | isDirectory | badEncoding
  | other (message : String)
deriving DecidableEq, Repr

def FileFault.message : FileFault → String
  | notFound => "No such file or directory (os error 2)"
  | notDirectory => "Not a directory (os error 20)"
  | isDirectory => "Is a directory (os error 21)"
  | badEncoding => "stream did not contain valid UTF-8"
  | other message => message

structure FileAccess (m : Type → Type) where
  readText : String → m (Except FileFault String)
  /-- The names of the entries of a directory. -/
  list : String → m (Except FileFault (List String))
  readInput : m (Except FileFault String)

end Unseal
