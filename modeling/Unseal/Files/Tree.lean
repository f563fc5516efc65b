import Unseal.Files.Basic
import Unseal.Files.Path
import Unseal.Text.Utf8

/-!
# Files in memory

A tree of files and directories with the behaviour of those on a disk. Nothing outside the tree
exists.
-/

set_option autoImplicit false

namespace Unseal

inductive FileTree where
  | file (bytes : List UInt8)
  | directory (entries : List (String × FileTree))

namespace FileTree

instance : Inhabited FileTree := ⟨.directory []⟩

def child? (name : String) : List (String × FileTree) → Option FileTree
  | [] => none
  | (n, t) :: rest => if n = name then some t else child? name rest

def putChild (name : String) (t : FileTree) : List (String × FileTree) → List (String × FileTree)
  | [] => [(name, t)]
  | (n, u) :: rest => if n = name then (n, t) :: rest else (n, u) :: putChild name t rest

def put : FileTree → List String → FileTree → FileTree
  | _, [], t => t
  | .directory entries, name :: rest, t =>
    .directory (putChild name (put ((child? name entries).getD (.directory [])) rest t) entries)
  | .file _, name :: rest, t => .directory [(name, put (.directory []) rest t)]

/-- Walks from a directory, the directories above it being at hand for two dots. -/
def walk (above : List FileTree) : FileTree → List String → Except FileFault FileTree
  | t, [] => .ok t
  | .file _, _ :: _ => .error .notDirectory
  | .directory entries, name :: rest =>
    if name = ".." then
      match above with
      | t :: above => walk above t rest
      | [] => .error .notFound
    else match child? name entries with
      | some t => walk (.directory entries :: above) t rest
      | none => .error .notFound

/-- The tree at a path. A path that ends in a slash names a directory. -/
def find (root : FileTree) (path : String) : Except FileFault FileTree :=
  if path.isEmpty || Path.isAbsolute path then .error .notFound
  else if path.toList.contains '\x00' then
    .error (.other "file name contained an unexpected NUL byte")
  else do
    let t ← walk [] root (Path.parts path)
    let named := match (Path.splitSlash path.toList).getLast? with
      | some last => last.isEmpty || last == ['.']
      | none => false
    match t with
    | .file _ => if named then .error .notDirectory else .ok t
    | .directory _ => .ok t

def readText (root : FileTree) (path : String) : Except FileFault String := do
  match ← root.find path with
  | .directory _ => .error .isDirectory
  | .file bytes =>
    match Utf8.decode bytes with
    | .ok text => .ok text
    | .error _ => .error .badEncoding

def list (root : FileTree) (path : String) : Except FileFault (List String) := do
  match ← root.find path with
  | .directory entries => .ok (entries.map (·.1))
  | .file _ => .error .notDirectory

def access (root : FileTree) (input : String) : FileAccess Id where
  readText := root.readText
  list := root.list
  readInput := .ok input

end FileTree
end Unseal
