/-!
# File paths

A path is a text; slashes separate its parts, of which empty ones and single dots mean nothing.
-/

set_option autoImplicit false

namespace Unseal.Path

def splitSlash : List Char → List (List Char)
  | [] => [[]]
  | c :: cs =>
    if c = '/' then [] :: splitSlash cs
    else match splitSlash cs with
      | part :: parts => (c :: part) :: parts
      | [] => [[c]]

def parts (path : String) : List String :=
  ((splitSlash path.toList).filter fun p => !p.isEmpty && p != ['.']).map String.ofList

def isAbsolute (path : String) : Bool := path.toList.head? == some '/'

def fileName? (path : String) : Option String :=
  match (parts path).getLast? with
  | some name => if name = ".." then none else some name
  | none => none

/-- What follows the last dot of the name, unless the name has no other beginning. -/
def extension (path : String) : String :=
  match fileName? path with
  | none => ""
  | some name =>
    let back := name.toList.reverse.takeWhile (· != '.')
    if name.length ≤ back.length + 1 then "" else String.ofList back.reverse

/-- Slashes and dots at the end that mean nothing. -/
def trimEnd (back : List Char) : List Char :=
  match back with
  | '/' :: rest => trimEnd rest
  | '.' :: '/' :: rest => trimEnd rest
  | back => back

def parent? (path : String) : Option String :=
  let back := trimEnd path.toList.reverse
  let before := back.dropWhile (· != '/')
  if (parts path).isEmpty && !(path.toList.head? == some '.') then none
  else
    let text := (trimEnd before).reverse
    some (String.ofList (if text.isEmpty && isAbsolute path then ['/'] else text))

def join (base path : String) : String :=
  if isAbsolute path || base.isEmpty then path
  else if base.toList.getLast? = some '/' then base ++ path
  else base ++ "/" ++ path

end Unseal.Path
