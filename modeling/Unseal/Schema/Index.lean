import Unseal.Json.Basic

/-!
# Documents at hand

The schema documents that references may name, each under its file name and under the
identifier it gives itself. Nothing is ever fetched from elsewhere.
-/

set_option autoImplicit false

namespace Unseal

structure Index where
  entries : Members Json
deriving Inhabited

namespace Index

def empty : Index := ⟨[]⟩

def identifier? (document : Json) : Option String :=
  match document.get? "$id" with
  | some (.str id) => some id
  | _ => none

/-- A file comes after those already there and takes their names from them. -/
def add (index : Index) (file : String × Json) : Index :=
  let entries := match identifier? file.2 with
    | some id => index.entries.insert id file.2
    | none => index.entries
  ⟨entries.insert file.1 file.2⟩

def ofFiles (files : List (String × Json)) : Index := files.foldl add empty

def lastSegment (uri : String) : String :=
  String.ofList (uri.toList.reverse.takeWhile (· != '/')).reverse

/-- A document by the whole identifier, or else by its last segment. -/
def find? (index : Index) (uri : String) : Option Json :=
  (index.entries.find? uri).or (index.entries.find? (lastSegment uri))

end Index
end Unseal
