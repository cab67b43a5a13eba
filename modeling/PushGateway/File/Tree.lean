import PushGateway.File.Fault
import PushGateway.Text.Fields
import PushGateway.Text.Utf8
/-!
Files by path, and the reading of a path from a working directory. The directories above a file exist
because the file does.
-/

namespace PushGateway.File

/-- The names on the way from the root. -/
abbrev Location := List String

inductive Node where
  | file (content : Bytes)
  | directory
  deriving DecidableEq, Repr

structure Tree where
  files : List (Location × Bytes) := []
  directories : List Location := []
  deriving DecidableEq, Repr

namespace Tree

def node? (t : Tree) (l : Location) : Option Node :=
  match t.files.lookup l with
  | some content => some (.file content)
  | none =>
    if l = [] ∨ (t.files.any fun e => l.isPrefixOf e.1) ∨ t.directories.any l.isPrefixOf then some .directory
    else none

def longestName : Nat := 255

def longestPath : Nat := 4095

/-- Follows the names of a path from a location, at which a node stands. -/
def walk (t : Tree) (here : Location) (node : Node) : List String → Except Fault Node
  | [] => .ok node
  | name :: names =>
    match node with
    | .file _ => .error .notDirectory
    | .directory =>
      if name = "" ∨ name = "." then walk t here node names
      else if name = ".." then walk t here.dropLast .directory names
      else if longestName < (Utf8.encode name).length then .error .nameTooLong
      else match t.node? (here ++ [name]) with
        | none => .error .notFound
        | some next => walk t (here ++ [name]) next names

/-- The content of the file that a path names, seen from a working directory. -/
def read (t : Tree) (working : Location) (path : String) : Except Fault Bytes :=
  if path.toList.contains '\x00' then .error .nulInName
  else if path = "" then .error .notFound
  else if longestPath < (Utf8.encode path).length then .error .nameTooLong
  else
    let start := if path.toList.head? = some '/' then [] else working
    match t.walk start .directory ((Text.fields '/' path.toList).map String.ofList) with
    | .error e => .error e
    | .ok .directory => .error .isDirectory
    | .ok (.file content) => .ok content

end Tree

end PushGateway.File
