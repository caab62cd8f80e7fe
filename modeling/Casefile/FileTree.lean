import Casefile.Path

/-!
# File trees

* `Node` — a named object of a file system: a file, a symbolic link or a directory with its content
  in the order in which it was made.
* `FileTree` — the root directory and the working directory.
* `Node.at?` — the object at a location, a list of names from the root directory.
-/

set_option autoImplicit false

namespace Casefile

/-- A named object of a file system. Times are seconds since 1970. -/
inductive Node where
  | file (name : Name) (size : Nat) (modified : Int)
  | link (name : Name) (target : List UInt8) (modified : Int)
  | dir (name : Name) (modified : Int) (content : List Node)
  deriving Repr

/-- Names from the root directory, with no `.`, no `..` and no link on the way. -/
abbrev Location := List Name

namespace Node

def name : Node → Name
  | .file n _ _ => n
  | .link n _ _ => n
  | .dir n _ _ => n

def modified : Node → Int
  | .file _ _ m => m
  | .link _ _ m => m
  | .dir _ m _ => m

def isDir : Node → Bool
  | .dir _ _ _ => true
  | _ => false

/-- The objects in a directory; nothing for any other object. -/
def content : Node → List Node
  | .dir _ _ c => c
  | _ => []

/-- The object of a name among the objects of a directory. -/
def find? (n : Name) (c : List Node) : Option Node :=
  c.find? (·.name = n)

/-- The object at a location below this one. -/
def at? (root : Node) : Location → Option Node
  | [] => some root
  | n :: rest =>
    match find? n root.content with
    | some node => node.at? rest
    | none => none

/-- The objects of a directory with `node` in the place of the one of its name, or at the end. -/
def put (node : Node) : List Node → List Node
  | [] => [node]
  | x :: xs => if x.name = node.name then node :: xs else x :: put node xs

/-- The tree with `node` put into the directory at a location; unchanged if there is none. -/
def insert (node : Node) (root : Node) : Location → Node
  | [] =>
    match root with
    | .dir n m c => .dir n m (put node c)
    | other => other
  | step :: rest =>
    match root with
    | .dir n m c =>
      match find? step c with
      | some inner => .dir n m (put (insert node inner rest) c)
      | none => root
    | other => other

end Node

/-- The root directory of a file system and the location of the working directory. -/
structure FileTree where
  root : Node
  cwd : Location
  deriving Repr

namespace FileTree

/-- The object at a location. -/
def at? (t : FileTree) (loc : Location) : Option Node :=
  t.root.at? loc

/-- The tree with `node` put into the directory at a location. -/
def insert (t : FileTree) (node : Node) (loc : Location) : FileTree :=
  { t with root := Node.insert node t.root loc }

end FileTree

end Casefile
