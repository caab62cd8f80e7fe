import Casefile.FileTree.Lookup

/-!
# Walking a file tree

* `Look` — what the operating system tells of an object without following a link.
* `Finding` — what a walk comes upon: an object, or something that cannot be read.
* `Node.sorted` — a tree with the content of every directory in the order of the names' bytes.
* `Node.walk` — all there is at and below an object, a directory before its content.
* `FileTree.walk` — the walk from a root path.

A walk follows no links, except at its root: where that is a link to a directory, the walk goes through
what the directory holds, and where it leads nowhere, there is nothing else to be found. A tree does not
say what may not be read; scans take the walk as a parameter, and this one is an instance.
-/

set_option autoImplicit false

namespace Casefile

/-- What the operating system tells of an object without following a link. -/
inductive Look where
  | file (size : Nat) (modified : Int)
  | link (target : List UInt8) (modified : Int)
  | dir (modified : Int)
  deriving DecidableEq, Repr

namespace Look

def isDir : Look → Bool
  | .dir _ => true
  | _ => false

/-- The number of bytes; that of a directory says nothing about it and is left out. -/
def length : Look → Nat
  | .file size _ => size
  | .link target _ => target.length
  | .dir _ => 0

def modified : Look → Int
  | .file _ m => m
  | .link _ m => m
  | .dir m => m

end Look

/-- What a walk comes upon. -/
inductive Finding where
  /-- An object at a path, so many steps below the root, and what the operating system tells of it. -/
  | object (path : Path) (depth : Nat) (look : Except IoFault Look)
  /-- Something that cannot be read, at a path if one is known. -/
  | fault (path? : Option Path) (e : IoFault)
  deriving Repr

/-- A path too long for the operating system. -/
def Path.tooLong (p : Path) : Bool :=
  FileTree.maxPath ≤ p.bytes.length

namespace Node

def look : Node → Look
  | .file _ size m => .file size m
  | .link _ target m => .link target m
  | .dir _ m _ => .dir m

/-- What the operating system tells of the object at a path. -/
def lookAt (p : Path) (node : Node) : Except IoFault Look :=
  if p.tooLong then .error (.os .nameTooLong) else .ok node.look

mutual

/-- The tree with the content of every directory in the order of the names. -/
def sorted : Node → Node
  | .file n size m => .file n size m
  | .link n target m => .link n target m
  | .dir n m c => .dir n m ((sortedEach c).mergeSort fun a b => a.name ≤ b.name)

/-- `sorted` for each of some trees. -/
def sortedEach : List Node → List Node
  | [] => []
  | x :: xs => x.sorted :: sortedEach xs

end

mutual

/-- All there is at and below an object of the directory at `above`. -/
def walk (above : Path) (depth : Nat) : Node → List Finding
  | .file n size m => [.object (above.child n) depth (lookAt (above.child n) (.file n size m))]
  | .link n target m => [.object (above.child n) depth (lookAt (above.child n) (.link n target m))]
  | .dir n m c =>
    let p := above.child n
    .object p depth (lookAt p (.dir n m c)) ::
      if p.tooLong then [.fault (some p) (.os .nameTooLong)] else walkEach p (depth + 1) c

/-- `walk` for each of some objects. -/
def walkEach (above : Path) (depth : Nat) : List Node → List Finding
  | [] => []
  | x :: xs => walk above depth x ++ walkEach above depth xs

end

end Node

namespace FileTree

/-- All that a walk from a root path comes upon. A tree keeps no permissions, so that this walk may list every
directory and fails only at paths that are too long. -/
def walk (t : FileTree) (root : Path) : List Finding :=
  match t.stat false root with
  | .error e => [.fault (some root) e]
  | .ok (.link _ target m) =>
    match t.stat true root with
    | .error e => [.fault (some root) e]
    | .ok aim => .object root 0 (.ok (.link target m)) :: Node.walkEach root 1 aim.sorted.content
  | .ok node => .object root 0 (.ok node.look) :: Node.walkEach root 1 node.sorted.content

end FileTree

end Casefile
