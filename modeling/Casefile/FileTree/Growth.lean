import Casefile.FileTree.Lookup

/-!
# Making files and directories

* `FileTree.makeDir` — one directory in an existing one.
* `FileTree.makeDirs` — a directory with those above it.
* `Object`, `FileTree.add` — an object at a path, with the directories above it.
-/

set_option autoImplicit false

namespace Casefile

namespace FileTree

/-- The location of the directory that a path's last step is looked up in, and that step. The root
directory and paths that end in `.` or `..` name something that is there already. -/
def lastStep (t : FileTree) (p : Path) : Except IoFault (Location × Name) :=
  match admissible p with
  | .error e => .error e
  | .ok () =>
    match p.steps.getLast? with
    | none => .error (.os .alreadyExists)
    | some n =>
      match t.resolve true true maxLinks (if p.isAbsolute then [] else t.cwd) p.steps.dropLast with
      | .error e => .error (.os e)
      | .ok loc =>
        if n = [Path.dot] ∨ n = [Path.dot, Path.dot] then .error (.os .alreadyExists)
        else if maxName < n.length then .error (.os .nameTooLong)
        else .ok (loc, n)

/-- The tree with a new directory at a path. -/
def makeDir (t : FileTree) (now : Int) (p : Path) : Except IoFault FileTree :=
  match t.lastStep p with
  | .error e => .error e
  | .ok (loc, n) =>
    match t.at? (loc ++ [n]) with
    | some _ => .error (.os .alreadyExists)
    | none => .ok (t.insert (.dir n now []) loc)

/-- A path and those of the directories above it, the innermost first. -/
def ancestry (p : Path) : List Path :=
  let cs := p.components
  if cs = [] ∨ cs = [.root] then []
  else p :: ((List.range cs.length).reverse.map fun k => cs.take k).filterMap fun above =>
    if above = [] ∨ above = [.root] then none else some (Path.ofComponents above)

/-- Makes the first directory of a list that can be made, and gives those before it, the last
first. -/
def makeOutermost (t : FileTree) (now : Int) :
    List Path → List Path → Except IoFault (FileTree × List Path)
  | [], missing => .ok (t, missing)
  | p :: above, missing =>
    match t.makeDir now p with
    | .ok t => .ok (t, missing)
    | .error e =>
      if e = .os .noSuchFile then t.makeOutermost now above (p :: missing)
      else if e = .os .alreadyExists ∧ t.isDir p then .ok (t, missing)
      else .error e

/-- Makes the directories of a list one after another; one that is there already will do. Those before
the first that cannot be made stay. -/
def makeEach (t : FileTree) (now : Int) : List Path → Except IoFault Unit × FileTree
  | [] => (.ok (), t)
  | p :: inner =>
    match t.makeDir now p with
    | .ok t => t.makeEach now inner
    | .error e =>
      if e = .os .alreadyExists ∧ t.isDir p then t.makeEach now inner else (.error e, t)

/-- Makes a directory at a path together with those above it where they are missing. -/
def makeDirs (t : FileTree) (now : Int) (p : Path) : Except IoFault Unit × FileTree :=
  match t.makeOutermost now (ancestry p) [] with
  | .error e => (.error e, t)
  | .ok (t, missing) => t.makeEach now missing

/-- An object to be made, at a path from the working directory. -/
inductive Object where
  | file (path : Path) (size : Nat) (modified : Int)
  | link (path : Path) (target : List UInt8) (modified : Int)
  | dir (path : Path) (modified : Int)
  deriving Repr

def Object.path : Object → Path
  | .file p _ _ => p
  | .link p _ _ => p
  | .dir p _ => p

/-- The object as it stands in its directory; a directory keeps what it holds. -/
def Object.node (o : Object) (n : Name) (old : Option Node) : Node :=
  match o with
  | .file _ size m => .file n size m
  | .link _ target m => .link n target m
  | .dir _ m => .dir n m ((old.map Node.content).getD [])

/-- The tree with the directories above a path, as far as they can be made. -/
def makeAbove (t : FileTree) (now : Int) (p : Path) : FileTree :=
  match p.parent? with
  | some above => (t.makeDirs now above).2
  | none => t

/-- The tree with an object in a directory that is there. -/
def place (t : FileTree) (o : Object) : FileTree :=
  match t.lastStep o.path with
  | .ok (loc, n) => t.insert (o.node n (t.at? (loc ++ [n]))) loc
  | .error _ => t

/-- The tree with an object, the directories above it made at the time `now` where they are missing.
An object that cannot be placed is left out. -/
def add (t : FileTree) (now : Int) (o : Object) : FileTree :=
  (t.makeAbove now o.path).place o

/-- A file system with one directory at `cwd`, empty and made at the time `now`, to work in. -/
def fresh (now : Int) (cwd : Location) : FileTree :=
  ⟨.dir [] now (nested cwd), cwd⟩
where
  nested : Location → List Node
    | [] => []
    | n :: rest => [.dir n now (nested rest)]

end FileTree

end Casefile
