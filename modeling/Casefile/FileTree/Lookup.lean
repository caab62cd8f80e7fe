import Casefile.Failure
import Casefile.FileTree

/-!
# Looking a path up

* `FileTree.resolve` — follows the steps of a path from a location, through links.
* `FileTree.lookup` — the object a path leads to; the last step may be kept as a link.

A path whose last step is a link is followed when a slash or `/.` stands behind it. At most
`maxLinks` links are followed, names have at most `maxName` bytes and paths less than `maxPath`.
-/

set_option autoImplicit false

namespace Casefile

namespace FileTree

def maxLinks : Nat := 40
def maxName : Nat := 255
def maxPath : Nat := 4096

/-- Where the steps `names` lead from `loc`. `follow` asks for a link in the last step to be
followed, `wantDir` for the end to be a directory, and `links` more links may be followed. -/
def resolve (t : FileTree) (follow wantDir : Bool) (links : Nat) (loc : Location) :
    List Name → Except Errno Location
  | [] =>
    if wantDir then
      match t.at? loc with
      | some node => if node.isDir then .ok loc else .error .notADirectory
      | none => .error .noSuchFile
    else .ok loc
  | n :: rest =>
    match t.at? loc with
    | none => .error .noSuchFile
    | some here =>
      if !here.isDir then .error .notADirectory
      else if maxName < n.length then .error .nameTooLong
      else if n = [Path.dot] then t.resolve follow wantDir links loc rest
      else if n = [Path.dot, Path.dot] then t.resolve follow wantDir links loc.dropLast rest
      else
        match Node.find? n here.content with
        | none => .error .noSuchFile
        | some (.link _ target _) =>
          if rest = [] ∧ !follow ∧ !wantDir then .ok (loc ++ [n])
          else
            match links with
            | 0 => .error .tooManyLinks
            | links + 1 =>
              let aim : Path := ⟨target⟩
              t.resolve follow (wantDir || (rest = [] && aim.endsWithSlash)) links
                (if aim.isAbsolute then [] else loc) (aim.steps ++ rest)
        | some _ => t.resolve follow wantDir links (loc ++ [n]) rest
  termination_by names => (links, names.length)

/-- Whether a path is one the operating system looks at. -/
def admissible (p : Path) : Except IoFault Unit :=
  if 0 ∈ p.bytes then .error .nulInPath
  else if p.bytes = [] then .error (.os .noSuchFile)
  else if maxPath ≤ p.bytes.length then .error (.os .nameTooLong)
  else .ok ()

/-- The location a path leads to. With `follow` a link at its end is followed, too. -/
def lookup (t : FileTree) (follow : Bool) (p : Path) : Except IoFault Location :=
  match admissible p with
  | .error e => .error e
  | .ok () =>
    match t.resolve follow p.endsWithSlash maxLinks (if p.isAbsolute then [] else t.cwd) p.steps with
    | .error e => .error (.os e)
    | .ok loc => .ok loc

/-- The object a path leads to. -/
def stat (t : FileTree) (follow : Bool) (p : Path) : Except IoFault Node :=
  match t.lookup follow p with
  | .error e => .error e
  | .ok loc =>
    match t.at? loc with
    | some node => .ok node
    | none => .error (.os .noSuchFile)

/-- Whether a path leads to a directory. -/
def isDir (t : FileTree) (p : Path) : Bool :=
  match t.stat true p with
  | .ok node => node.isDir
  | .error _ => false

end FileTree

end Casefile
