import Casefile.FileTree.Lookup
import Casefile.Proofs.FileTree.Walker

/-!
# File trees that look the same

* `FileTree.look?` — what the operating system tells of the object at a location.
* `FileTree.Alike` — two file systems look the same everywhere.

Principal results: `resolve_cons` — a step of a path depends on nothing but how the tree looks.  `stat_alike` —
so a path leads to objects that look the same.  `walk_alike` — and a walk from there comes upon the same,
unless its root is a link.
-/

set_option autoImplicit false

namespace Casefile

/-- An object that looks like another is a link only if that is one. -/
theorem Node.Alike.not_link {node node' : Node} (h : node.Alike node')
    (hlink : ∀ n target m, node ≠ .link n target m) : ∀ n target m, node' ≠ .link n target m := by
  rintro n target m rfl
  have hlook : node.look = .link target m := Option.some.inj (h [])
  cases node with
  | file => cases hlook
  | link n' target' m' => exact hlink n' target' m' rfl
  | dir => cases hlook

/-- There is something at a location below an object if there is at one that looks the same. -/
theorem Node.Alike.isSome_at? {node node' : Node} (h : node.Alike node') (loc : Location) :
    (node.at? loc).isSome = (node'.at? loc).isSome := by
  have hloc := congrArg Option.isSome (h loc)
  simpa using hloc

namespace FileTree

/-- What the operating system tells of the object at a location. -/
def look? (t : FileTree) (loc : Location) : Option Look :=
  (t.at? loc).map Node.look

variable {t t' : FileTree}

theorem resolve_nil (t : FileTree) (follow wantDir : Bool) (links : Nat) (loc : Location) :
    t.resolve follow wantDir links loc [] =
      if wantDir then
        match t.look? loc with
        | some here => if here.isDir then .ok loc else .error .notADirectory
        | none => .error .noSuchFile
      else .ok loc := by
  unfold resolve look?
  cases t.at? loc with
  | none => rfl
  | some here => cases here <;> rfl

theorem resolve_cons (t : FileTree) (follow wantDir : Bool) (links : Nat) (loc : Location) (n : Name)
    (rest : List Name) :
    t.resolve follow wantDir links loc (n :: rest) =
      match t.look? loc with
      | none => .error .noSuchFile
      | some here =>
        if !here.isDir then .error .notADirectory
        else if maxName < n.length then .error .nameTooLong
        else if n = [Path.dot] then t.resolve follow wantDir links loc rest
        else if n = [Path.dot, Path.dot] then t.resolve follow wantDir links loc.dropLast rest
        else
          match t.look? (loc ++ [n]) with
          | none => .error .noSuchFile
          | some (.link target _) =>
            if rest = [] ∧ !follow ∧ !wantDir then .ok (loc ++ [n])
            else
              match links with
              | 0 => .error .tooManyLinks
              | links + 1 =>
                t.resolve follow (wantDir || (rest = [] && (⟨target⟩ : Path).endsWithSlash)) links
                  (if (⟨target⟩ : Path).isAbsolute then [] else loc) ((⟨target⟩ : Path).steps ++ rest)
          | some _ => t.resolve follow wantDir links (loc ++ [n]) rest := by
  have hstep : t.at? (loc ++ [n]) = (t.at? loc).bind fun here => Node.find? n here.content :=
    Node.at?_concat t.root loc n
  unfold look?
  rw [hstep, resolve]
  cases t.at? loc with
  | none => rfl
  | some here =>
    have hdir : here.look.isDir = here.isDir := by cases here <;> rfl
    simp only [Option.map_some, Option.bind_some, hdir]
    cases Node.find? n here.content with
    | none => rfl
    | some node => cases node <;> rfl

/-- Two file systems look the same everywhere. -/
structure Alike (t t' : FileTree) : Prop where
  cwd : t.cwd = t'.cwd
  root : t.root.Alike t'.root

theorem Alike.look?_eq (h : t.Alike t') (loc : Location) : t.look? loc = t'.look? loc :=
  h.root loc

/-- **The steps of a path lead to the same location in file systems that look the same.** -/
theorem resolve_alike (h : t.Alike t') (follow wantDir : Bool) (links : Nat) (loc : Location)
    (names : List Name) :
    t.resolve follow wantDir links loc names = t'.resolve follow wantDir links loc names := by
  induction links generalizing wantDir loc names with
  | zero =>
    induction names generalizing loc with
    | nil => rw [resolve_nil, resolve_nil, h.look?_eq]
    | cons n rest ih => simp only [resolve_cons, h.look?_eq, ih]
  | succ links ihlinks =>
    induction names generalizing loc with
    | nil => rw [resolve_nil, resolve_nil, h.look?_eq]
    | cons n rest ih => simp only [resolve_cons, h.look?_eq, ih, ihlinks]

theorem stat_alike (h : t.Alike t') {follow : Bool} {p : Path} {node : Node}
    (hstat : t.stat follow p = .ok node) : ∃ node', t'.stat follow p = .ok node' ∧ node.Alike node' := by
  have hlookup : t'.lookup follow p = t.lookup follow p := by
    unfold lookup
    rw [h.cwd]
    simp only [resolve_alike h]
  unfold stat at hstat ⊢
  rw [hlookup]
  split at hstat
  · cases hstat
  · rename_i loc hloc
    split at hstat
    · rename_i hat
      cases hstat
      have hlook := h.look?_eq loc
      unfold look? at hlook
      rw [hat] at hlook
      obtain ⟨node', hat', _⟩ := Option.map_eq_some_iff.1 hlook.symm
      refine ⟨node', by simp only [hat'], fun rest => ?_⟩
      have hrest := h.root (loc ++ rest)
      rw [Node.at?_append, Node.at?_append] at hrest
      unfold FileTree.at? at hat hat'
      rw [hat, hat'] at hrest
      exact hrest
    · cases hstat

/-- **Walks from objects that look the same come upon the same**, unless these are links. -/
theorem walk_alike (h : t.WellFormed) (h' : t'.WellFormed) {root : Path} {node node' : Node}
    (hstat : t.stat false root = .ok node) (hstat' : t'.stat false root = .ok node')
    (halike : node.Alike node') (hlink : ∀ n target m, node ≠ .link n target m) :
    t.walk root = t'.walk root := by
  rw [walk_of_stat h hstat hlink, walk_of_stat h' hstat' (halike.not_link hlink),
    Node.outline_eq_of_alike (h.stat hstat) (h'.stat hstat') halike]

end FileTree

end Casefile
