import Casefile.FileTree.Growth
import Casefile.Proofs.Path
import Mathlib.Data.List.Induction

/-!
# Well-formed file trees

* `Node.WellFormed`, `FileTree.WellFormed` — the objects in every directory have names that can be names,
  no two of them the same.

Principal results: `find?_eq_some_iff` — so a name stands for at most one object of a directory.
`WellFormed.stat` — what a path leads to in a well-formed tree is well-formed.  `wellFormed_grown` — whatever is
made in a new file system, it is well-formed.
-/

set_option autoImplicit false

namespace Casefile

namespace Node

/-- The objects in every directory have valid names, no two of them the same. -/
inductive WellFormed : Node → Prop
  | file (n : Name) (size : Nat) (m : Int) : WellFormed (.file n size m)
  | link (n : Name) (target : List UInt8) (m : Int) : WellFormed (.link n target m)
  | dir (n : Name) (m : Int) {c : List Node} (names : ∀ x ∈ c, Name.Valid x.name)
      (distinct : (c.map name).Nodup) (below : ∀ x ∈ c, x.WellFormed) : WellFormed (.dir n m c)

variable {node root x : Node} {c : List Node} {n : Name} {loc : Location}

theorem WellFormed.empty (n : Name) (m : Int) : (Node.dir n m []).WellFormed :=
  .dir n m (List.forall_mem_nil _) List.nodup_nil (List.forall_mem_nil _)

theorem WellFormed.names (h : node.WellFormed) : ∀ x ∈ node.content, Name.Valid x.name := by
  cases h with
  | file => exact List.forall_mem_nil _
  | link => exact List.forall_mem_nil _
  | dir _ _ names _ _ => exact names

theorem WellFormed.distinct (h : node.WellFormed) : (node.content.map name).Nodup := by
  cases h with
  | file => exact List.nodup_nil
  | link => exact List.nodup_nil
  | dir _ _ _ distinct _ => exact distinct

theorem WellFormed.content (h : node.WellFormed) : ∀ x ∈ node.content, x.WellFormed := by
  cases h with
  | file => exact List.forall_mem_nil _
  | link => exact List.forall_mem_nil _
  | dir _ _ _ _ below => exact below

/-- What holds of an object when it holds of all that a directory contains holds in a well-formed tree. -/
@[elab_as_elim]
theorem WellFormed.content_induction {motive : Node → Prop}
    (step : ∀ node : Node, node.WellFormed → (∀ x ∈ node.content, motive x) → motive node)
    (h : node.WellFormed) : motive node := by
  induction h with
  | file n size m => exact step _ (.file n size m) (List.forall_mem_nil _)
  | link n target m => exact step _ (.link n target m) (List.forall_mem_nil _)
  | dir n m names distinct below ih => exact step _ (.dir n m names distinct below) ih

/-! ## The object of a name -/

theorem mem_of_find? (h : find? n c = some x) : x ∈ c ∧ x.name = n := by
  unfold find? at h
  exact ⟨List.mem_of_find?_eq_some h, by simpa using List.find?_some h⟩

/-- **A name stands for at most one object of a directory.** -/
theorem find?_eq_some_iff (hc : (c.map name).Nodup) : find? n c = some x ↔ x ∈ c ∧ x.name = n := by
  refine ⟨mem_of_find?, ?_⟩
  rintro ⟨hmem, rfl⟩
  induction c with
  | nil => cases hmem
  | cons y ys ih =>
    obtain ⟨hy, hys⟩ := List.nodup_cons.1 hc
    unfold find?
    rcases List.mem_cons.1 hmem with rfl | hmem
    · simp
    · have hne : y.name ≠ x.name := fun heq => hy (heq ▸ List.mem_map_of_mem hmem)
      rw [List.find?_cons_of_neg (by simpa using hne)]
      exact ih hys hmem

/-! ## The object at a location -/

theorem at?_append (root : Node) (loc loc' : Location) :
    root.at? (loc ++ loc') = (root.at? loc).bind fun node => node.at? loc' := by
  induction loc generalizing root with
  | nil => rfl
  | cons n loc ih =>
    simp only [List.cons_append, at?]
    cases find? n root.content with
    | none => rfl
    | some inner => exact ih inner

theorem at?_concat (root : Node) (loc : Location) (n : Name) :
    root.at? (loc ++ [n]) = (root.at? loc).bind fun node => find? n node.content := by
  rw [at?_append]
  congr 1
  funext node
  simp only [at?]
  cases find? n node.content <;> rfl

theorem WellFormed.at? (h : root.WellFormed) (hat : root.at? loc = some node) : node.WellFormed := by
  induction loc generalizing root with
  | nil =>
    cases hat
    exact h
  | cons n loc ih =>
    unfold Node.at? at hat
    split at hat
    · rename_i inner hfind
      exact ih (h.content inner (mem_of_find? hfind).1) hat
    · cases hat

end Node

namespace FileTree

/-- The objects in every directory have valid names, no two of them the same. -/
def WellFormed (t : FileTree) : Prop :=
  t.root.WellFormed

variable {t : FileTree}

/-- What a path leads to in a well-formed tree is well-formed. -/
theorem WellFormed.stat (h : t.WellFormed) {follow : Bool} {p : Path} {node : Node}
    (hstat : t.stat follow p = .ok node) : node.WellFormed := by
  unfold FileTree.stat at hstat
  split at hstat
  · cases hstat
  · split at hstat
    · rename_i hat
      cases hstat
      exact Node.WellFormed.at? h hat
    · cases hstat

/-- A path that leads to anything is one that the operating system looks at. -/
theorem admissible_of_stat {follow : Bool} {p : Path} {node : Node}
    (hstat : t.stat follow p = .ok node) : p.bytes ≠ [] ∧ p.bytes.length < maxPath := by
  have hadm : admissible p = .ok () := by
    unfold FileTree.stat lookup at hstat
    cases h : admissible p with
    | error e => simp [h] at hstat
    | ok => rfl
  unfold admissible at hadm
  split at hadm
  · cases hadm
  · split at hadm
    · cases hadm
    · split at hadm
      · cases hadm
      · rename_i hne hlen
        exact ⟨hne, Nat.lt_of_not_le hlen⟩

end FileTree

/-! ## Making objects -/

namespace Node

variable {node root x : Node} {c : List Node} {n : Name} {loc : Location}

theorem mem_put (h : x ∈ put node c) : x = node ∨ x ∈ c := by
  induction c with
  | nil => exact .inl (List.mem_singleton.1 h)
  | cons y ys ih =>
    unfold put at h
    split at h
    · exact (List.mem_cons.1 h).imp_right (List.mem_cons_of_mem y)
    · rcases List.mem_cons.1 h with rfl | h
      · exact .inr List.mem_cons_self
      · exact (ih h).imp_right (List.mem_cons_of_mem y)

/-- An object takes the place of the one of its name. -/
theorem nodup_put (hc : (c.map name).Nodup) : ((put node c).map name).Nodup := by
  induction c with
  | nil => simp [put]
  | cons y ys ih =>
    obtain ⟨hy, hys⟩ := List.nodup_cons.1 hc
    unfold put
    split
    · rename_i heq
      rw [List.map_cons, List.nodup_cons]
      exact ⟨heq ▸ hy, hys⟩
    · rename_i hne
      rw [List.map_cons, List.nodup_cons]
      refine ⟨fun hmem => ?_, ih hys⟩
      obtain ⟨x, hx, hname⟩ := List.mem_map.1 hmem
      rcases mem_put hx with rfl | hx
      · exact hne hname.symm
      · exact hy (hname ▸ List.mem_map_of_mem hx)

theorem WellFormed.put {m : Int} (h : (Node.dir n m c).WellFormed) (hnode : node.WellFormed)
    (hname : Name.Valid node.name) : (Node.dir n m (Node.put node c)).WellFormed := by
  refine .dir n m ?_ (nodup_put h.distinct) ?_
  · intro x hx
    rcases mem_put hx with rfl | hx
    · exact hname
    · exact h.names x hx
  · intro x hx
    rcases mem_put hx with rfl | hx
    · exact hnode
    · exact h.content x hx

theorem insert_dir (node : Node) (n : Name) (m : Int) (c : List Node) (step : Name) (rest : Location) :
    insert node (.dir n m c) (step :: rest) =
      match find? step c with
      | some inner => .dir n m (put (insert node inner rest) c)
      | none => .dir n m c := rfl

theorem name_insert (node root : Node) (loc : Location) : (insert node root loc).name = root.name := by
  cases loc with
  | nil => cases root <;> rfl
  | cons step rest =>
    cases root with
    | file => rfl
    | link => rfl
    | dir n m c => rw [insert_dir]; split <;> rfl

/-- **A tree stays well-formed when an object is put into it.** -/
theorem WellFormed.insert (h : root.WellFormed) (hnode : node.WellFormed) (hname : Name.Valid node.name) :
    (Node.insert node root loc).WellFormed := by
  induction loc generalizing root with
  | nil =>
    cases root with
    | file => exact h
    | link => exact h
    | dir n m c => exact h.put hnode hname
  | cons step rest ih =>
    cases root with
    | file => exact h
    | link => exact h
    | dir n m c =>
      rw [insert_dir]
      split
      · rename_i inner hfind
        obtain ⟨hmem, _⟩ := mem_of_find? hfind
        refine h.put (ih (h.content inner hmem)) ?_
        rw [name_insert]
        exact h.names inner hmem
      · exact h

end Node

namespace FileTree

variable {t t' : FileTree} {now : Int}

theorem WellFormed.insert (h : t.WellFormed) {node : Node} (hnode : node.WellFormed)
    (hname : Name.Valid node.name) (loc : Location) : (t.insert node loc).WellFormed :=
  Node.WellFormed.insert h hnode hname

/-- What a path's last step makes is a name. -/
theorem valid_of_lastStep {p : Path} {loc : Location} {n : Name} (h : t.lastStep p = .ok (loc, n)) :
    Name.Valid n := by
  unfold lastStep at h
  split at h
  · cases h
  · rename_i hadm
    split at h
    · cases h
    · rename_i n' hlast
      split at h
      · cases h
      · split at h
        · cases h
        · rename_i hdots
          split at h
          · cases h
          · cases h
            have hnul : 0 ∉ p.bytes := by
              intro hmem
              simp [admissible, hmem] at hadm
            rw [not_or] at hdots
            exact Path.valid_of_mem_steps hnul (List.mem_of_getLast? hlast) hdots.1 hdots.2

theorem WellFormed.makeDir (h : t.WellFormed) {p : Path} (hmake : t.makeDir now p = .ok t') :
    t'.WellFormed := by
  unfold FileTree.makeDir at hmake
  split at hmake
  · cases hmake
  · rename_i loc n hlast
    split at hmake
    · cases hmake
    · cases hmake
      exact h.insert (Node.WellFormed.empty n now) (valid_of_lastStep hlast) loc

theorem WellFormed.makeOutermost (h : t.WellFormed) {paths missing missing' : List Path}
    (hmake : t.makeOutermost now paths missing = .ok (t', missing')) : t'.WellFormed := by
  induction paths generalizing missing with
  | nil =>
    cases hmake
    exact h
  | cons p above ih =>
    unfold FileTree.makeOutermost at hmake
    split at hmake
    · rename_i t'' hdir
      cases hmake
      exact h.makeDir hdir
    · split at hmake
      · exact ih hmake
      · split at hmake
        · cases hmake
          exact h
        · cases hmake

theorem WellFormed.makeEach (h : t.WellFormed) (paths : List Path) :
    (t.makeEach now paths).2.WellFormed := by
  induction paths generalizing t with
  | nil => exact h
  | cons p inner ih =>
    unfold FileTree.makeEach
    split
    · rename_i t' hdir
      exact ih (h.makeDir hdir)
    · split
      · exact ih h
      · exact h

theorem WellFormed.makeDirs (h : t.WellFormed) (p : Path) : (t.makeDirs now p).2.WellFormed := by
  unfold FileTree.makeDirs
  split
  · exact h
  · rename_i t' missing hmake
    exact (h.makeOutermost hmake).makeEach missing

/-- An object stands in a well-formed tree as a well-formed one. -/
theorem WellFormed.node (h : t.WellFormed) (o : Object) (n : Name) (loc : Location) :
    (o.node n (t.at? loc)).WellFormed := by
  cases o with
  | file p size m => exact .file n size m
  | link p target m => exact .link n target m
  | dir p m =>
    cases hold : t.at? loc with
    | none => exact Node.WellFormed.empty n m
    | some old =>
      have hwf : old.WellFormed := Node.WellFormed.at? h hold
      exact .dir n m hwf.names hwf.distinct hwf.content

theorem name_node (o : Object) (n : Name) (old : Option Node) : (o.node n old).name = n := by
  cases o <;> rfl

theorem WellFormed.makeAbove (h : t.WellFormed) (p : Path) : (t.makeAbove now p).WellFormed := by
  unfold FileTree.makeAbove
  split
  · exact h.makeDirs _
  · exact h

theorem WellFormed.place (h : t.WellFormed) (o : Object) : (t.place o).WellFormed := by
  unfold FileTree.place
  split
  · rename_i loc n hlast
    refine h.insert (h.node o n _) ?_ loc
    rw [name_node]
    exact valid_of_lastStep hlast
  · exact h

/-- **A file system stays well-formed when an object is made.** -/
theorem WellFormed.add (h : t.WellFormed) (o : Object) : (t.add now o).WellFormed :=
  (h.makeAbove o.path).place o

theorem wellFormed_nested (n : Name) (now : Int) {cwd : Location} (hcwd : ∀ n ∈ cwd, Name.Valid n) :
    (Node.dir n now (fresh.nested now cwd)).WellFormed := by
  induction cwd generalizing n with
  | nil => exact Node.WellFormed.empty n now
  | cons k cwd ih =>
    obtain ⟨hk, hcwd⟩ := List.forall_mem_cons.1 hcwd
    exact .dir n now (List.forall_mem_singleton.2 hk) (List.pairwise_singleton _ _)
      (List.forall_mem_singleton.2 (ih k hcwd))

/-- A new file system in which some objects have been made one after another. -/
def grown (now : Int) (cwd : Location) (objects : List Object) : FileTree :=
  objects.foldl (add · now) (fresh now cwd)

/-- **Whatever is made in a new file system, it is well-formed.** -/
theorem wellFormed_grown (now : Int) {cwd : Location} (hcwd : ∀ n ∈ cwd, Name.Valid n)
    (objects : List Object) : (grown now cwd objects).WellFormed := by
  unfold grown
  induction objects using List.reverseRecOn with
  | nil => exact wellFormed_nested [] now hcwd
  | append_singleton objects o ih =>
    rw [List.foldl_append]
    exact ih.add o

/-- A directory with a link that leads nowhere, a file from before 1970 and a directory, and a link to it. -/
def oddments : List Object :=
  [.link (.ofString "in/z") (Text.Utf8.bytes "../x") 7, .file (.ofString "in/a-b") 3 (-5),
    .file (.ofString "in/a/b") 1 6, .dir (.ofString "in/a") 5, .link (.ofString "l") (Text.Utf8.bytes "in") 7,
    .dir (.ofString "in") 4]

/-- The directory among them. -/
def oddDirectory : Node :=
  .dir (Text.Utf8.bytes "in") 4
    [.link (Text.Utf8.bytes "z") (Text.Utf8.bytes "../x") 7, .file (Text.Utf8.bytes "a-b") 3 (-5),
      .dir (Text.Utf8.bytes "a") 5 [.file (Text.Utf8.bytes "b") 1 6]]

/-- A file system with these objects. -/
def oddTree : FileTree :=
  grown 0 [] oddments

theorem oddTree_wellFormed : oddTree.WellFormed :=
  wellFormed_grown 0 (List.forall_mem_nil _) oddments

end FileTree

end Casefile
