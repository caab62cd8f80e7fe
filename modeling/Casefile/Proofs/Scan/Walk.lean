import Casefile.Proofs.Ingest.Mirror
import Casefile.Proofs.Scan.Collection

/-!
# The entries of a scan can be recorded

* `Node.SizesFit`, `FileTree.SizesFit` — no file and no link is longer than a row can say.
* `Finding.SizeFits` — an object that a walk comes upon is not longer than that.

Principal results: `FileTree.walk_fits` — what a walk comes upon in a tree fits if the tree does.
`FileTree.scan_admissible` — if what a walk comes upon fits, all entries of the scan can be recorded.
-/

set_option autoImplicit false

namespace Casefile

/-! ## Sizes that a row can hold -/

namespace Node

mutual

/-- No file and no link in the tree is longer than a row can say. -/
def SizesFit : Node → Prop
  | .file _ size _ => size ≤ Tx.maxSize
  | .link _ target _ => target.length ≤ Tx.maxSize
  | .dir _ _ c => SizesFitEach c

/-- `SizesFit` for each of some trees. -/
def SizesFitEach : List Node → Prop
  | [] => True
  | x :: xs => x.SizesFit ∧ SizesFitEach xs

end

theorem sizesFitEach_iff (c : List Node) : SizesFitEach c ↔ ∀ x ∈ c, x.SizesFit := by
  induction c with
  | nil => simp [SizesFitEach]
  | cons x xs ih => simp [SizesFitEach, ih]

theorem SizesFit.content {node : Node} (h : node.SizesFit) : SizesFitEach node.content := by
  cases node with
  | file => trivial
  | link => trivial
  | dir n m c =>
    unfold SizesFit at h
    exact h

mutual

/-- Sorting a tree changes no sizes. -/
theorem SizesFit.sorted : ∀ node : Node, node.SizesFit → node.sorted.SizesFit
  | .file _ _ _, h => by
    unfold Node.sorted
    exact h
  | .link _ _ _, h => by
    unfold Node.sorted
    exact h
  | .dir n m c, h => by
    unfold SizesFit at h
    have heach := SizesFitEach.sorted c h
    unfold Node.sorted SizesFit
    rw [sizesFitEach_iff] at heach ⊢
    intro x hx
    exact heach x (List.mem_mergeSort.1 hx)

theorem SizesFitEach.sorted : ∀ c : List Node, SizesFitEach c → SizesFitEach (sortedEach c)
  | [], h => by
    unfold sortedEach
    exact h
  | x :: xs, h => by
    unfold SizesFitEach at h
    unfold sortedEach SizesFitEach
    exact ⟨SizesFit.sorted x h.1, SizesFitEach.sorted xs h.2⟩

end

/-- What is found in a tree fits if the tree does. -/
theorem SizesFit.at? {node : Node} :
    ∀ (loc : Location) {root : Node}, root.SizesFit → root.at? loc = some node → node.SizesFit
  | [], _, h, hat => by
    cases hat
    exact h
  | n :: rest, root, h, hat => by
    unfold Node.at? at hat
    split at hat
    · rename_i inner hfind
      have hinner : inner.SizesFit :=
        (sizesFitEach_iff _).1 h.content inner (List.mem_of_find?_eq_some hfind)
      exact SizesFit.at? rest hinner hat
    · cases hat

end Node

namespace FileTree

/-- No file and no link is longer than a row can say. -/
def SizesFit (t : FileTree) : Prop :=
  t.root.SizesFit

theorem SizesFit.stat {t : FileTree} (h : t.SizesFit) {follow : Bool} {p : Path} {node : Node}
    (hs : t.stat follow p = .ok node) : node.SizesFit := by
  unfold FileTree.stat at hs
  split at hs
  · cases hs
  · split at hs
    · rename_i hat
      cases hs
      exact Node.SizesFit.at? _ h hat
    · cases hs

end FileTree

/-! ## What a walk comes upon -/

/-- An object that could be looked at is not longer than a row can say. -/
def Finding.SizeFits (f : Finding) : Prop :=
  ∀ p depth seen, f = .object p depth (.ok seen) → seen.length ≤ Tx.maxSize

namespace Node

theorem lookAt_fits {node : Node} (h : node.SizesFit) (p : Path) (depth : Nat) :
    (Finding.object p depth (node.lookAt p)).SizeFits := by
  intro q depth' seen heq
  obtain ⟨_, _, hseen⟩ := Finding.object.inj heq
  have hlook : seen = node.look := by
    unfold lookAt at hseen
    split at hseen
    · cases hseen
    · exact (Except.ok.inj hseen).symm
  subst hlook
  cases node with
  | file n size m => exact h
  | link n target m => exact h
  | dir n m c => exact Nat.zero_le _

mutual

/-- What a walk comes upon in a tree fits if the tree does. -/
theorem walk_fits : ∀ (node : Node) (above : Path) (depth : Nat), node.SizesFit →
    ∀ f ∈ walk above depth node, f.SizeFits
  | .file n size m, above, depth, hfit => by
    unfold walk
    exact List.forall_mem_singleton.2 (lookAt_fits hfit _ _)
  | .link n target m, above, depth, hfit => by
    unfold walk
    exact List.forall_mem_singleton.2 (lookAt_fits hfit _ _)
  | .dir n m c, above, depth, hfit => by
    unfold walk
    refine List.forall_mem_cons.2 ⟨lookAt_fits hfit _ _, ?_⟩
    split
    · exact List.forall_mem_singleton.2 fun _ _ _ heq => by cases heq
    · unfold SizesFit at hfit
      exact walkEach_fits c _ _ hfit

theorem walkEach_fits : ∀ (c : List Node) (above : Path) (depth : Nat), SizesFitEach c →
    ∀ f ∈ walkEach above depth c, f.SizeFits
  | [], above, depth, hfit => by
    unfold walkEach
    exact List.forall_mem_nil _
  | x :: xs, above, depth, hfit => by
    unfold SizesFitEach at hfit
    unfold walkEach
    intro f hf
    rcases List.mem_append.1 hf with hf | hf
    · exact walk_fits x above depth hfit.1 f hf
    · exact walkEach_fits xs above depth hfit.2 f hf

end

end Node

theorem FileTree.walk_fits {t : FileTree} (h : t.SizesFit) (root : Path) :
    ∀ f ∈ t.walk root, f.SizeFits := by
  have hroot : ∀ {node : Node}, node.SizesFit → node.look.length ≤ Tx.maxSize := by
    intro node hfit
    exact Node.lookAt_fits hfit ⟨[]⟩ 0 ⟨[]⟩ 0 node.look rfl
  have hbelow : ∀ {node : Node}, node.SizesFit → ∀ f ∈ Node.walkEach root 1 node.sorted.content,
      f.SizeFits := fun hfit => Node.walkEach_fits _ root 1 (Node.SizesFit.sorted _ hfit).content
  have hfault : ∀ e, ∀ f ∈ [Finding.fault (some root) e], f.SizeFits :=
    fun e => List.forall_mem_singleton.2 fun _ _ _ heq => by cases heq
  unfold FileTree.walk
  split
  · exact hfault _
  · rename_i target m hstat
    split
    · exact hfault _
    · rename_i aim haim
      refine List.forall_mem_cons.2 ⟨?_, hbelow (h.stat haim)⟩
      rintro p depth seen heq
      cases heq
      exact hroot (h.stat hstat)
  · rename_i node hstat
    refine List.forall_mem_cons.2 ⟨?_, hbelow (h.stat hstat)⟩
    rintro p depth seen heq
    cases heq
    exact hroot (h.stat hstat)

/-- **All entries of a scan can be recorded**, whatever the root, and whatever could not be read on the way: also
where the root is a link to a directory, whose entry is a file and nobody's parent. -/
theorem FileTree.scan_admissible {walk : FileTree → Path → List Finding} {t : FileTree} {root : Path}
    {scan : Scan} (hfit : ∀ f ∈ walk t root, f.SizeFits) (hscan : t.scanWith walk root = .ok scan) :
    scan.Admissible := by
  obtain ⟨_, _, rfl⟩ := FileTree.stat_of_scanWith hscan
  intro k e _ hget
  constructor
  · obtain ⟨p, depth, seen, parent, hmem, rfl⟩ :=
      Collection.mem_ofWalk (List.mem_of_getElem? hget)
    exact hfit _ hmem p depth seen rfl
  · intro place hparent
    obtain ⟨hlt, d, hd, hdir⟩ :=
      (Collection.ofWalk_sound root (walk t root)).parents k e place hget hparent
    exact ⟨d, by rw [List.getElem?_take_of_lt hlt]; exact hd, hdir⟩

end Casefile
