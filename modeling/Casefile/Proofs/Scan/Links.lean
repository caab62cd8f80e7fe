import Casefile.Proofs.FileTree.Alike
import Casefile.Proofs.Scan.Collection
import Mathlib

/-!
# Scans and links

A scan follows no link below its root, but it follows one at the root.

* `Finding.complaint` — the error text for something that has no directory among the entries.
* `FileTree.Rooted` — a way to walk begins at the root, unless that is a link which leads nowhere.

Principal results: `foldl_take_of_no_folders` — as long as no directory has been recorded, nothing below the root
is.  `scan_links` — what links lead to makes no difference to the scan of a file or directory; the scan of a
link holds the link and an error for each object behind it, and not even the link if it leads nowhere.
`scan_of_link_differs` — so what a link leads to does make a difference to the scan of the link.
-/

set_option autoImplicit false

namespace Casefile

/-- The error text for something that has no directory among the entries. -/
def Finding.complaint (root : Path) : Finding → String
  | .object p _ _ => Scan.orphaned p
  | .fault path? e => Scan.unreadable root path? e

/-- Something below the root of a walk, or something that cannot be read. -/
def Finding.IsBelow : Finding → Prop
  | .object _ depth _ => depth ≠ 0
  | .fault _ _ => True

theorem Spot.findings_isBelow (root : Path) {s : Spot} (hs : s.loc ≠ []) :
    ∀ f ∈ s.findings root, f.IsBelow := by
  have hdepth : s.loc.length ≠ 0 := fun h => hs (List.length_eq_zero_iff.1 h)
  unfold Spot.findings
  split
  · exact List.forall_mem_nil _
  · split
    · refine List.forall_mem_cons.2 ⟨hdepth, ?_⟩
      split
      · exact List.forall_mem_singleton.2 trivial
      · exact List.forall_mem_nil _
    · exact List.forall_mem_singleton.2 hdepth

namespace Collection

variable {root : Path} {c : Collection}

/-- Entries keep their places when more is found. -/
theorem foldl_take_entries (root : Path) (found : List Finding) (c : Collection) :
    c.scan.entries <+: (found.foldl (take root) c).scan.entries := by
  induction found generalizing c with
  | nil => exact List.prefix_rfl
  | cons f found ih =>
    refine List.IsPrefix.trans ?_ (ih (c.take root f))
    rcases take_cases root c f with ⟨cause, heq⟩ | ⟨p, depth, seen, parent, _, _, heq⟩
    · rw [heq]
      exact List.prefix_rfl
    · rw [heq]
      exact List.prefix_append _ _

theorem take_of_no_folders (hc : c.folders = []) {f : Finding} (hf : f.IsBelow) :
    c.take root f = c.report (f.complaint root) := by
  cases f with
  | fault path? e => rfl
  | object p depth look =>
    cases depth with
    | zero => exact absurd rfl hf
    | succ depth =>
      have hplace : ∀ above, c.placeOf? above = none := fun above => by simp [placeOf?, hc]
      have hparent : c.parentOf? p (depth + 1) = none := by
        simp only [parentOf?, Option.map_eq_none_iff, Option.bind_eq_none_iff]
        exact fun above _ => hplace above
      simp only [take, hparent]
      rfl

/-- **As long as no directory has been recorded, nothing below the root is.** -/
theorem foldl_take_of_no_folders (root : Path) (hc : c.folders = []) {found : List Finding}
    (hfound : ∀ f ∈ found, f.IsBelow) :
    (found.foldl (take root) c).scan =
      ⟨c.scan.entries, c.scan.errors ++ found.map (Finding.complaint root)⟩ := by
  induction found generalizing c with
  | nil => simp
  | cons f found ih =>
    obtain ⟨hf, hrest⟩ := List.forall_mem_cons.1 hfound
    rw [List.foldl_cons, take_of_no_folders hc hf, ih (c := c.report (f.complaint root)) hc hrest]
    simp [report, Scan.addError]

end Collection

namespace FileTree

/-- A way to walk through any tree comes upon the root first, as it is seen without following a link, and upon
other things behind it. Where the root is a link that leads nowhere, it comes upon nothing else. -/
structure Rooted (walk : FileTree → Path → List Finding) : Prop where
  found : ∀ {t : FileTree} {root : Path} {node : Node}, t.WellFormed → t.stat false root = .ok node →
    ((∀ n target m, node ≠ .link n target m) ∨ ∃ aim, t.stat true root = .ok aim) →
    ∃ below, walk t root = .object root 0 (.ok node.look) :: below ∧ ∀ f ∈ below, f.IsBelow
  lost : ∀ {t : FileTree} {root : Path} {n : Name} {target : List UInt8} {m : Int} {e : IoFault},
    t.stat false root = .ok (.link n target m) → t.stat true root = .error e →
    walk t root = [.fault (some root) e]

variable {walk : FileTree → Path → List Finding} {t t' : FileTree} {root : Path} {node node' aim : Node}

/-- What lies in a directory lies below the root that leads to it. -/
theorem walkEach_isBelow (hstat : t.stat false root = .ok node) (haim : aim.WellFormed) :
    ∀ f ∈ Node.walkEach root 1 aim.sorted.content, f.IsBelow := by
  rw [walkEach_of_stat hstat haim]
  intro f hf
  obtain ⟨s, hs, hf⟩ := List.mem_flatMap.1 hf
  exact Spot.findings_isBelow root (Node.loc_ne_nil hs) f hf

theorem walk_rooted : Rooted FileTree.walk where
  found {t root node} h hstat hway := by
    by_cases hlink : ∀ n target m, node ≠ .link n target m
    · refine ⟨_, ?_, walkEach_isBelow hstat (h.stat hstat)⟩
      rw [walk_of_stat h hstat hlink, Node.outline_eq, Node.look_sorted, List.flatMap_cons,
        findings_root hstat, walkEach_of_stat hstat (h.stat hstat)]
      rfl
    · obtain ⟨aim, haim⟩ := hway.resolve_left hlink
      cases node with
      | link n target m => exact ⟨_, walk_of_link hstat haim, walkEach_isBelow hstat (h.stat haim)⟩
      | file n size m => exact absurd (fun _ _ _ => Node.noConfusion) hlink
      | dir n m c => exact absurd (fun _ _ _ => Node.noConfusion) hlink
  lost := walk_of_lost

/-- The first entry is the root as it is seen without following a link, if a walk begins there. -/
theorem scanWith_first (hstat : t.stat false root = .ok node) {below : List Finding}
    (hwalk : walk t root = .object root 0 (.ok node.look) :: below) :
    ∃ scan, t.scanWith walk root = .ok scan ∧
      scan.entries[0]? = some (Scan.entryOf root none node.look) := by
  refine ⟨_, scanWith_of_stat hstat, ?_⟩
  obtain ⟨more, hmore⟩ := Collection.foldl_take_entries root below
    (Collection.ofWalk root [.object root 0 (.ok node.look)])
  have hentries : (Collection.ofWalk root (walk t root)).scan.entries =
      Scan.entryOf root none node.look :: more := by
    rw [hwalk]
    exact hmore.symm
  rw [hentries]
  rfl

/-- The scan of a link that leads somewhere holds the link and an error for each thing behind it. -/
theorem scanWith_of_link {n : Name} {target : List UInt8} {m : Int} {below : List Finding}
    (hstat : t.stat false root = .ok (.link n target m))
    (hwalk : walk t root = .object root 0 (.ok (.link target m)) :: below) (hbelow : ∀ f ∈ below, f.IsBelow) :
    t.scanWith walk root =
      .ok ⟨[Scan.entryOf root none (.link target m)], below.map (Finding.complaint root)⟩ := by
  have hcollected := Collection.foldl_take_of_no_folders root
    (c := Collection.ofWalk root [.object root 0 (.ok (.link target m))]) rfl hbelow
  rw [scanWith_of_stat hstat, hwalk]
  exact congrArg Except.ok hcollected

/-- The scan of a link that leads nowhere holds nothing but an error. -/
theorem scanWith_of_lost (hstat : t.stat false root = .ok node) {e : IoFault}
    (hwalk : walk t root = [.fault (some root) e]) :
    t.scanWith walk root = .ok ⟨[], [Scan.unreadable root (some root) e]⟩ := by
  rw [scanWith_of_stat hstat, hwalk]
  rfl

/-- The scan of a link by a walk that cannot read everything has no entry but that of the link, and not even
that one if the link leads nowhere. -/
theorem scanWith_of_rooted_link (hwalk : Rooted walk) (h : t.WellFormed) {n : Name} {target : List UInt8}
    {m : Int} (hstat : t.stat false root = .ok (.link n target m)) :
    ∃ errors, t.scanWith walk root = .ok
      ⟨if (t.stat true root).isOk then [Scan.entryOf root none (.link target m)] else [], errors⟩ := by
  cases haim : t.stat true root with
  | error e => exact ⟨_, scanWith_of_lost hstat (hwalk.lost hstat haim)⟩
  | ok aim =>
    obtain ⟨below, hfound, hbelow⟩ := hwalk.found h hstat (.inr ⟨aim, haim⟩)
    exact ⟨_, scanWith_of_link hstat hfound hbelow⟩

end FileTree

/-- **What links lead to makes no difference to the scan of a file or directory**, whose first entry is the root
as it is seen without following a link. The scan of a link holds the link and an error for each object behind
it, and if it leads nowhere, nothing but an error. The same entries stand for the root if the walk is another
one, which cannot read everything below. -/
theorem scan_links (t t' : FileTree) (h : t.WellFormed) (h' : t'.WellFormed) (root : Path) (node node' : Node)
    (hstat : t.stat false root = .ok node) (hstat' : t'.stat false root = .ok node')
    (halike : node.Alike node') :
    ((∀ n target m, node ≠ .link n target m) →
      ∃ scan, t.scan root = .ok scan ∧ t'.scan root = .ok scan ∧
        scan.entries[0]? = some (Scan.entryOf root none node.look)) ∧
    (∀ n target m, node = .link n target m →
      t.scan root = .ok (match t.stat true root with
        | .error e => ⟨[], [Scan.unreadable root (some root) e]⟩
        | .ok aim => ⟨[Scan.entryOf root none node.look],
            (Node.walkEach root 1 aim.sorted.content).map (Finding.complaint root)⟩)) ∧
    ∀ walk, FileTree.Rooted walk →
      ((∀ n target m, node ≠ .link n target m) → ∃ scan, t.scanWith walk root = .ok scan ∧
        scan.entries[0]? = some (Scan.entryOf root none node.look)) ∧
      ∀ n target m, node = .link n target m → ∃ errors, t.scanWith walk root = .ok
        ⟨if (t.stat true root).isOk then [Scan.entryOf root none node.look] else [], errors⟩ := by
  refine ⟨fun hlink => ?_, ?_, fun walk hwalk => ⟨fun hlink => ?_, ?_⟩⟩
  · obtain ⟨_, hfound, _⟩ := FileTree.walk_rooted.found h hstat (.inl hlink)
    obtain ⟨scan, hscan, hfirst⟩ := FileTree.scanWith_first hstat hfound
    refine ⟨scan, hscan, ?_, hfirst⟩
    rw [← hscan, FileTree.scan, FileTree.scanWith_of_stat hstat, FileTree.scanWith_of_stat hstat',
      FileTree.walk_alike h h' hstat hstat' halike hlink]
  · rintro n target m rfl
    cases haim : t.stat true root with
    | error e => exact FileTree.scanWith_of_lost hstat (FileTree.walk_of_lost hstat haim)
    | ok aim =>
      exact FileTree.scanWith_of_link hstat (FileTree.walk_of_link hstat haim)
        (FileTree.walkEach_isBelow hstat (h.stat haim))
  · obtain ⟨_, hfound, _⟩ := hwalk.found h hstat (.inl hlink)
    exact FileTree.scanWith_first hstat hfound
  · rintro n target m rfl
    exact FileTree.scanWith_of_rooted_link hwalk h hstat

/-- A file system with the odd objects in which the link among them leads somewhere. -/
def revealedTree : FileTree :=
  .grown 0 [] (.file (.ofString "x/y") 9 9 :: FileTree.oddments)

theorem scan_links_revealed :
    FileTree.oddTree.scan (.ofString "in") = .ok (Scan.ofOddments "in") ∧
      revealedTree.scan (.ofString "in") = .ok (Scan.ofOddments "in") := by
  have hwf : revealedTree.WellFormed :=
    FileTree.wellFormed_grown 0 (List.forall_mem_nil _) (.file (.ofString "x/y") 9 9 :: FileTree.oddments)
  have hstat : FileTree.oddTree.stat false (.ofString "in") = .ok FileTree.oddDirectory := by cbv
  have hstat' : revealedTree.stat false (.ofString "in") = .ok FileTree.oddDirectory := by cbv
  obtain ⟨scan, hscan, hscan', _⟩ := (scan_links FileTree.oddTree revealedTree FileTree.oddTree_wellFormed hwf
    (.ofString "in") _ _ hstat hstat' fun _ => rfl).1 fun _ _ _ => Node.noConfusion
  have hfound : FileTree.oddTree.scan (.ofString "in") = .ok (Scan.ofOddments "in") := by cbv
  obtain rfl : scan = Scan.ofOddments "in" := Except.ok.inj (hscan.symm.trans hfound)
  exact ⟨hscan, hscan'⟩

/-- A file system with nothing but the link beside the directory among the odd objects. -/
def bareTree : FileTree :=
  .grown 0 [] [.link (.ofString "l") (Text.Utf8.bytes "in") 7]

/-- **What a link leads to makes a difference to its scan**: the same link in two file systems, in one of
which it leads nowhere. -/
theorem scan_of_link_differs :
    (∀ t ∈ [FileTree.oddTree, bareTree], t.stat false (.ofString "l") =
      .ok (.link (Text.Utf8.bytes "l") (Text.Utf8.bytes "in") 7)) ∧
    FileTree.oddTree.scan (.ofString "l") = .ok
      ⟨[⟨.ofString "l", "l", .file, 2, some 7, none⟩],
        ["l/a: parent directory was skipped", "l/a/b: parent directory was skipped",
          "l/a-b: parent directory was skipped", "l/z: parent directory was skipped"]⟩ ∧
    bareTree.scan (.ofString "l") = .ok
      ⟨[], ["l: IO error for operation on l: No such file or directory (os error 2)"]⟩ := by
  refine ⟨List.forall_mem_cons.2 ⟨?_, List.forall_mem_singleton.2 ?_⟩, ?_, ?_⟩
  · cbv
  · cbv
  · cbv
  · cbv

end Casefile
