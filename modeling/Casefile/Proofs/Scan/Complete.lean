import Casefile.Proofs.FileTree.Alike
import Casefile.Proofs.FileTree.Walker
import Casefile.Proofs.Scan.Collection
import Mathlib

/-!
# Scans that leave nothing out

* `Complete` — the entries of a collection stand for some spots one by one, and there are no errors.
* `Entry.Describes` — an entry says of an object what it is to say.
* `Scan.Records` — the entries stand for an object and all below it, in the order of their locations.

Principal results: `Complete.findings` — what is found in a directory that has been recorded is recorded.
`scan_complete` — the scan of a file or directory records all there is, without an error, and the order in
which the objects were made makes no difference.
-/

set_option autoImplicit false

namespace Casefile

/-- The entries stand for some spots one by one, and there are no errors. -/
structure Complete (root : Path) (spots : List Spot) (c : Collection) : Prop where
  entries : List.Forall₂ (fun s e => ∃ parent, e = Scan.entryOf (root.descend s.loc) parent s.look) spots
    c.scan.entries
  errors : c.scan.errors = []

namespace Complete

variable {root : Path} {spots : List Spot} {c : Collection}

/-- A directory that stands for a spot is in the table. -/
theorem mem_folders (h : Complete root spots c) (hsound : c.Sound) {loc : Location} {m : Int}
    (hs : ⟨loc, .dir m⟩ ∈ spots) : ∃ place, (root.descend loc, place) ∈ c.folders := by
  obtain ⟨place, hplace, hget⟩ := List.getElem_of_mem hs
  obtain ⟨hlength, hall⟩ := List.forall₂_iff_get.1 h.entries
  have hplace' : place < c.scan.entries.length := hlength ▸ hplace
  obtain ⟨parent, hentry⟩ := hall place hplace hplace'
  simp only [List.get_eq_getElem, hget] at hentry
  refine ⟨place, (hsound.folders _ _).2 ⟨_, List.getElem?_eq_getElem hplace', ?_⟩⟩
  rw [hentry]
  exact ⟨rfl, rfl⟩

/-- **What is found in a directory that has been recorded is recorded.** -/
theorem findings (h : Complete root spots c) (hsound : c.Sound) (hroot : root.bytes ≠ []) {s : Spot}
    (hs : ∀ n ∈ s.loc, Name.Valid n)
    (habove : ∀ above n, s.loc = above ++ [n] → ∃ m, ⟨above, .dir m⟩ ∈ spots) :
    Complete root (spots ++ [s])
      (c.take root (s.found root)) := by
  obtain ⟨parent, hparent⟩ :
      ∃ parent, c.parentOf? (root.descend s.loc) s.loc.length = some parent := by
    obtain ⟨loc, seen⟩ := s
    rcases List.eq_nil_or_concat' loc with rfl | ⟨above, n, rfl⟩
    · exact ⟨none, rfl⟩
    · have hn : Name.Valid n := hs n (List.mem_append_right _ List.mem_cons_self)
      have hvalid : ∀ n ∈ above, Name.Valid n := fun n' hn' => hs n' (List.mem_append_left _ hn')
      obtain ⟨m, hm⟩ := habove above n rfl
      obtain ⟨place, hplace⟩ := h.mem_folders hsound hm
      obtain ⟨up, hup, hsame⟩ := Path.parent?_child (Path.descend_ne_nil hroot hvalid) hn
      obtain ⟨place', hlook⟩ := Collection.placeOf?_of_mem hplace hsame.symm
      have hpath : root.descend (above ++ [n]) = (root.descend above).child n :=
        Path.descend_append root above [n]
      refine ⟨some place', ?_⟩
      simp only [List.length_append, List.length_singleton, Collection.parentOf?, hpath, hup,
        Option.bind_some, hlook, Option.map_some]
  have htake : c.take root (s.found root) =
      c.record (Scan.entryOf (root.descend s.loc) parent s.look) := by
    simp only [Spot.found, Collection.take, hparent]
  rw [htake]
  exact ⟨List.rel_append h.entries (.cons ⟨parent, rfl⟩ .nil), h.errors⟩

end Complete

/-- **All that a walk comes upon is recorded**, if it goes through a directory before what that holds. -/
theorem complete {root : Path} (hroot : root.bytes ≠ []) (spots : List Spot)
    (hvalid : ∀ s ∈ spots, ∀ n ∈ s.loc, Name.Valid n)
    (habove : ∀ before s after, spots = before ++ s :: after →
      ∀ above n, s.loc = above ++ [n] → ∃ m, ⟨above, .dir m⟩ ∈ before) :
    Complete root spots (Collection.ofWalk root (spots.map (Spot.found root))) := by
  induction spots using List.reverseRecOn with
  | nil => exact ⟨.nil, rfl⟩
  | append_singleton spots s ih =>
    rw [List.map_append, List.map_singleton, Collection.ofWalk_concat]
    refine Complete.findings ?_ (Collection.ofWalk_sound root _) hroot
      (hvalid s (List.mem_append_right _ List.mem_cons_self)) (habove spots s [] rfl)
    refine ih (fun s' hs' => hvalid s' (List.mem_append_left _ hs')) ?_
    intro before s' after heq
    exact habove before s' (after ++ [s]) (by rw [heq]; simp)

/-! ## The scan of a tree -/

/-- What an entry says of an object: if it is a directory, its length unless it is one, and when it was
modified unless that was before 1970. -/
structure Entry.Describes (e : Entry) (obj : Node) : Prop where
  kind : e.kind = .directory ↔ obj.isDir = true
  size : e.size = obj.look.length
  modified : e.modified = if obj.modified < 0 then none else some obj.modified

theorem entryOf_describes (p : Path) (parent : Option Nat) (obj : Node) :
    (Scan.entryOf p parent obj.look).Describes obj := by
  cases obj with
  | file n size m => exact ⟨by simp [Scan.entryOf, Look.isDir, Node.look, Node.isDir], rfl, rfl⟩
  | link n target m => exact ⟨by simp [Scan.entryOf, Look.isDir, Node.look, Node.isDir], rfl, rfl⟩
  | dir n m c => exact ⟨by simp [Scan.entryOf, Look.isDir, Node.look, Node.isDir], rfl, rfl⟩

/-- The entries stand one by one for an object at `root` and all below it, in the order of their locations,
in which a directory comes before what it holds. -/
def Scan.Records (scan : Scan) (root : Path) (node : Node) : Prop :=
  ∃ locs : List Location, locs.Pairwise (· < ·) ∧ (∀ loc, loc ∈ locs ↔ (node.at? loc).isSome) ∧
    List.Forall₂ (fun loc e => e.path = root.descend loc ∧
      ∃ obj, node.at? loc = some obj ∧ e.Describes obj) locs scan.entries

/-- **The scan of a file or directory leaves nothing out, makes nothing up and does not depend on the order
in which things were made**, where all can be read and no path is too long. -/
theorem scan_complete (walk : FileTree → Path → List Finding) (hwalk : FileTree.Thorough walk) (t : FileTree)
    (h : t.WellFormed) (root : Path) (node : Node) (hstat : t.stat false root = .ok node)
    (hlink : ∀ n target m, node ≠ .link n target m)
    (hfit : ∀ loc, (node.at? loc).isSome → (root.descend loc).bytes.length < FileTree.maxPath) :
    ∃ scan, t.scanWith walk root = .ok scan ∧ scan.errors = [] ∧ scan.Records root node ∧
      ∀ t' : FileTree, t'.WellFormed → t.Alike t' → t'.scanWith walk root = .ok scan := by
  have hwf := h.stat hstat
  have hroot := (FileTree.admissible_of_stat hstat).1
  have hcomplete : Complete root node.sorted.outline (Collection.ofWalk root (walk t root)) := by
    rw [hwalk t root node h hstat hlink hfit]
    exact complete hroot _ (Node.valid_of_mem_outline hwf.sorted)
      fun before s after heq above n => Node.outline_above_before hwf heq
  refine ⟨_, FileTree.scanWith_of_stat hstat, hcomplete.errors, ?_, ?_⟩
  · refine ⟨node.sorted.outline.map Spot.loc, List.pairwise_map.2 (Node.outline_ascending hwf),
      Node.mem_locs_iff hwf, List.forall₂_map_left_iff.2 ?_⟩
    have hat : ∀ s ∈ node.sorted.outline, (node.at? s.loc).map Node.look = some s.look :=
      fun s hs => (Node.mem_outline_iff hwf s).1 ((Node.mem_outline_sorted hwf s).1 hs)
    refine ((List.forall₂_and_left _ _).2 ⟨hat, hcomplete.entries⟩).imp ?_
    rintro s e ⟨hs, parent, rfl⟩
    obtain ⟨obj, hobj, hlook⟩ := Option.map_eq_some_iff.1 hs
    exact ⟨rfl, obj, hobj, hlook ▸ entryOf_describes _ parent obj⟩
  · intro t' h' halike
    obtain ⟨node', hstat', hnode⟩ := FileTree.stat_alike halike hstat
    have hlink' := hnode.not_link hlink
    have hfit' : ∀ loc, (node'.at? loc).isSome →
        (root.descend loc).bytes.length < FileTree.maxPath := fun loc hloc =>
      hfit loc (by rwa [hnode.isSome_at?])
    rw [FileTree.scanWith_of_stat hstat', hwalk t root node h hstat hlink hfit,
      hwalk t' root node' h' hstat' hlink' hfit',
      Node.outline_eq_of_alike hwf (h'.stat hstat') hnode]

/-- A file system in which the odd objects have been made the other way round. -/
def oddTwin : FileTree :=
  .grown 0 [] FileTree.oddments.reverse

theorem scan_complete_reversed :
    FileTree.oddTree.scan (.ofString "in") = .ok (Scan.ofOddments "in") ∧
      (Scan.ofOddments "in").Records (.ofString "in") FileTree.oddDirectory ∧
      oddTwin.scan (.ofString "in") = .ok (Scan.ofOddments "in") := by
  have hwf' : oddTwin.WellFormed :=
    FileTree.wellFormed_grown 0 (List.forall_mem_nil _) FileTree.oddments.reverse
  have hstat : FileTree.oddTree.stat false (.ofString "in") = .ok FileTree.oddDirectory := by cbv
  have hlink : ∀ n target m, FileTree.oddDirectory ≠ .link n target m := fun _ _ _ => Node.noConfusion
  have hfit : ∀ loc, (FileTree.oddDirectory.at? loc).isSome →
      ((Path.ofString "in").descend loc).bytes.length < FileTree.maxPath := by
    have hlocs : (FileTree.oddDirectory.sorted.outline.map Spot.loc).all fun loc =>
        ((Path.ofString "in").descend loc).bytes.length < FileTree.maxPath := by cbv
    intro loc hloc
    have hmem := (Node.mem_locs_iff (FileTree.oddTree_wellFormed.stat hstat) loc).2 hloc
    simpa using List.all_eq_true.1 hlocs loc hmem
  have halike : FileTree.oddTree.Alike oddTwin := by
    refine ⟨by cbv, Node.alike_of_perm FileTree.oddTree_wellFormed hwf' (of_decide_eq_true ?_)⟩
    cbv
  obtain ⟨scan, hscan, _, hrecords, hsame⟩ := scan_complete _ FileTree.walk_thorough FileTree.oddTree
    FileTree.oddTree_wellFormed (.ofString "in") FileTree.oddDirectory hstat hlink hfit
  have hfound : FileTree.oddTree.scan (.ofString "in") = .ok (Scan.ofOddments "in") := by cbv
  obtain rfl : scan = Scan.ofOddments "in" := Except.ok.inj (hscan.symm.trans hfound)
  exact ⟨hfound, hrecords, hsame oddTwin hwf' halike⟩

end Casefile
