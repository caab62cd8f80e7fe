import Casefile.Proofs.FileTree.Walker
import Casefile.Proofs.Scan.Collection
import Mathlib

/-!
# Where the entries of a scan stand

* `Placed` — an entry stands for a location: for the root, without a parent, or for something in a directory
  that has an entry before it.
* `Collected` — the entries stand for some locations, no two of them at paths with the same steps.
* `Scan.Consistent`, `Scan.Accounts` — what holds within a scan, and between a scan and the walk behind it.

Principal results: `Collected.take` — what a walk comes upon at a new location gets its place, since the one
directory whose path has the right steps is the one that it is in.  `scan_consistent` — so every scan of a
tree is consistent, however its root is spelled, and accounts for all that the walk came upon.
-/

set_option autoImplicit false

namespace Casefile

/-- An entry at the place `k` stands for a location below `root`. -/
inductive Placed (root : Path) (entries : List Entry) (k : Nat) : Location → Entry → Prop
  | top (seen : Look) : Placed root entries k [] (Scan.entryOf root none seen)
  | below {above : Location} {n : Name} {place : Nat} {d : Entry} (seen : Look) (lt : place < k)
      (get : entries[place]? = some d) (isDir : d.kind = .directory)
      (path : d.path = root.descend above) (valid : Name.Valid n) :
      Placed root entries k (above ++ [n]) (Scan.entryOf (d.path.child n) (some place) seen)

variable {root : Path} {entries : List Entry} {k : Nat} {loc : Location} {e : Entry}

theorem Placed.path_eq (h : Placed root entries k loc e) : e.path = root.descend loc := by
  cases h with
  | top seen => rfl
  | below seen lt get isDir path valid =>
    rw [Path.descend_append, ← path]
    rfl

/-- An entry keeps its place when others follow. -/
theorem Placed.append (h : Placed root entries k loc e) (more : List Entry) :
    Placed root (entries ++ more) k loc e := by
  cases h with
  | top seen => exact .top seen
  | below seen lt get isDir path valid =>
    refine .below seen lt ?_ isDir path valid
    rw [List.getElem?_append_left (List.getElem?_eq_some_iff.1 get).1]
    exact get

/-- The entries stand for some locations, no two of them at paths with the same steps. -/
structure Collected (root : Path) (locs : List Location) (c : Collection) : Prop where
  valid : ∀ loc ∈ locs, ∀ n ∈ loc, Name.Valid n
  placed : ∀ k e, c.scan.entries[k]? = some e → ∃ loc ∈ locs, Placed root c.scan.entries k loc e
  distinct : c.scan.entries.Pairwise fun a b => a.path.components ≠ b.path.components

namespace Collected

variable {locs : List Location} {c : Collection}

/-- The one directory in the table whose path has the steps of a location is the one at that location. -/
theorem path_of_mem_folders (h : Collected root locs c) (hsound : c.Sound) (hroot : root.bytes ≠ [])
    {above : Location} (habove : ∀ n ∈ above, Name.Valid n) {q : Path} {place : Nat}
    (hmem : (q, place) ∈ c.folders) (hsame : q.components = (root.descend above).components) :
    ∃ d, c.scan.entries[place]? = some d ∧ d.kind = .directory ∧ d.path = root.descend above := by
  obtain ⟨d, hget, rfl, hdir⟩ := (hsound.folders q place).1 hmem
  obtain ⟨loc, hloc, hplaced⟩ := h.placed place d hget
  have hpath := hplaced.path_eq
  rw [hpath] at hsame
  rw [Path.descend_injective hroot (h.valid loc hloc) habove hsame] at hpath
  exact ⟨d, hget, hdir, hpath⟩

/-- An entry recorded with the parent that its path leads up to stands for its location. -/
theorem placed_of_parentOf? (h : Collected root locs c) (hsound : c.Sound) (hroot : root.bytes ≠ [])
    (hloc : ∀ n ∈ loc, Name.Valid n) {parent : Option Nat}
    (hparent : c.parentOf? (root.descend loc) loc.length = some parent) (seen : Look) :
    Placed root c.scan.entries c.scan.entries.length loc
      (Scan.entryOf (root.descend loc) parent seen) := by
  rcases Collection.parentOf?_cases hparent with
    ⟨hdepth, rfl⟩ | ⟨q, up, place, hup, rfl, hmem, hsame⟩
  · obtain rfl := List.length_eq_zero_iff.1 hdepth
    exact .top seen
  · rcases List.eq_nil_or_concat' loc with rfl | ⟨above, n, rfl⟩
    · cases hparent
    · have hn : Name.Valid n := hloc n (List.mem_append_right _ List.mem_cons_self)
      have habove : ∀ n ∈ above, Name.Valid n := fun n' hn' => hloc n' (List.mem_append_left _ hn')
      obtain ⟨q', hq', hcomponents⟩ := Path.parent?_child (Path.descend_ne_nil hroot habove) hn
      have hpath : root.descend (above ++ [n]) = (root.descend above).child n :=
        Path.descend_append root above [n]
      rw [hpath] at hup ⊢
      obtain rfl : q' = up := Option.some.inj (hq'.symm.trans hup)
      obtain ⟨d, hget, hdir, hd⟩ :=
        h.path_of_mem_folders hsound hroot habove hmem (hsame.trans hcomponents)
      rw [← hd]
      exact .below seen (List.getElem?_eq_some_iff.1 hget).1 hget hdir hd hn

/-- Where nothing is recorded, what stood for some locations stands for these and more. -/
theorem report (h : Collected root locs c) {more : List Location}
    (hmore : ∀ loc ∈ more, ∀ n ∈ loc, Name.Valid n) (text : String) :
    Collected root (locs ++ more) (c.report text) := by
  refine ⟨List.forall_mem_append.2 ⟨h.valid, hmore⟩, fun k e hget => ?_, h.distinct⟩
  obtain ⟨loc, hloc, hplaced⟩ := h.placed k e hget
  exact ⟨loc, List.mem_append_left _ hloc, hplaced⟩

/-- **What is found at a new location gets its place.** -/
theorem take (h : Collected root locs c) (hsound : c.Sound) (hroot : root.bytes ≠ [])
    (hloc : ∀ n ∈ loc, Name.Valid n) (hnew : loc ∉ locs) (look : Except IoFault Look) :
    Collected root (locs ++ [loc]) (c.take root (.object (root.descend loc) loc.length look)) := by
  have hvalid : ∀ loc' ∈ [loc], ∀ n ∈ loc', Name.Valid n := List.forall_mem_singleton.2 hloc
  rcases Collection.take_cases root c (.object (root.descend loc) loc.length look) with
    ⟨cause, heq⟩ | ⟨p, depth, seen, parent, hobject, hparent, heq⟩
  · rw [heq]
    exact h.report hvalid _
  · cases hobject
    rw [heq]
    refine ⟨List.forall_mem_append.2 ⟨h.valid, hvalid⟩, fun k e hget => ?_, ?_⟩
    · rcases Collection.getElem?_concat_eq_some_iff.1 hget with hget | ⟨rfl, rfl⟩
      · obtain ⟨loc', hloc', hplaced⟩ := h.placed k e hget
        exact ⟨loc', List.mem_append_left _ hloc', hplaced.append _⟩
      · refine ⟨loc, List.mem_append_right _ List.mem_cons_self, ?_⟩
        exact (h.placed_of_parentOf? hsound hroot hloc hparent seen).append _
    · refine List.pairwise_append.2 ⟨h.distinct, List.pairwise_singleton _ _, fun a ha b hb hsame => ?_⟩
      obtain rfl := List.mem_singleton.1 hb
      obtain ⟨k, hk⟩ := List.mem_iff_getElem?.1 ha
      obtain ⟨loc', hloc', hplaced⟩ := h.placed k a hk
      rw [hplaced.path_eq] at hsame
      exact hnew (Path.descend_injective hroot (h.valid loc' hloc') hloc hsame ▸ hloc')

end Collected

/-- **What a tour comes upon stands where it is in the tree.** -/
theorem Tour.collected {locs : List Location} {found : List Finding} (h : Tour root locs found)
    (hroot : root.bytes ≠ []) : Collected root locs (Collection.ofWalk root found) := by
  induction h with
  | start =>
    refine ⟨List.forall_mem_nil _, fun k e hget => ?_, List.Pairwise.nil⟩
    cases hget
  | object before valid new look ih =>
    rw [Collection.ofWalk_concat]
    exact ih.take (Collection.ofWalk_sound root _) hroot valid new look
  | @fault locs found before path? e ih =>
    rw [Collection.ofWalk_concat, ← List.append_nil locs]
    exact ih.report (List.forall_mem_nil _) _

/-! ## Consistent scans -/

/-- What holds of the entries of every scan of a tree. -/
structure Scan.Consistent (scan : Scan) : Prop where
  /-- The first entry and no other has no parent. -/
  top : ∀ (k : Nat) (e : Entry), scan.entries[k]? = some e → (e.parent = none ↔ k = 0)
  /-- A parent is the directory that the entry is in, and comes before it. -/
  parents : ∀ (k : Nat) (e : Entry) (place : Nat), scan.entries[k]? = some e → e.parent = some place →
    place < k ∧ ∃ (d : Entry) (n : Name), scan.entries[place]? = some d ∧ d.kind = .directory ∧
      Name.Valid n ∧ e.path = d.path.child n ∧ e.name = Text.Utf8.lossy n
  /-- No two entries have paths with the same steps. -/
  distinct : scan.entries.Pairwise fun a b => a.path.same b.path = false

/-- Every finding is accounted for once, by an entry or by an error that begins with its path, in order, and
there are no other entries or errors. -/
def Scan.Accounts (root : Path) (found : List Finding) (scan : Scan) : Prop :=
  ∃ outcomes, List.Forall₂ (Finding.Accounted root) found outcomes ∧
    scan.entries = outcomes.filterMap Sum.getLeft? ∧ scan.errors = outcomes.filterMap Sum.getRight?

/-- What stands for the root has no parent, and nothing else. -/
theorem Placed.top_iff (h : Placed root entries k loc e) : e.parent = none ↔ loc = [] := by
  cases h with
  | top seen => simp [Scan.entryOf]
  | below seen lt get isDir path valid => simp [Scan.entryOf]

theorem Placed.first (h : Placed root entries 0 loc e) : loc = [] := by
  cases h with
  | top seen => rfl
  | below seen lt get isDir path valid => cases lt

/-- Entries that stand for different locations are consistent. -/
theorem Collected.consistent {locs : List Location} {c : Collection} (h : Collected root locs c)
    (hroot : root.bytes ≠ []) : c.scan.Consistent := by
  refine ⟨fun k e hget => ?_, fun k e place hget hparent => ?_, ?_⟩
  · obtain ⟨loc, _, hplaced⟩ := h.placed k e hget
    rw [hplaced.top_iff]
    constructor
    · intro hloc
      -- the first entry is at the root, too, and there are no two of them
      by_contra hk
      have hlt : 0 < c.scan.entries.length := by
        have := (List.getElem?_eq_some_iff.1 hget).1
        omega
      obtain ⟨loc₀, _, hfirst⟩ := h.placed 0 _ (List.getElem?_eq_getElem hlt)
      obtain ⟨hk', rfl⟩ := List.getElem?_eq_some_iff.1 hget
      refine List.pairwise_iff_getElem.1 h.distinct 0 k hlt hk' (Nat.pos_of_ne_zero hk) ?_
      rw [hfirst.path_eq, hplaced.path_eq, hfirst.first, hloc]
    · rintro rfl
      exact hplaced.first
  · obtain ⟨loc, hloc, hplaced⟩ := h.placed k e hget
    cases hplaced with
    | top seen => cases hparent
    | @below above n place' d seen lt get isDir path valid =>
      cases hparent
      have hd : d.path.bytes ≠ [] := by
        rw [path]
        exact Path.descend_ne_nil hroot fun n hn => h.valid _ hloc n (List.mem_append_left _ hn)
      exact ⟨lt, d, n, get, isDir, valid, rfl, Path.label_child hd valid⟩
  · exact h.distinct.imp fun hne => by simpa [Path.same] using hne

/-- **Every scan of a tree is consistent**, however its root is spelled and wherever it leads: only the first
entry has no parent; every other entry is behind the directory that it is in and has a name there; no two
entries are at one path; and all that the walk came upon has become an entry or an error. -/
theorem scan_consistent (walk : FileTree → Path → List Finding) (hwalk : FileTree.Tours walk) (t : FileTree)
    (h : t.WellFormed) (root : Path) (scan : Scan) (hscan : t.scanWith walk root = .ok scan) :
    scan.Consistent ∧ scan.Accounts root (walk t root) := by
  obtain ⟨node, hstat, rfl⟩ := FileTree.stat_of_scanWith hscan
  have hroot := (FileTree.admissible_of_stat hstat).1
  obtain ⟨locs, htour⟩ := hwalk t root node h hstat
  exact ⟨(htour.collected hroot).consistent hroot, Collection.ofWalk_accounted root (walk t root)⟩

theorem scan_consistent_spelled :
    let root : Path := .ofString ".//in/."
    FileTree.oddTree.scan root = .ok (Scan.ofOddments ".//in/.") ∧
      (Scan.ofOddments ".//in/.").Consistent ∧
      (Scan.ofOddments ".//in/.").Accounts root (FileTree.oddTree.walk root) := by
  have hscan : FileTree.oddTree.scan (.ofString ".//in/.") = .ok (Scan.ofOddments ".//in/.") := by cbv
  exact ⟨hscan, scan_consistent _ FileTree.walk_tours FileTree.oddTree FileTree.oddTree_wellFormed _ _ hscan⟩

end Casefile
