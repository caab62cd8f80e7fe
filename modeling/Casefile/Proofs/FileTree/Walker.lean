import Casefile.Proofs.FileTree.Outline
import Mathlib.Data.List.Induction

/-!
# Walks through file trees

* `Spot.findings` — what a walk comes upon at a spot.
* `Tour` — a walk that comes upon no location below its root twice, and upon things it cannot read.
* `FileTree.Tours`, `FileTree.Thorough` — a way to walk through any tree makes such walks, and where all can
  be read it comes upon all there is, a directory before what it holds and names in the order of their bytes.

Principal results: `Node.walk_eq` — a walk through an object comes upon what is in its outline, except for what is
too deep down for the operating system.  `walk_cases` — so does the walk from a root, or the root cannot be
followed.  `walk_tours`, `walk_thorough` — the walk here is a way on which scans can rely.
-/

set_option autoImplicit false

namespace Casefile

/-- What a walk from `root` comes upon at a spot: nothing where even the directory is too deep down. -/
def Spot.findings (root : Path) (s : Spot) : List Finding :=
  if (root.descend s.loc.dropLast).tooLong then []
  else if (root.descend s.loc).tooLong then
    .object (root.descend s.loc) s.loc.length (.error (.os .nameTooLong)) ::
      if s.look.isDir then [.fault (some (root.descend s.loc)) (.os .nameTooLong)] else []
  else [.object (root.descend s.loc) s.loc.length (.ok s.look)]

theorem Path.tooLong_descend {p : Path} (hp : p.bytes ≠ []) (hlong : p.tooLong = true) {loc : Location}
    (hloc : ∀ n ∈ loc, Name.Valid n) : (p.descend loc).tooLong = true := by
  have hle := Path.length_le_descend hp hloc
  simp only [tooLong, decide_eq_true_eq] at hlong ⊢
  omega

/-- Below a directory that is too deep down a walk comes upon nothing. -/
theorem Spot.findings_of_tooLong {root : Path} (hroot : root.bytes ≠ []) {above loc : Location}
    (habove : ∀ n ∈ above, Name.Valid n) (hlong : (root.descend above).tooLong = true)
    (hloc : ∀ n ∈ loc, Name.Valid n) (hne : loc ≠ []) (seen : Look) :
    Spot.findings root ⟨above ++ loc, seen⟩ = [] := by
  unfold Spot.findings
  rw [List.dropLast_append_of_ne_nil hne, Path.descend_append]
  refine if_pos (Path.tooLong_descend (Path.descend_ne_nil hroot habove) hlong ?_)
  exact fun n hn => hloc n (List.dropLast_subset loc hn)

/-- Where no path is too long, a walk comes upon the object itself. -/
theorem Spot.findings_of_fit {root : Path} (hroot : root.bytes ≠ []) {s : Spot}
    (hs : ∀ n ∈ s.loc, Name.Valid n) (hfit : (root.descend s.loc).tooLong = false) :
    s.findings root = [.object (root.descend s.loc) s.loc.length (.ok s.look)] := by
  have habove : (root.descend s.loc.dropLast).tooLong = false := by
    obtain ⟨loc, seen⟩ := s
    rcases List.eq_nil_or_concat' loc with rfl | ⟨above, n, rfl⟩
    · exact hfit
    · rw [List.dropLast_concat]
      have hvalid : ∀ n ∈ above, Name.Valid n := fun n' hn' => hs n' (List.mem_append_left _ hn')
      have hlast : ∀ n' ∈ [n], Name.Valid n' := fun n' hn' => hs n' (List.mem_append_right _ hn')
      cases hlong : (root.descend above).tooLong with
      | false => rfl
      | true =>
        have hbelow := Path.tooLong_descend (Path.descend_ne_nil hroot hvalid) hlong hlast
        rw [← Path.descend_append, hfit] at hbelow
        cases hbelow
  simp [Spot.findings, habove, hfit]

namespace Node

variable {node : Node} {c : List Node} {root : Path}

theorem walk_cons (above : Path) (depth : Nat) (node : Node) :
    walk above depth node =
      .object (above.child node.name) depth (lookAt (above.child node.name) node) ::
        if (above.child node.name).tooLong then
          if node.look.isDir then [.fault (some (above.child node.name)) (.os .nameTooLong)] else []
        else walkEach (above.child node.name) (depth + 1) node.content := by
  cases node with
  | file n size m => unfold walk; split <;> rfl
  | link n target m => unfold walk; split <;> rfl
  | dir n m c => rfl

theorem walkEach_flatMap (above : Path) (depth : Nat) (c : List Node) :
    walkEach above depth c = c.flatMap (walk above depth) := by
  induction c with
  | nil => rfl
  | cons x xs ih => rw [walkEach, ih, List.flatMap_cons]

/-- A walk through the objects of a directory comes upon what is in their outlines. -/
theorem walkEach_of_walk (base : Location)
    (h : ∀ x ∈ c, walk (root.descend base) (base.length + 1) x =
      x.outline.flatMap fun s => Spot.findings root ⟨base ++ x.name :: s.loc, s.look⟩) :
    walkEach (root.descend base) (base.length + 1) c =
      (outlineEach c).flatMap fun s => Spot.findings root ⟨base ++ s.loc, s.look⟩ := by
  rw [walkEach_flatMap, outlineEach_eq, List.flatMap_assoc, List.flatMap_def, List.flatMap_def]
  congr 1
  refine List.map_congr_left fun x hx => ?_
  rw [h x hx, List.flatMap_map]
  rfl

/-- A walk through an object of the directory at the location `base` comes upon what is in its outline. -/
theorem walk_eq (hroot : root.bytes ≠ []) (h : node.WellFormed) :
    ∀ base : Location, (∀ n ∈ base, Name.Valid n) → Name.Valid node.name →
      (root.descend base).tooLong = false →
      walk (root.descend base) (base.length + 1) node =
        node.outline.flatMap fun s => Spot.findings root ⟨base ++ node.name :: s.loc, s.look⟩ := by
  refine WellFormed.content_induction (fun node hwf ih base hbase hname hshort => ?_) h
  obtain ⟨here, hhere⟩ : ∃ here, here = base ++ [node.name] := ⟨_, rfl⟩
  have hpath : (root.descend base).child node.name = root.descend here := by
    rw [hhere, Path.descend_append]
    rfl
  have hlength : here.length = base.length + 1 := by simp [hhere]
  have hdrop : here.dropLast = base := by simp [hhere]
  have hvalid : ∀ n ∈ here, Name.Valid n := by
    intro n hn
    rw [hhere] at hn
    rcases List.mem_append.1 hn with hn | hn
    · exact hbase n hn
    · exact List.mem_singleton.1 hn ▸ hname
  have hbelow : ∀ s : Spot, base ++ node.name :: s.loc = here ++ s.loc := by simp [hhere]
  simp only [walk_cons, outline_eq, List.flatMap_cons, hbelow, hpath, ← hlength, List.append_nil]
  have hfirst : Spot.findings root ⟨here, node.look⟩ =
      if (root.descend here).tooLong then
        .object (root.descend here) here.length (.error (.os .nameTooLong)) ::
          if node.look.isDir then [.fault (some (root.descend here)) (.os .nameTooLong)] else []
      else [.object (root.descend here) here.length (.ok node.look)] := by
    unfold Spot.findings
    rw [hdrop, hshort]
    rfl
  rw [hfirst]
  cases hlong : (root.descend here).tooLong with
  | true =>
    have hnone : ∀ s ∈ outlineEach node.content, Spot.findings root ⟨here ++ s.loc, s.look⟩ = [] := by
      intro s hs
      have hmem : s ∈ node.outline := outline_eq node ▸ List.mem_cons_of_mem _ hs
      exact Spot.findings_of_tooLong hroot hvalid hlong (valid_of_mem_outline hwf s hmem)
        (loc_ne_nil hs) s.look
    rw [List.flatMap_eq_nil_iff.2 hnone]
    simp [lookAt, hlong]
  | false =>
    rw [walkEach_of_walk here fun x hx => ih x hx here hvalid (hwf.names x hx) hlong]
    simp [lookAt, hlong]

end Node

/-! ## The walk from a root -/

/-- Spots below a root, in the order of their locations. -/
structure Spot.Below (l : List Spot) : Prop where
  ascending : l.Pairwise fun s s' => s.loc < s'.loc
  loc_ne_nil : ∀ s ∈ l, s.loc ≠ []
  valid : ∀ s ∈ l, ∀ n ∈ s.loc, Name.Valid n

/-- Spots in the order of their locations are different ones. -/
theorem Spot.Below.distinct {l : List Spot} (h : Spot.Below l) :
    l.Pairwise fun s s' => s.loc ≠ s'.loc := by
  refine h.ascending.imp fun hlt heq => ?_
  exact List.lt_irrefl _ (heq ▸ hlt)

theorem Node.WellFormed.outline_below {node : Node} (h : node.WellFormed) :
    Spot.Below (Node.outlineEach node.sorted.content) := by
  have hall := Node.outline_ascending h
  rw [Node.outline_eq] at hall
  refine ⟨(List.pairwise_cons.1 hall).2, fun s hs => Node.loc_ne_nil hs, fun s hs => ?_⟩
  refine Node.valid_of_mem_outline h.sorted s ?_
  rw [Node.outline_eq]
  exact List.mem_cons_of_mem _ hs

namespace FileTree

variable {t : FileTree} {root : Path} {node aim : Node}

theorem not_tooLong_of_stat {follow : Bool} (hstat : t.stat follow root = .ok node) :
    root.tooLong = false := by
  have hlt := (admissible_of_stat hstat).2
  unfold Path.tooLong
  simpa using hlt

/-- A walk comes upon its root. -/
theorem findings_root (hstat : t.stat false root = .ok node) (seen : Look) :
    Spot.findings root ⟨[], seen⟩ = [.object root 0 (.ok seen)] :=
  Spot.findings_of_fit (admissible_of_stat hstat).1 (List.forall_mem_nil _) (not_tooLong_of_stat hstat)

/-- A walk through the objects of a directory comes upon what is in their outlines. -/
theorem walkEach_of_stat (hstat : t.stat false root = .ok node) (haim : aim.WellFormed) :
    Node.walkEach root 1 aim.sorted.content =
      (Node.outlineEach aim.sorted.content).flatMap (Spot.findings root) := by
  have hbelow := Node.walkEach_of_walk [] fun x hx =>
    Node.walk_eq (admissible_of_stat hstat).1 (haim.sorted.content x hx) [] (List.forall_mem_nil _)
      (haim.sorted.names x hx) (not_tooLong_of_stat hstat)
  simpa using hbelow

/-- **A walk comes upon the root and what is in its outline**, if the root is no link. -/
theorem walk_of_stat (h : t.WellFormed) (hstat : t.stat false root = .ok node)
    (hlink : ∀ n target m, node ≠ .link n target m) :
    t.walk root = node.sorted.outline.flatMap (Spot.findings root) := by
  rw [Node.outline_eq, Node.look_sorted, List.flatMap_cons, findings_root hstat,
    ← walkEach_of_stat hstat (h.stat hstat)]
  unfold walk
  rw [hstat]
  cases node with
  | file => rfl
  | link n target m => exact absurd rfl (hlink n target m)
  | dir => rfl

theorem walk_of_link {n : Name} {target : List UInt8} {m : Int} (hstat : t.stat false root = .ok (.link n target m))
    (haim : t.stat true root = .ok aim) :
    t.walk root = .object root 0 (.ok (.link target m)) :: Node.walkEach root 1 aim.sorted.content := by
  unfold walk
  rw [hstat]
  simp only [haim]

/-- Where the root is a link that leads nowhere, a walk comes upon nothing else. -/
theorem walk_of_lost {n : Name} {target : List UInt8} {m : Int} {e : IoFault}
    (hstat : t.stat false root = .ok (.link n target m)) (haim : t.stat true root = .error e) :
    t.walk root = [.fault (some root) e] := by
  unfold walk
  rw [hstat]
  simp only [haim]

/-- **What a walk comes upon**: the root and some spots below it in the order of their locations, or only
that the root cannot be followed. -/
theorem walk_cases (h : t.WellFormed) (hstat : t.stat false root = .ok node) :
    (∃ e, t.walk root = [.fault (some root) e]) ∨
      ∃ spots, Spot.Below spots ∧
        t.walk root = (⟨[], node.look⟩ :: spots).flatMap (Spot.findings root) := by
  by_cases hlink : ∃ n target m, node = .link n target m
  · obtain ⟨n, target, m, rfl⟩ := hlink
    cases haim : t.stat true root with
    | error e => exact .inl ⟨e, walk_of_lost hstat haim⟩
    | ok aim =>
      refine .inr ⟨_, (h.stat haim).outline_below, ?_⟩
      rw [walk_of_link hstat haim, walkEach_of_stat hstat (h.stat haim), List.flatMap_cons,
        findings_root hstat]
      rfl
  · have hnot : ∀ n target m, node ≠ .link n target m :=
      fun n target m heq => hlink ⟨n, target, m, heq⟩
    refine .inr ⟨_, (h.stat hstat).outline_below, ?_⟩
    rw [walk_of_stat h hstat hnot, Node.outline_eq, Node.look_sorted]

end FileTree

/-! ## Walks from anywhere -/

/-- A walk that comes upon objects at different locations below `root`, and upon things it cannot read. -/
inductive Tour (root : Path) : List Location → List Finding → Prop
  | start : Tour root [] []
  | object {locs : List Location} {found : List Finding} {loc : Location} (before : Tour root locs found)
      (valid : ∀ n ∈ loc, Name.Valid n) (new : loc ∉ locs) (look : Except IoFault Look) :
      Tour root (locs ++ [loc]) (found ++ [.object (root.descend loc) loc.length look])
  | fault {locs : List Location} {found : List Finding} (before : Tour root locs found)
      (path? : Option Path) (e : IoFault) : Tour root locs (found ++ [.fault path? e])

/-- What a walk from `root` comes upon at a spot where all can be read. -/
def Spot.found (root : Path) (s : Spot) : Finding :=
  .object (root.descend s.loc) s.loc.length (.ok s.look)

variable {root : Path} {locs : List Location} {found : List Finding} {s : Spot}

/-- A tour that goes on to a new spot is one. -/
theorem Tour.findings (h : Tour root locs found) (hs : ∀ n ∈ s.loc, Name.Valid n) (hnew : s.loc ∉ locs) :
    ∃ locs', Tour root locs' (found ++ s.findings root) ∧ locs' ⊆ locs ++ [s.loc] := by
  unfold Spot.findings
  split
  · exact ⟨locs, by simpa using h, List.subset_append_left _ _⟩
  · split
    · have hobject := h.object hs hnew (.error (.os .nameTooLong))
      refine ⟨locs ++ [s.loc], ?_, List.Subset.refl _⟩
      split
      · simpa using hobject.fault (some (root.descend s.loc)) (.os .nameTooLong)
      · exact hobject
    · exact ⟨locs ++ [s.loc], h.object hs hnew (.ok s.look), List.Subset.refl _⟩

/-- Going to different spots one after another is a tour. -/
theorem tour_flatMap (root : Path) (spots : List Spot) (hvalid : ∀ s ∈ spots, ∀ n ∈ s.loc, Name.Valid n)
    (hdistinct : spots.Pairwise fun s s' => s.loc ≠ s'.loc) :
    ∃ locs, Tour root locs (spots.flatMap (Spot.findings root)) ∧ locs ⊆ spots.map Spot.loc := by
  induction spots using List.reverseRecOn with
  | nil => exact ⟨[], .start, List.Subset.refl _⟩
  | append_singleton spots s ih =>
    obtain ⟨hbefore, _, hlast⟩ := List.pairwise_append.1 hdistinct
    obtain ⟨locs, htour, hsub⟩ := ih (fun s' hs' => hvalid s' (List.mem_append_left _ hs')) hbefore
    have hnew : s.loc ∉ locs := by
      intro hmem
      obtain ⟨s', hs', heq⟩ := List.mem_map.1 (hsub hmem)
      exact hlast s' hs' s List.mem_cons_self heq
    obtain ⟨locs', htour', hsub'⟩ :=
      htour.findings (hvalid s (List.mem_append_right _ List.mem_cons_self)) hnew
    refine ⟨locs', by rwa [List.flatMap_append, List.flatMap_singleton], ?_⟩
    rw [List.map_append, List.map_singleton]
    intro loc hloc
    rcases List.mem_append.1 (hsub' hloc) with hloc | hloc
    · exact List.mem_append_left _ (hsub hloc)
    · exact List.mem_append_right _ hloc

namespace FileTree

/-- A way to walk through any tree comes upon no location twice, from wherever it starts. -/
def Tours (walk : FileTree → Path → List Finding) : Prop :=
  ∀ (t : FileTree) (root : Path) (node : Node), t.WellFormed → t.stat false root = .ok node →
    ∃ locs, Tour root locs (walk t root)

/-- A way to walk through any tree comes upon all that there is at and below a root that is no link, in the
order of its locations, if no path is too long to be read. -/
def Thorough (walk : FileTree → Path → List Finding) : Prop :=
  ∀ (t : FileTree) (root : Path) (node : Node), t.WellFormed → t.stat false root = .ok node →
    (∀ n target m, node ≠ .link n target m) →
    (∀ loc, (node.at? loc).isSome → (root.descend loc).bytes.length < maxPath) →
    walk t root = node.sorted.outline.map (Spot.found root)

theorem walk_tours : Tours walk := by
  intro t root node h hstat
  rcases walk_cases h hstat with ⟨e, hwalk⟩ | ⟨spots, hbelow, hwalk⟩
  · exact ⟨[], hwalk ▸ Tour.start.fault (some root) e⟩
  · rw [hwalk]
    obtain ⟨locs, htour, _⟩ := tour_flatMap root (⟨[], node.look⟩ :: spots)
      (List.forall_mem_cons.2 ⟨List.forall_mem_nil _, hbelow.valid⟩)
      (List.pairwise_cons.2 ⟨fun s hs hloc => hbelow.loc_ne_nil s hs hloc.symm, hbelow.distinct⟩)
    exact ⟨locs, htour⟩

theorem walk_thorough : Thorough walk := by
  intro t root node h hstat hlink hfit
  have hwf := h.stat hstat
  rw [walk_of_stat h hstat hlink, List.map_eq_flatMap, List.flatMap_def, List.flatMap_def]
  congr 1
  refine List.map_congr_left fun s hs => ?_
  refine Spot.findings_of_fit (admissible_of_stat hstat).1 (Node.valid_of_mem_outline hwf.sorted s hs) ?_
  have hsome := (Node.mem_locs_iff hwf s.loc).1 (List.mem_map_of_mem hs)
  simpa [Path.tooLong] using hfit s.loc hsome

end FileTree

end Casefile
