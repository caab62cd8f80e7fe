import Casefile.FileTree.Walk
import Casefile.Proofs.FileTree.WellFormed
import Mathlib.Data.List.Basic

/-!
# The outline of a file tree

* `Spot` — a location below an object, and what the operating system tells of the object there.
* `Node.outline` — the spots at and below an object, a directory before its content.
* `Node.Alike` — two objects look the same, and so does all below them.

Principal results: `mem_outline_iff` — the outline of a well-formed tree holds what is in the tree, and nothing
else.  `outline_ascending` — the outline of a sorted tree goes up in the order of locations.  So
`outline_eq_of_alike` — the order in which objects were made leaves no trace in it.  `outline_above_before` — in
it, a directory comes before what it holds.
-/

set_option autoImplicit false

namespace Casefile

/-- A location below an object, and what the operating system tells of the object there. -/
structure Spot where
  loc : Location
  look : Look
  deriving DecidableEq, Repr

/-- The spot as seen from the directory that holds an object of the name `n`, if it is below that. -/
def Spot.under (n : Name) (s : Spot) : Spot :=
  ⟨n :: s.loc, s.look⟩

namespace Node

mutual

/-- The spots at and below an object, a directory before its content. -/
def outline : Node → List Spot
  | .file _ size m => [⟨[], .file size m⟩]
  | .link _ target m => [⟨[], .link target m⟩]
  | .dir _ m c => ⟨[], .dir m⟩ :: outlineEach c

/-- The spots below a directory that holds some objects. -/
def outlineEach : List Node → List Spot
  | [] => []
  | x :: xs => x.outline.map (Spot.under x.name) ++ outlineEach xs

end

variable {node a b : Node} {c : List Node} {s : Spot} {loc : Location}

theorem outline_eq (node : Node) : node.outline = ⟨[], node.look⟩ :: outlineEach node.content := by
  cases node <;> rfl

theorem outlineEach_eq (c : List Node) :
    outlineEach c = c.flatMap fun x => x.outline.map (Spot.under x.name) := by
  induction c with
  | nil => rfl
  | cons x xs ih => rw [outlineEach, ih, List.flatMap_cons]

theorem mem_outlineEach :
    s ∈ outlineEach c ↔ ∃ x ∈ c, ∃ s' ∈ x.outline, s = ⟨x.name :: s'.loc, s'.look⟩ := by
  simp only [outlineEach_eq, List.mem_flatMap, List.mem_map, Spot.under, eq_comm]

theorem loc_ne_nil (h : s ∈ outlineEach c) : s.loc ≠ [] := by
  obtain ⟨x, _, s', _, rfl⟩ := mem_outlineEach.1 h
  exact List.cons_ne_nil _ _

/-- **The outline holds what is in the tree**, and nothing else. -/
theorem mem_outline_iff (h : node.WellFormed) :
    ∀ s : Spot, s ∈ node.outline ↔ (node.at? s.loc).map look = some s.look := by
  refine WellFormed.content_induction (fun node hwf ih s => ?_) h
  obtain ⟨loc, seen⟩ := s
  rw [outline_eq, List.mem_cons]
  cases loc with
  | nil =>
    have hnot : ⟨[], seen⟩ ∉ outlineEach node.content := fun hmem => loc_ne_nil hmem rfl
    simp [hnot, at?, eq_comm]
  | cons n loc =>
    have hcons : (⟨n :: loc, seen⟩ : Spot) ≠ ⟨[], node.look⟩ := by simp
    simp only [hcons, false_or, at?]
    constructor
    · intro hmem
      obtain ⟨x, hx, ⟨loc', seen'⟩, hs, heq⟩ := mem_outlineEach.1 hmem
      cases heq
      rw [(find?_eq_some_iff hwf.distinct).2 ⟨hx, rfl⟩]
      exact (ih x hx _).1 hs
    · intro hat
      cases hfind : find? n node.content with
      | none => simp [hfind] at hat
      | some x =>
        obtain ⟨hx, rfl⟩ := mem_of_find? hfind
        rw [hfind] at hat
        exact mem_outlineEach.2 ⟨x, hx, ⟨loc, seen⟩, (ih x hx _).2 hat, rfl⟩

/-- All steps to a place in a well-formed tree are names. -/
theorem valid_of_mem_outline (h : node.WellFormed) :
    ∀ s ∈ node.outline, ∀ n ∈ s.loc, Name.Valid n := by
  refine WellFormed.content_induction (fun node hwf ih s hs => ?_) h
  rw [outline_eq] at hs
  rcases List.mem_cons.1 hs with rfl | hs
  · exact List.forall_mem_nil _
  · obtain ⟨x, hx, s', hs', rfl⟩ := mem_outlineEach.1 hs
    exact List.forall_mem_cons.2 ⟨hwf.names x hx, ih x hx s' hs'⟩

/-! ## Sorted trees -/

@[simp] theorem name_sorted (node : Node) : node.sorted.name = node.name := by
  cases node <;> rfl

@[simp] theorem look_sorted (node : Node) : node.sorted.look = node.look := by
  cases node <;> rfl

theorem sortedEach_eq (c : List Node) : sortedEach c = c.map sorted := by
  induction c with
  | nil => rfl
  | cons x xs ih => rw [sortedEach, ih, List.map_cons]

theorem mem_content_sorted {x : Node} : x ∈ node.sorted.content ↔ ∃ y ∈ node.content, y.sorted = x := by
  cases node with
  | file => simp [sorted, content]
  | link => simp [sorted, content]
  | dir n m c => simp [sorted, content, sortedEach_eq]

/-- The content of a sorted directory goes up in the order of the names. -/
theorem content_sorted_ascending (h : node.WellFormed) :
    node.sorted.content.Pairwise fun x y => x.name < y.name := by
  cases h with
  | file => exact List.Pairwise.nil
  | link => exact List.Pairwise.nil
  | dir n m names distinct below =>
    rename_i c
    have hle : ((sortedEach c).mergeSort fun x y => x.name ≤ y.name).Pairwise
        fun x y => x.name ≤ y.name := by
      refine (List.pairwise_mergeSort ?_ ?_ _).imp of_decide_eq_true
      · intro x y z hxy hyz
        exact decide_eq_true (List.le_trans (of_decide_eq_true hxy) (of_decide_eq_true hyz))
      · intro x y
        rw [Bool.or_eq_true, decide_eq_true_iff, decide_eq_true_iff]
        exact List.le_total _ _
    have hne : ((sortedEach c).mergeSort fun x y => x.name ≤ y.name).Pairwise
        fun x y => x.name ≠ y.name := by
      have hdistinct : ((sortedEach c).map name).Nodup := by
        simpa [sortedEach_eq, Function.comp_def] using distinct
      exact List.pairwise_map.1
        (((List.mergeSort_perm _ _).map name).nodup_iff.2 hdistinct)
    refine (hle.and hne).imp fun hboth => ?_
    exact (List.le_iff_lt_or_eq.1 hboth.1).resolve_right hboth.2

theorem WellFormed.sorted (h : node.WellFormed) : node.sorted.WellFormed := by
  refine WellFormed.content_induction (fun node hwf ih => ?_) h
  have hdistinct : (node.sorted.content.map name).Nodup := by
    refine List.pairwise_map.2 ((content_sorted_ascending hwf).imp fun hlt heq => ?_)
    exact List.lt_irrefl _ (heq ▸ hlt)
  have hnames : ∀ x ∈ node.sorted.content, Name.Valid x.name := by
    intro x hx
    obtain ⟨y, hy, rfl⟩ := mem_content_sorted.1 hx
    exact (name_sorted y).symm ▸ hwf.names y hy
  have hbelow : ∀ x ∈ node.sorted.content, x.WellFormed := by
    intro x hx
    obtain ⟨y, hy, rfl⟩ := mem_content_sorted.1 hx
    exact ih y hy
  cases node with
  | file n size m => exact .file n size m
  | link n target m => exact .link n target m
  | dir n m c => exact .dir n m hnames hdistinct hbelow

theorem mem_outline_sorted (h : node.WellFormed) :
    ∀ s : Spot, s ∈ node.sorted.outline ↔ s ∈ node.outline := by
  refine WellFormed.content_induction (fun node hwf ih s => ?_) h
  rw [outline_eq, outline_eq, look_sorted, List.mem_cons, List.mem_cons, mem_outlineEach,
    mem_outlineEach]
  refine or_congr Iff.rfl ⟨?_, ?_⟩
  · rintro ⟨x, hx, s', hs', rfl⟩
    obtain ⟨y, hy, rfl⟩ := mem_content_sorted.1 hx
    exact ⟨y, hy, s', (ih y hy s').1 hs', by rw [name_sorted]⟩
  · rintro ⟨y, hy, s', hs', rfl⟩
    exact ⟨y.sorted, mem_content_sorted.2 ⟨y, hy, rfl⟩, s', (ih y hy s').2 hs', by rw [name_sorted]⟩

/-- The outline of a sorted tree goes to every location where something is, and to no other. -/
theorem mem_locs_iff (h : node.WellFormed) (loc : Location) :
    loc ∈ node.sorted.outline.map Spot.loc ↔ (node.at? loc).isSome := by
  rw [List.mem_map]
  constructor
  · rintro ⟨s, hs, rfl⟩
    have hat := (mem_outline_iff h s).1 ((mem_outline_sorted h s).1 hs)
    obtain ⟨obj, hobj, _⟩ := Option.map_eq_some_iff.1 hat
    rw [hobj]
    rfl
  · intro hsome
    obtain ⟨obj, hobj⟩ := Option.isSome_iff_exists.1 hsome
    refine ⟨⟨loc, obj.look⟩, (mem_outline_sorted h _).2 ((mem_outline_iff h _).2 ?_), rfl⟩
    simp only [hobj, Option.map_some]

/-- **The outline of a sorted tree goes up in the order of locations.** -/
theorem outline_ascending (h : node.WellFormed) :
    node.sorted.outline.Pairwise fun s s' => s.loc < s'.loc := by
  refine WellFormed.content_induction (fun node hwf ih => ?_) h
  rw [outline_eq, List.pairwise_cons]
  refine ⟨fun s hs => ?_, ?_⟩
  · obtain ⟨x, _, s', _, rfl⟩ := mem_outlineEach.1 hs
    exact List.nil_lt_cons _ _
  · rw [outlineEach_eq, List.pairwise_flatMap]
    constructor
    · intro x hx
      obtain ⟨y, hy, rfl⟩ := mem_content_sorted.1 hx
      refine List.pairwise_map.2 ((ih y hy).imp fun hlt => ?_)
      exact List.cons_lt_cons_iff.2 (.inr ⟨rfl, hlt⟩)
    · -- a name before another decides, whatever is below the two
      refine (content_sorted_ascending hwf).imp fun hlt s hs s' hs' => ?_
      obtain ⟨t, _, rfl⟩ := List.mem_map.1 hs
      obtain ⟨t', _, rfl⟩ := List.mem_map.1 hs'
      exact List.cons_lt_cons_iff.2 (.inl hlt)

/-! ## Trees that look the same -/

/-- Two objects look the same, and at every location below them there are objects that look the same. -/
def Alike (a b : Node) : Prop :=
  ∀ loc, (a.at? loc).map look = (b.at? loc).map look

/-- Trees that hold the same in whatever order look the same. -/
theorem alike_of_perm (ha : a.WellFormed) (hb : b.WellFormed) (h : a.outline.Perm b.outline) :
    a.Alike b := by
  intro loc
  apply Option.ext
  intro seen
  rw [← mem_outline_iff ha ⟨loc, seen⟩, ← mem_outline_iff hb ⟨loc, seen⟩]
  exact h.mem_iff

/-- **The order in which objects were made leaves no trace in a sorted outline.** -/
theorem outline_eq_of_alike (ha : a.WellFormed) (hb : b.WellFormed) (h : a.Alike b) :
    a.sorted.outline = b.sorted.outline := by
  have hmem : ∀ s, s ∈ a.sorted.outline ↔ s ∈ b.sorted.outline := by
    intro s
    rw [mem_outline_sorted ha, mem_outline_sorted hb, mem_outline_iff ha, mem_outline_iff hb, h s.loc]
  have hnodup : ∀ {x : Node}, x.WellFormed → x.sorted.outline.Nodup := by
    intro x hx
    refine (outline_ascending hx).imp fun hlt heq => ?_
    exact List.lt_irrefl _ (heq ▸ hlt)
  refine List.Perm.eq_of_pairwise ?_ (outline_ascending ha) (outline_ascending hb)
    ((List.perm_ext_iff_of_nodup (hnodup ha) (hnodup hb)).2 hmem)
  intro s s' _ _ hlt hgt
  exact absurd hgt (List.lt_asymm hlt)

/-! ## Directories come before what they hold -/

/-- What is anywhere is in a directory. -/
theorem outline_above (h : node.WellFormed) {loc : Location} {n : Name} {seen : Look}
    (hs : ⟨loc ++ [n], seen⟩ ∈ node.outline) : ∃ m, ⟨loc, .dir m⟩ ∈ node.outline := by
  have hat := (mem_outline_iff h _).1 hs
  rw [at?_concat] at hat
  cases habove : node.at? loc with
  | none => simp [habove] at hat
  | some d =>
    simp only [habove, Option.bind_some] at hat
    cases d with
    | file => simp [content, find?] at hat
    | link => simp [content, find?] at hat
    | dir k m c => exact ⟨m, (mem_outline_iff h _).2 (by rw [habove]; rfl)⟩

/-- Below a location there is more than at it. -/
theorem lt_concat (above : Location) (n : Name) : above < above ++ [n] := by
  induction above with
  | nil => exact List.nil_lt_cons n []
  | cons k above ih => exact List.cons_lt_cons_iff.2 (.inr ⟨rfl, ih⟩)

/-- In the outline of a sorted tree a directory comes before what it holds. -/
theorem outline_above_before (h : node.WellFormed) {before after : List Spot}
    (heq : node.sorted.outline = before ++ s :: after) {above : Location} {n : Name}
    (hloc : s.loc = above ++ [n]) : ∃ m, ⟨above, .dir m⟩ ∈ before := by
  have hs : s ∈ node.sorted.outline := heq ▸ List.mem_append_right _ List.mem_cons_self
  have hs' : ⟨above ++ [n], s.look⟩ ∈ node.sorted.outline := hloc ▸ hs
  obtain ⟨m, hm⟩ := outline_above h.sorted hs'
  refine ⟨m, ?_⟩
  have hascending := outline_ascending h
  rw [heq] at hm hascending
  obtain ⟨_, hlater, _⟩ := List.pairwise_append.1 hascending
  have hlt : above < s.loc := hloc ▸ lt_concat above n
  rcases List.mem_append.1 hm with hm | hm
  · exact hm
  · exfalso
    rcases List.mem_cons.1 hm with heq' | hm
    · rw [← heq'] at hlt
      exact List.lt_irrefl above hlt
    · exact List.lt_asymm hlt ((List.pairwise_cons.1 hlater).1 _ hm)

end Node

end Casefile
