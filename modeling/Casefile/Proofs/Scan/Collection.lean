import Casefile.Scan.Walk
import Mathlib.Data.List.Forall2
import Mathlib.Data.List.Induction

/-!
# Collecting what a walk comes upon

* `Finding.Accounted` — a finding is accounted for by an entry, or by an error text that begins with its path.
* `Collection.Sound` — the table holds exactly the directories among the entries, and parents are earlier
  directories.

Principal results: `take_cases` — a finding adds one entry, or one error.  `ofWalk_accounted` — so everything a
walk comes upon is accounted for once and in order.  `ofWalk_sound` — whatever a walk comes upon, parents are
earlier directories.
-/

set_option autoImplicit false

namespace Casefile

/-- The path at which something is found; what has none is put down to the root. -/
def Finding.path (root : Path) : Finding → Path
  | .object p _ _ => p
  | .fault path? _ => path?.getD root

/-- What accounts for a finding: an entry for an object that could be looked at, or an error text that begins
with its path. -/
inductive Finding.Accounted (root : Path) : Finding → Entry ⊕ String → Prop
  | entry (p : Path) (depth : Nat) (seen : Look) (parent : Option Nat) :
      Accounted root (.object p depth (.ok seen)) (.inl (Scan.entryOf p parent seen))
  | error (f : Finding) (cause : String) :
      Accounted root f (.inr ((f.path root).display ++ ": " ++ cause))

/-! ## The texts of errors -/

namespace Scan

/-- The error text for something that cannot be read begins with its path. -/
theorem unreadable_begins (root : Path) (path? : Option Path) (e : IoFault) :
    ∃ cause, unreadable root path? e = (path?.getD root).display ++ ": " ++ cause := by
  cases path? with
  | none => exact ⟨e.message, rfl⟩
  | some p =>
    refine ⟨"IO error for operation on " ++ p.display ++ ": " ++ e.message, ?_⟩
    have hcut : ": IO error for operation on " = ": " ++ "IO error for operation on " := by decide
    unfold unreadable
    simp only [Option.getD_some, hcut, String.append_assoc]

/-- The error text for an object whose directory is not among the entries begins with its path. -/
theorem orphaned_begins (p : Path) :
    orphaned p = p.display ++ ": " ++ "parent directory was skipped" := by
  have hcut : ": parent directory was skipped" = ": " ++ "parent directory was skipped" := by decide
  unfold orphaned
  rw [hcut, String.append_assoc]

end Scan

namespace Collection

variable {root : Path} {c : Collection}

/-! ## One finding -/

/-- **What a finding adds**: one error that begins with its path, or the entry of an object. -/
theorem take_cases (root : Path) (c : Collection) (f : Finding) :
    (∃ cause, c.take root f = c.report ((f.path root).display ++ ": " ++ cause)) ∨
      ∃ p depth seen parent, f = .object p depth (.ok seen) ∧ c.parentOf? p depth = some parent ∧
        c.take root f = c.record (Scan.entryOf p parent seen) := by
  unfold take
  split
  · rename_i path? e
    obtain ⟨cause, htext⟩ := Scan.unreadable_begins root path? e
    exact .inl ⟨cause, by rw [htext]; rfl⟩
  · rename_i p depth look
    split
    · exact .inl ⟨_, by rw [Scan.orphaned_begins]; rfl⟩
    · rename_i parent hparent
      split
      · rename_i e
        obtain ⟨cause, htext⟩ := Scan.unreadable_begins root (some p) e
        exact .inl ⟨cause, by rw [htext]; rfl⟩
      · rename_i seen
        exact .inr ⟨p, depth, seen, parent, rfl, hparent, rfl⟩

/-- The collection of more findings. -/
theorem ofWalk_concat (root : Path) (found : List Finding) (f : Finding) :
    ofWalk root (found ++ [f]) = (ofWalk root found).take root f := by
  unfold ofWalk
  rw [List.foldl_append]
  rfl

/-! ## Everything is accounted for -/

/-- **Everything that a walk comes upon is accounted for once and in order**, and nothing else is in its
collection. -/
theorem ofWalk_accounted (root : Path) (found : List Finding) :
    ∃ outcomes, List.Forall₂ (Finding.Accounted root) found outcomes ∧
      (ofWalk root found).scan.entries = outcomes.filterMap Sum.getLeft? ∧
      (ofWalk root found).scan.errors = outcomes.filterMap Sum.getRight? := by
  induction found using List.reverseRecOn with
  | nil => exact ⟨[], .nil, rfl, rfl⟩
  | append_singleton found f ih =>
    obtain ⟨outcomes, hall, hentries, herrors⟩ := ih
    rw [ofWalk_concat]
    rcases take_cases root (ofWalk root found) f with
      ⟨cause, heq⟩ | ⟨p, depth, seen, parent, rfl, _, heq⟩
    · refine ⟨outcomes ++ [.inr ((f.path root).display ++ ": " ++ cause)], ?_, ?_, ?_⟩
      · exact List.rel_append hall (.cons (.error f cause) .nil)
      · simp [heq, report, Scan.addError, hentries]
      · simp [heq, report, Scan.addError, herrors]
    · refine ⟨outcomes ++ [.inl (Scan.entryOf p parent seen)], ?_, ?_, ?_⟩
      · exact List.rel_append hall (.cons (.entry p depth seen parent) .nil)
      · simp [heq, record, Scan.addEntry, hentries]
      · simp [heq, record, Scan.addEntry, herrors]

/-- Every entry is that of an object that could be looked at. -/
theorem mem_ofWalk {found : List Finding} {e : Entry} (he : e ∈ (ofWalk root found).scan.entries) :
    ∃ p depth seen parent, .object p depth (.ok seen) ∈ found ∧ e = Scan.entryOf p parent seen := by
  obtain ⟨outcomes, hall, hentries, _⟩ := ofWalk_accounted root found
  rw [hentries] at he
  obtain ⟨outcome, hmem, hleft⟩ := List.mem_filterMap.1 he
  obtain rfl := Sum.getLeft?_eq_some_iff.1 hleft
  obtain ⟨k, hk, hget⟩ := List.getElem_of_mem hmem
  obtain ⟨hlength, hall⟩ := List.forall₂_iff_get.1 hall
  have hk' : k < found.length := hlength ▸ hk
  have haccounted : Finding.Accounted root found[k] (.inl e) := hget ▸ hall k hk' hk
  have hf : found[k] ∈ found := List.getElem_mem hk'
  generalize found[k] = f at haccounted hf
  cases haccounted with
  | entry p depth seen parent => exact ⟨p, depth, seen, parent, hf, rfl⟩

/-! ## Parents are earlier directories -/

/-- The table holds exactly the directories among the entries, and parents are earlier directories. -/
structure Sound (c : Collection) : Prop where
  folders : ∀ p place, (p, place) ∈ c.folders ↔
    ∃ d : Entry, c.scan.entries[place]? = some d ∧ d.path = p ∧ d.kind = .directory
  parents : ∀ (k : Nat) (e : Entry) (place : Nat), c.scan.entries[k]? = some e → e.parent = some place →
    place < k ∧ ∃ d : Entry, c.scan.entries[place]? = some d ∧ d.kind = .directory

/-- What is looked up in the table is in it. -/
theorem mem_of_placeOf? {p : Path} {place : Nat} (h : c.placeOf? p = some place) :
    ∃ q, (q, place) ∈ c.folders ∧ q.components = p.components := by
  unfold placeOf? at h
  obtain ⟨⟨q, place'⟩, hfind, rfl⟩ := Option.map_eq_some_iff.1 h
  exact ⟨q, List.mem_of_find?_eq_some hfind, by simpa [Path.same] using List.find?_some hfind⟩

theorem placeOf?_of_mem {p q : Path} {place : Nat} (h : (q, place) ∈ c.folders)
    (hsame : q.components = p.components) : ∃ place', c.placeOf? p = some place' := by
  unfold placeOf?
  cases hfind : c.folders.find? fun folder => folder.1.same p with
  | some folder => exact ⟨folder.2, rfl⟩
  | none =>
    have hnot := List.find?_eq_none.1 hfind (q, place) h
    simp [Path.same, hsame] at hnot

/-- The parent of an object is nothing at the root, or else what stands in the table for the directory that
its path leads up to. -/
theorem parentOf?_cases {p : Path} {depth : Nat} {parent : Option Nat}
    (h : c.parentOf? p depth = some parent) :
    (depth = 0 ∧ parent = none) ∨
      ∃ q above place, p.parent? = some above ∧ parent = some place ∧ (q, place) ∈ c.folders ∧
        q.components = above.components := by
  cases depth with
  | zero =>
    cases h
    exact .inl ⟨rfl, rfl⟩
  | succ depth =>
    right
    obtain ⟨place, hplace, rfl⟩ := Option.map_eq_some_iff.1 h
    obtain ⟨above, habove, hlook⟩ := Option.bind_eq_some_iff.1 hplace
    obtain ⟨q, hmem, hsame⟩ := mem_of_placeOf? hlook
    exact ⟨q, above, place, habove, rfl, hmem, hsame⟩

theorem Sound.empty : empty.Sound := by
  refine ⟨fun p place => ⟨fun h => ?_, fun ⟨d, h, _⟩ => ?_⟩, fun k e place h _ => ?_⟩
  · cases h
  · cases h
  · cases h

theorem Sound.report (h : c.Sound) (text : String) : (c.report text).Sound :=
  ⟨h.folders, h.parents⟩

theorem getElem?_concat_eq_some_iff {l : List Entry} {e d : Entry} {k : Nat} :
    (l ++ [e])[k]? = some d ↔ l[k]? = some d ∨ k = l.length ∧ e = d := by
  rcases Nat.lt_trichotomy k l.length with hlt | rfl | hgt
  · have hne : k ≠ l.length := by omega
    simp [List.getElem?_append_left hlt, hne]
  · simp
  · have hne : k ≠ l.length := by omega
    have hnone : l[k]? = none := List.getElem?_eq_none (by omega)
    have hnone' : (l ++ [e])[k]? = none := List.getElem?_eq_none (by simp; omega)
    simp [hnone, hnone', hne]

/-- A table of the directories stays one when an entry is recorded. -/
theorem folders_record
    (h : ∀ p place, (p, place) ∈ c.folders ↔
      ∃ d : Entry, c.scan.entries[place]? = some d ∧ d.path = p ∧ d.kind = .directory)
    (e : Entry) (p : Path) (place : Nat) :
    (p, place) ∈ (c.record e).folders ↔
      ∃ d : Entry, (c.record e).scan.entries[place]? = some d ∧ d.path = p ∧ d.kind = .directory := by
  have hold : (c.record e).scan.entries = c.scan.entries ++ [e] := rfl
  simp only [hold, getElem?_concat_eq_some_iff]
  unfold record
  split
  · rename_i hdir
    rw [List.mem_cons, h, Prod.mk.injEq]
    constructor
    · rintro (⟨rfl, rfl⟩ | ⟨d, hget, hd⟩)
      · exact ⟨e, .inr ⟨rfl, rfl⟩, rfl, hdir⟩
      · exact ⟨d, .inl hget, hd⟩
    · rintro ⟨d, hget | ⟨rfl, rfl⟩, hpath, hkind⟩
      · exact .inr ⟨d, hget, hpath, hkind⟩
      · exact .inl ⟨hpath.symm, rfl⟩
  · rename_i hfile
    rw [h]
    constructor
    · rintro ⟨d, hget, hd⟩
      exact ⟨d, .inl hget, hd⟩
    · rintro ⟨d, hget | ⟨rfl, rfl⟩, hpath, hkind⟩
      · exact ⟨d, hget, hpath, hkind⟩
      · exact absurd hkind hfile

theorem Sound.record (h : c.Sound) {e : Entry}
    (he : ∀ place, e.parent = some place →
      ∃ d, c.scan.entries[place]? = some d ∧ d.kind = .directory) : (c.record e).Sound := by
  refine ⟨folders_record h.folders e, fun k e' place hget hparent => ?_⟩
  show place < k ∧ ∃ d, (c.scan.entries ++ [e])[place]? = some d ∧ d.kind = .directory
  simp only [getElem?_concat_eq_some_iff]
  rcases getElem?_concat_eq_some_iff.1 hget with hget | ⟨rfl, rfl⟩
  · obtain ⟨hlt, d, hd, hdir⟩ := h.parents k e' place hget hparent
    exact ⟨hlt, d, .inl hd, hdir⟩
  · obtain ⟨d, hd, hdir⟩ := he place hparent
    exact ⟨(List.getElem?_eq_some_iff.1 hd).1, d, .inl hd, hdir⟩

/-- **A finding keeps that parents are earlier directories.** -/
theorem Sound.take (h : c.Sound) (root : Path) (f : Finding) : (c.take root f).Sound := by
  rcases take_cases root c f with ⟨cause, heq⟩ | ⟨p, depth, seen, parent, _, hparent, heq⟩
  · rw [heq]
    exact h.report _
  · rw [heq]
    refine h.record fun place hplace => ?_
    rcases parentOf?_cases hparent with ⟨_, rfl⟩ | ⟨q, above, place', _, rfl, hmem, _⟩
    · cases hplace
    · cases hplace
      obtain ⟨d, hget, _, hdir⟩ := (h.folders q place).1 hmem
      exact ⟨d, hget, hdir⟩

/-- **Whatever a walk comes upon, parents are earlier directories.** -/
theorem ofWalk_sound (root : Path) (found : List Finding) : (ofWalk root found).Sound := by
  induction found using List.reverseRecOn with
  | nil => exact Sound.empty
  | append_singleton found f ih =>
    rw [ofWalk_concat]
    exact ih.take root f

end Collection

namespace FileTree

variable {walk : FileTree → Path → List Finding} {t : FileTree} {root : Path}

/-- The scan of a root that leads somewhere is what has been collected on the walk from there. -/
theorem scanWith_of_stat {node : Node} (hstat : t.stat false root = .ok node) :
    t.scanWith walk root = .ok (Collection.ofWalk root (walk t root)).scan := by
  unfold scanWith
  rw [hstat]

/-- Only a root that leads somewhere can be scanned. -/
theorem stat_of_scanWith {scan : Scan} (hscan : t.scanWith walk root = .ok scan) :
    ∃ node, t.stat false root = .ok node ∧ scan = (Collection.ofWalk root (walk t root)).scan := by
  unfold scanWith at hscan
  split at hscan
  · split at hscan <;> cases hscan
  · rename_i node hstat
    exact ⟨node, hstat, (Except.ok.inj hscan).symm⟩

end FileTree

/-- What is found in the directory among the odd objects, however the path to it is spelled. -/
def Scan.ofOddments (root : String) : Scan :=
  ⟨[⟨.ofString root, "in", .directory, 0, some 4, none⟩,
      ⟨.ofString (root ++ "/a"), "a", .directory, 0, some 5, some 0⟩,
      ⟨.ofString (root ++ "/a/b"), "b", .file, 1, some 6, some 1⟩,
      ⟨.ofString (root ++ "/a-b"), "a-b", .file, 3, none, some 0⟩,
      ⟨.ofString (root ++ "/z"), "z", .file, 4, some 7, some 0⟩], []⟩

end Casefile
