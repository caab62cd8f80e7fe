import Casefile.Proofs.Path.Spelling
import Casefile.Scan.Catalogue
import Mathlib.Data.List.Induction

/-!
# Scans from a catalogue

* `Catalogue.Change`, `Catalogue.ofChanges` — a call by which a catalogue is made, and the catalogue that a
  sequence of them makes.
* `Catalogue.Latest` — what is known of a path after some changes: the files entered last under a spelling
  of it, with the errors reported since.

Principal results: `Latest.apply` — one more change keeps that.  `catalogue_scans_latest` — so every scan
is what was entered last, or fails if nothing was; other paths have no part in it, and it does not matter how
the path is spelled.
-/

set_option autoImplicit false

namespace Casefile

namespace Catalogue

/-- A call by which a catalogue is made. -/
inductive Change where
  | enter (root : Path) (files : List String)
  | report (root : Path) (error : String)
  deriving DecidableEq, Repr

namespace Change

/-- The path that a change is about. -/
def root : Change → Path
  | enter root _ => root
  | report root _ => root

/-- The catalogue after a change. -/
def apply (c : Catalogue) : Change → Catalogue
  | enter root files => c.enter root files
  | report root error => c.report root error

/-- The change enters files under a spelling of a path. -/
def Enters (root : Path) : Change → Prop
  | enter spelled _ => spelled.same root
  | report _ _ => False

/-- The error that the change reports of a path, under any spelling of it. -/
def error? (root : Path) : Change → Option String
  | enter _ _ => none
  | report spelled error => if spelled.same root then some error else none

end Change

/-- The catalogue that changes make one after another. -/
def ofChanges (changes : List Change) : Catalogue :=
  changes.foldl Change.apply []

variable {c : Catalogue} {root spelled : Path} {s : Scan} {files : List String} {changes : List Change}
  {change : Change}

/-! ## What a change does to a scan -/

/-- Spellings of one path are found under the same paths. -/
theorem find?_congr (h : root.same spelled) : c.find? root = c.find? spelled := by
  simp only [find?, Path.same, Path.same_iff.1 h]

theorem find?_cons (p : Path) (s : Scan) (c : Catalogue) (root : Path) :
    find? ((p, s) :: c) root = if p.same root then some s else c.find? root := by
  simp only [find?, List.find?_cons]
  cases p.same root <;> rfl

theorem find?_put (spelled : Path) (s : Scan) (c : Catalogue) (root : Path) :
    (c.put spelled s).find? root = if spelled.same root then some s else c.find? root := by
  induction c with
  | nil => exact find?_cons spelled s [] root
  | cons e c ih =>
    obtain ⟨p, old⟩ := e
    rw [put, find?_cons p old]
    split
    · rename_i hp
      have hsame : p.same root = spelled.same root := by rw [Path.same, Path.same, Path.same_iff.1 hp]
      rw [find?_cons, hsame]
      split <;> rfl
    · rename_i hp
      rw [find?_cons, ih]
      -- the path of the first scan is not a spelling of both
      by_cases hs : spelled.same root
      · have hroot : ¬ p.same root := fun h =>
          hp (Path.same_iff.2 ((Path.same_iff.1 h).trans (Path.same_iff.1 hs).symm))
        rw [if_neg hroot, if_pos hs, if_pos hs]
      · rw [if_neg hs, if_neg hs]

theorem find?_enter (spelled : Path) (files : List String) (c : Catalogue) (root : Path) :
    (c.enter spelled files).find? root =
      if spelled.same root then some (listing spelled files) else c.find? root :=
  find?_put spelled (listing spelled files) c root

theorem find?_report (spelled : Path) (error : String) (c : Catalogue) (root : Path) :
    (c.report spelled error).find? root =
      if spelled.same root then (c.find? root).map (·.addError error) else c.find? root := by
  rw [report]
  split
  · rename_i s hs
    rw [find?_put]
    split
    · rename_i hsame
      rw [← find?_congr hsame, hs]
      rfl
    · rfl
  · rename_i hnone
    split
    · rename_i hsame
      rw [← find?_congr hsame, hnone]
      rfl
    · rfl

/-- A change of another path has no part in a scan. -/
theorem find?_apply_other (h : ¬ change.root.same root) : (change.apply c).find? root = c.find? root := by
  cases change with
  | enter spelled files => exact (find?_enter spelled files c root).trans (if_neg h)
  | report spelled error => exact (find?_report spelled error c root).trans (if_neg h)

/-- What a change does to the scan of its own path depends on that scan alone. -/
theorem find?_apply_congr {c' : Catalogue} (h : c.find? root = c'.find? root) (change : Change) :
    (change.apply c).find? root = (change.apply c').find? root := by
  cases change with
  | enter spelled files => exact (find?_enter ..).trans (h ▸ (find?_enter ..).symm)
  | report spelled error => exact (find?_report ..).trans (h ▸ (find?_report ..).symm)

/-! ## What is known of a path -/

/-- What changes have made known of a path: nothing unless files were entered under a spelling of it, else
the files entered last, with the errors reported since. -/
inductive Latest (root : Path) : List Change → Option Scan → Prop where
  | unknown {changes : List Change} (hnone : ∀ change ∈ changes, ¬ change.Enters root) :
      Latest root changes none
  | entered {before after : List Change} {spelled : Path} {files : List String}
      (hsame : spelled.same root) (hlast : ∀ change ∈ after, ¬ change.Enters root) :
      Latest root (before ++ .enter spelled files :: after)
        (some ⟨(listing spelled files).entries, after.filterMap (Change.error? root)⟩)

theorem forall_mem_concat {P : Change → Prop} (h : ∀ change ∈ changes, P change) (hlast : P change) :
    ∀ c ∈ changes ++ [change], P c := by
  intro c hc
  rcases List.mem_append.1 hc with hc | hc
  · exact h c hc
  · exact List.mem_singleton.1 hc ▸ hlast

/-- A change that enters nothing under a spelling of the path may report an error of it. -/
theorem Latest.concat {known : Option Scan} (h : Latest root changes known) (change : Change)
    (hnot : ¬ change.Enters root) :
    Latest root (changes ++ [change])
      (known.map fun s => ⟨s.entries, s.errors ++ (change.error? root).toList⟩) := by
  cases h with
  | unknown hnone => exact .unknown (forall_mem_concat hnone hnot)
  | @entered before after spelled files hsame hlast =>
    have herrors : (after ++ [change]).filterMap (Change.error? root) =
        after.filterMap (Change.error? root) ++ (change.error? root).toList := by
      rw [List.filterMap_append, List.filterMap_cons]
      cases change.error? root <;> rfl
    rw [List.append_assoc, List.cons_append, Option.map_some, ← herrors]
    exact .entered hsame (forall_mem_concat hlast hnot)

/-- **One more change keeps what is known up to date.** -/
theorem Latest.apply (h : Latest root changes (c.find? root)) (change : Change) :
    Latest root (changes ++ [change]) ((change.apply c).find? root) := by
  cases change with
  | enter spelled files =>
    rw [Change.apply, find?_enter]
    split
    · rename_i hsame
      exact .entered hsame fun _ hmem => by cases hmem
    · rename_i hother
      have hconcat := h.concat (.enter spelled files) hother
      simpa [Change.error?] using hconcat
  | report spelled error =>
    rw [Change.apply, find?_report]
    have hconcat := h.concat (.report spelled error) id
    split
    · rename_i hsame
      simpa [Change.error?, hsame, Scan.addError] using hconcat
    · rename_i hother
      simpa [Change.error?, hother] using hconcat

theorem ofChanges_concat (changes : List Change) (change : Change) :
    ofChanges (changes ++ [change]) = change.apply (ofChanges changes) :=
  List.foldl_append

/-- **What is known of a path is up to date after any changes.** -/
theorem latest_ofChanges (changes : List Change) (root : Path) :
    Latest root changes ((ofChanges changes).find? root) := by
  induction changes using List.reverseRecOn with
  | nil => exact .unknown fun _ h => by cases h
  | append_singleton changes change ih =>
    rw [ofChanges_concat]
    exact ih.apply change

/-- Changes of other paths have no part in what is known of a path. -/
theorem find?_ofChanges_filter (changes : List Change) (root : Path) :
    (ofChanges (changes.filter (·.root.same root))).find? root = (ofChanges changes).find? root := by
  induction changes using List.reverseRecOn with
  | nil => rfl
  | append_singleton changes change ih =>
    rw [List.filter_append, ofChanges_concat]
    by_cases h : change.root.same root
    · have hself : [change].filter (·.root.same root) = [change] := by simp [h]
      rw [hself, ofChanges_concat]
      exact find?_apply_congr ih change
    · have hnone : [change].filter (·.root.same root) = [] := by simp [h]
      rw [hnone, List.append_nil, find?_apply_other h]
      exact ih

/-- The scan of a path fails exactly if nothing is known of it. -/
theorem scan_eq (c : Catalogue) (root : Path) :
    c.scan root = match c.find? root with
      | some s => .ok s
      | none => .error (.notFound root.display) := rfl

/-- **A catalogue answers with what was entered last**: after any changes the scan of a path fails with the
text of the path if no files were entered under a spelling of it.  Else it has the directory under the
spelling it was entered with last, below it a file for each of the names given with that, in their
order, and the errors that have been reported of it since.  Changes of other paths have no part in it,
and another spelling of the path has the same scan.  Two paths are spellings of one exactly if both can
be shortened to one spelling; a leading `./` makes a difference, unless there is one. -/
theorem catalogue_scans_latest (changes : List Change) (root : Path) :
    let c := ofChanges changes
    ((∀ change ∈ changes, ¬ change.Enters root) ∧ c.scan root = .error (.notFound root.display) ∨
      ∃ before spelled files after, changes = before ++ .enter spelled files :: after ∧
        spelled.same root ∧ (∀ change ∈ after, ¬ change.Enters root) ∧
        c.scan root = .ok
          ⟨⟨spelled, spelled.label, .directory, 0, none, none⟩ ::
            files.map fun f => ⟨spelled.join (.ofString f), f, .file, 1, none, some 0⟩,
            after.filterMap (Change.error? root)⟩) ∧
      c.scan root = (ofChanges (changes.filter (·.root.same root))).scan root ∧
      (∀ spelled, spelled.same root → ∀ s, c.scan spelled = .ok s ↔ c.scan root = .ok s) ∧
      (∀ p q : Path, p.same q ↔ ∃ bs, Relation.ReflTransGen Path.Shortens p.bytes bs ∧
        Relation.ReflTransGen Path.Shortens q.bytes bs) ∧
      ∀ p : Path, p.same ⟨Path.dot :: Path.slash :: p.bytes⟩ ↔ p.components.head? = some .here := by
  intro c
  refine ⟨?_, ?_, fun spelled hsame s => ?_, Path.same_iff_shortens, Path.same_here_iff⟩
  · have h := latest_ofChanges changes root
    generalize hknown : (ofChanges changes).find? root = known at h
    have hscan : c.scan root = _ := scan_eq c root
    rw [hknown] at hscan
    cases h with
    | unknown hnone => exact Or.inl ⟨hnone, hscan⟩
    | @entered before after spelled files hsame hlast =>
      exact Or.inr ⟨before, spelled, files, after, rfl, hsame, hlast, hscan⟩
  · rw [scan_eq, scan_eq, find?_ofChanges_filter]
  · rw [scan_eq, scan_eq, find?_congr hsame]
    cases c.find? root <;> simp

/-- The paths `d`, `d//`, `d/.` and `./d`; the last is another one. -/
def spelledPlain : Path := ⟨[0x64]⟩
def spelledSlashes : Path := ⟨[0x64, Path.slash, Path.slash]⟩
def spelledDot : Path := ⟨[0x64, Path.slash, Path.dot]⟩
def spelledHere : Path := ⟨[Path.dot, Path.slash, 0x64]⟩

/-- Files entered twice under different spellings, with errors before, between and behind. -/
def respelledChanges : List Change :=
  [.report spelledPlain "early", .enter spelledPlain ["1"], .report spelledDot "between",
    .enter spelledSlashes ["2", "3"], .report spelledHere "elsewhere", .report spelledDot "late"]

theorem catalogue_scans_latest_respelled :
    let c := ofChanges respelledChanges
    spelledDot.same spelledPlain ∧
      c.scan spelledDot = .ok
        ⟨[⟨spelledSlashes, spelledSlashes.label, .directory, 0, none, none⟩,
          ⟨spelledSlashes.join (.ofString "2"), "2", .file, 1, none, some 0⟩,
          ⟨spelledSlashes.join (.ofString "3"), "3", .file, 1, none, some 0⟩], ["late"]⟩ ∧
      c.scan spelledHere = .error (.notFound spelledHere.display) := by
  intro c
  have hsame : spelledDot.same spelledPlain := by decide
  obtain ⟨_, _, hspelled, _, _⟩ := catalogue_scans_latest respelledChanges spelledPlain
  obtain ⟨_, hothers, _, _, _⟩ := catalogue_scans_latest respelledChanges spelledHere
  exact ⟨hsame, (hspelled spelledDot hsame _).2 rfl, hothers.trans rfl⟩

end Catalogue

end Casefile
