import Casefile.Proofs.NameMap
import Casefile.Proofs.Workbench

/-!
# The names of the case that is open

* `Workbench.names_of_closed`, `Workbench.names_of_open` — without a case nothing is asked of the database;
  otherwise the answer is what it gives.

Principal result: `names_merged` — the names are the merge of the two listings, or the first failure on the
way to it.
-/

set_option autoImplicit false

namespace Casefile

namespace Workbench

variable {σ τ : Type} {s : Surroundings σ τ} {w : Workbench σ} {naming : Naming}

theorem names_of_closed (hclosed : w.current.isOpen = false) :
    w.names s naming = (.failed .noCurrentCase, w) := by
  have hnone : w.current.label? = none := by simpa [CurrentCase.isOpen] using hclosed
  simp [names, CurrentCase.get, hnone]

theorem names_of_open {answer : Reply NameMap} {db : Metered σ} (hopen : w.current.isOpen = true)
    (hload : NameMap.load naming (s.store.withFaults s.faults) w.db = (answer, db)) :
    w.names s naming = (answer, { w with db }) := by
  obtain ⟨label, hlabel⟩ := Option.isSome_iff_exists.1 hopen
  simp [names, CurrentCase.get, hlabel, hload]

end Workbench

/-- **The names of a case are the merge of its two listings**, whichever rows these have.  Without a case the
answer is that none is open; if the database fails to list its logical sources it is that failure, whatever it
would say of its images; if it fails to list these, it is that failure. -/
theorem names_merged {σ τ : Type} (s : Surroundings σ τ) (w : Workbench σ) :
    (∀ logical images : List SourceRow, NameMap.Merged logical images
      (NameMap.merge .full logical images) (NameMap.merge .short logical images)) ∧
    (w.current.isOpen = false → ∀ naming, w.names s naming = (.failed .noCurrentCase, w)) ∧
    (w.current.isOpen = true → ∀ naming,
      (∀ e db, (s.store.withFaults s.faults).logicalSources w.db = (.failed e, db) →
        w.names s naming = (.failed e, { w with db })) ∧
      ∀ logical between, (s.store.withFaults s.faults).logicalSources w.db = (.ok logical, between) →
        (∀ e db, (s.store.withFaults s.faults).imageSources between = (.failed e, db) →
          w.names s naming = (.failed e, { w with db })) ∧
        ∀ images db, (s.store.withFaults s.faults).imageSources between = (.ok images, db) →
          w.names s naming = (.ok (NameMap.merge naming logical images), { w with db })) := by
  refine ⟨NameMap.merged_merge, fun hclosed _ => Workbench.names_of_closed hclosed, ?_⟩
  intro hopen naming
  refine ⟨?_, ?_⟩
  · intro e db hlogical
    exact Workbench.names_of_open hopen (NameMap.load_of_logical_failed hlogical)
  · intro logical between hlogical
    refine ⟨?_, ?_⟩
    · intro e db himages
      exact Workbench.names_of_open hopen (NameMap.load_of_image_failed hlogical himages)
    · intro images db himages
      exact Workbench.names_of_open hopen (NameMap.load_of_listed hlogical himages)

/-- A case in memory whose two listings repeat ids, each of them and both together. -/
def repeatingCase : Workbench MemoryDb :=
  .start ⟨some ⟨"case", "/case"⟩⟩ <|
    ((((MemoryDb.empty.withLogical ⟨2, "old"⟩).withLogical ⟨2, "new"⟩).withImage ⟨2, "/img/a.dd"⟩).withImage
      ⟨3, "/img/b.001"⟩).withImage ⟨3, "/img/b.002"⟩

/-- The database refuses to list its images. -/
def imagesLocked : Surroundings MemoryDb MemoryTx :=
  { bareSurroundings with faults := [⟨.imageSources, 1, .failure (.database .locked)⟩] }

theorem names_merged_repeating :
    (repeatingCase.names bareSurroundings .full).1 = .ok [(2, "new"), (3, "/img/b.001")] ∧
    (repeatingCase.names bareSurroundings .short).1 = .ok [(2, "new"), (3, "b.001")] ∧
    (repeatingCase.names imagesLocked .full).1 = .failed (.database .locked) := by
  obtain ⟨_, _, hopen⟩ := names_merged bareSurroundings repeatingCase
  obtain ⟨_, _, hlocked⟩ := names_merged imagesLocked repeatingCase
  have hnames naming := ((hopen rfl naming).2 _ _ rfl).2 _ _ rfl
  have hfails := ((hlocked rfl .full).2 _ _ rfl).1 _ _ rfl
  rw [hnames .full, hnames .short, hfails]
  refine ⟨rfl, ?_, rfl⟩
  decide

end Casefile
