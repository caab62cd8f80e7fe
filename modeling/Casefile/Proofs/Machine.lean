import Casefile.Machine
import Casefile.Proofs.Store.Names

/-!
# What is kept in a database file

* `Machine.rowsAt` — the rows in a database file; `Machine.Keeps` — what has been recorded in it.
* `Machine.Usable` — as far as the file tree goes, the case in a directory can be opened.

Principal result: `Machine.Keeps.openCase` — a case that is usable can be opened, and what has been recorded
in it is there.
-/

set_option autoImplicit false

namespace Casefile

namespace Machine

/-- The rows in the database file at a location; where there is none there are no rows. -/
def rowsAt (m : Machine) (site : Location) : Rows :=
  ((m.databases.lookup site).getD .bare).rows

/-- What has been recorded in the database file at a location, which need not be there yet. -/
inductive Keeps (m : Machine) (site : Location) : List Deed → Prop where
  | nothing (h : m.databases.lookup site = none) : Keeps m site []
  | tables {t : Tables} {deeds : List Deed} (h : m.databases.lookup site = some t)
      (wellFormed : t.WellFormed) (shows : Shows t deeds) : Keeps m site deeds

/-- As far as the file tree goes, the case in a directory can be opened, and its database is at a location:
the directory is there or can be made, and if there is no database yet the file for it is empty or can
be made. -/
structure Usable (m : Machine) (now : Int) (dir : Path) (site : Location) : Prop where
  made : (m.tree.makeDirs now dir).1 = .ok ()
  found : ({ m with tree := (m.tree.makeDirs now dir).2 } : Machine).caseSite? dir = some site
  spare : m.databases.lookup site = none → ∃ m',
    ({ m with tree := (m.tree.makeDirs now dir).2 } : Machine).tablesAt now site = .ok (.bare, m')

variable {m : Machine} {now : Int} {dir : Path} {site : Location} {deeds : List Deed}

/-- Where there is no database the file tree decides whether a file can be opened. -/
theorem tablesAt_of_ofTree (hnone : m.databases.lookup site = none)
    (h : ((ofTree m.tree).tablesAt now site).isOk = true) :
    ∃ m', m.tablesAt now site = .ok (.bare, m') := by
  unfold tablesAt at h ⊢
  simp only [ofTree, List.lookup_nil] at h
  simp only [hnone]
  rcases hfound : m.tree.at? site with _ | ⟨_, size, _⟩ | _ | _
  · rw [hfound] at h
    by_cases hdir : (m.tree.at? site.dropLast).any (·.isDir) = true
    · exact ⟨_, if_pos hdir⟩
    · have hno : (m.tree.at? site.dropLast).any (·.isDir) = false := Bool.eq_false_iff.2 hdir
      simp only [hno, Bool.false_eq_true, if_false] at h
      cases h
  · rw [hfound] at h
    by_cases hsize : size ≤ emptyFileSize
    · exact ⟨_, if_pos hsize⟩
    · simp only [if_neg hsize] at h
      cases h
  · rw [hfound] at h
    cases h
  · rw [hfound] at h
    cases h

/-- A case that can be opened where there are no databases can be opened with the same file tree where there
are some. -/
theorem Usable.of_ofTree (h : (ofTree m.tree).Usable now dir site) : m.Usable now dir site := by
  refine ⟨h.made, h.found, fun hnone => tablesAt_of_ofTree hnone ?_⟩
  obtain ⟨m', hbare⟩ := h.spare rfl
  change (ofTree (m.tree.makeDirs now dir).2).tablesAt now site = .ok (.bare, m') at hbare
  rw [hbare]
  rfl

theorem lookup_save (m : Machine) (site : Location) (t : Tables) :
    (m.save site t).databases.lookup site = some t :=
  List.lookup_cons_self

/-- What becomes of the file tree does not matter. -/
theorem Keeps.withTree (h : m.Keeps site deeds) (tree : FileTree) :
    ({ m with tree } : Machine).Keeps site deeds := by
  cases h with
  | nothing hnone => exact .nothing hnone
  | tables hsome hwf hshows => exact .tables hsome hwf hshows

/-- The entries of what has been recorded go up. -/
theorem Keeps.ascending (h : m.Keeps site deeds) (naming : Naming) :
    NameMap.Ascending (deeds.filterMap (Deed.listed? naming)) := by
  cases h with
  | nothing _ => exact List.Pairwise.nil
  | tables _ _ hshows => exact Deed.ascending_listed naming hshows.ids

/-- **A case that is usable can be opened**, and what has been recorded in it is there. -/
theorem Keeps.openCase (h : m.Keeps site deeds) (hu : m.Usable now dir site) :
    ∃ db m', m.openCase now dir = (.ok ⟨site, db⟩, m') ∧ db.closed = false ∧
      db.committed.WellFormed ∧ Shows db.committed deeds ∧ db.committed.rows = m.rowsAt site := by
  obtain ⟨hmade, hfound, hspare⟩ := hu
  unfold Machine.openCase
  generalize m.tree.makeDirs now dir = made at hmade hfound hspare ⊢
  obtain ⟨answer, tree⟩ := made
  cases hmade
  simp only [hfound]
  cases h with
  | nothing hnone =>
    obtain ⟨m', hbare⟩ := hspare hnone
    have hrows : m.rowsAt site = Tables.bare.rows := by
      unfold rowsAt
      rw [hnone]
      rfl
    rw [hbare, hrows]
    exact ⟨_, _, rfl, rfl, Tables.fresh_wellFormed now, Shows.fresh now, rfl⟩
  | @tables t deeds hsome hwf hshows =>
    have htables : tablesAt ⟨tree, m.databases⟩ now site = .ok (t, ⟨tree, m.databases⟩) := by
      unfold tablesAt
      simp only [hsome]
    have hrows : m.rowsAt site = t.rows := by
      unfold rowsAt
      rw [hsome]
      rfl
    rw [htables, hrows]
    simp only [Db.migrate_of_wellFormed hwf]
    exact ⟨_, _, rfl, rfl, hwf, hshows, rfl⟩

end Machine

end Casefile
