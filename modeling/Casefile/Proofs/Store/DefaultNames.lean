import Casefile.Proofs.Store.Transactions
import Mathlib

/-!
# Default names

A logical source that is recorded without a name of its own is called after the number of those that its
transaction sees.  Others may be recorded meanwhile, and transactions be undone.

* `Deed.NamedBehind` — a deed has given such a source the name that comes behind those of some deeds.
* `Deed.NamedInTurn` — each of some deeds has done so behind the deeds before it.
* `Deed.unnamed?`, `Ledger.unnamed` — the sources that were recorded without a name, in the order in which they
  were committed.
* `SourceRow.place` — the number of sources up to an id.

Principal results: `namedInTurn_snoc` and `history_namedInTurn` — a request, and so any history, names sources in
turn.  `NamedInTurn.name_eq` — so the number is that of the place among the ids of all sources.
`history_default_names` — default names count up without repeats.
-/

set_option autoImplicit false

namespace Casefile

namespace Deed

/-- A source without a name of its own has got the default one behind the sources among some deeds. -/
def NamedBehind (earlier : List Deed) : Deed → Prop
  | .source request content =>
    request.name? = none →
      content.name = Tables.defaultSourceName ((earlier.filterMap root?).length + 1)
  | _ => True

/-- Every source has been named behind the deeds before it. -/
def NamedInTurn (deeds : List Deed) : Prop :=
  ∀ before deed after, deeds = before ++ deed :: after → deed.NamedBehind before

/-- A source that was recorded without a name of its own. -/
def unnamed? : Deed → Option Content
  | .source request content => if request.name? = none then some content else none
  | _ => none

variable {deeds : List Deed} {deed : Deed} {c : Content}

theorem unnamed?_eq_some_iff :
    deed.unnamed? = some c ↔ ∃ request, deed = .source request c ∧ request.name? = none := by
  cases deed with
  | source request content => simp [unnamed?, and_comm]
  | file => simp [unnamed?]
  | image => simp [unnamed?]

theorem id_of_unnamed? (h : deed.unnamed? = some c) : c.objectId = deed.id := by
  obtain ⟨_, rfl, _⟩ := unnamed?_eq_some_iff.1 h
  rfl

theorem namedInTurn_snoc (h : NamedInTurn deeds) (hdeed : deed.NamedBehind deeds) :
    NamedInTurn (deeds ++ [deed]) := by
  intro before x after heq
  rcases List.eq_nil_or_concat after with rfl | ⟨between, last, rfl⟩
  · obtain ⟨rfl, hx⟩ := List.append_inj' heq rfl
    cases hx
    exact hdeed
  · have hsplit : deeds ++ [deed] = (before ++ x :: between) ++ [last] := by
      rw [heq]
      simp
    obtain ⟨hdeeds, _⟩ := List.append_inj' hsplit rfl
    exact h before x between hdeeds

end Deed

/-- A request that is done names its source behind those that are shown. -/
theorem Shows.perform_namedBehind {d d' : Draft} {q : Request} {deed : Deed} {deeds : List Deed}
    (h : Shows d.tables deeds) (hd : d.WellFormed) (hp : d.perform q = .ok (deed, d')) :
    deed.NamedBehind deeds := by
  rw [Draft.perform_deed hp, h.sourceCount_eq hd.tables.rows]
  cases q with
  | source request =>
    intro hnone
    show request.name?.getD _ = _
    rw [hnone]
    rfl
  | file => trivial
  | image => trivial

/-- **After any history every source that was committed has been named in turn.** -/
theorem history_namedInTurn (now : Int) (events : List Event) :
    Deed.NamedInTurn (historyLedger now events).deeds := by
  have hfresh : Shows (.fresh now) [] ∧ Deed.NamedInTurn [] := by
    refine ⟨.fresh now, ?_⟩
    intro before deed after hnil
    simp at hnil
  have hend := Serial.preserves (P := fun t deeds => Shows t deeds ∧ Deed.NamedInTurn deeds)
    (fun hd hp h => ⟨h.1.perform hd hp, Deed.namedInTurn_snoc h.2 (h.1.perform_namedBehind hd hp)⟩)
    (historyLedger now events).settled hfresh (Tables.fresh_wellFormed now)
    (historyLedger_fits now events).settled
  exact hend.2

/-! ## Places -/

namespace SourceRow

/-- The number of rows up to an id, with that of the id itself. -/
def place (rows : List SourceRow) (id : ObjectId) : Nat :=
  rows.countP (·.objectId < id) + 1

variable {rows before after : List SourceRow} {row : SourceRow}

/-- **In a listing whose ids go up the place of a row is where it stands.** -/
theorem place_of_append (h : rows.Pairwise fun a b => a.objectId < b.objectId)
    (hrows : rows = before ++ row :: after) : place rows row.objectId = before.length + 1 := by
  subst hrows
  obtain ⟨_, hrest, hacross⟩ := List.pairwise_append.1 h
  have hbefore : before.countP (·.objectId < row.objectId) = before.length := by
    apply List.countP_eq_length.2
    intro r hr
    simpa using hacross r hr row List.mem_cons_self
  have hafter : (row :: after).countP (·.objectId < row.objectId) = 0 := by
    apply List.countP_eq_zero.2
    intro r hr
    rcases List.mem_cons.1 hr with rfl | hr
    · simp
    · have hlt := (List.pairwise_cons.1 hrest).1 r hr
      simp only [decide_eq_true_eq]
      lia
  rw [place, List.countP_append, hbefore, hafter, Nat.add_zero]

/-- Places go up with ids. -/
theorem place_lt {id : ObjectId} (hrow : row ∈ rows) (hlt : row.objectId < id) :
    place rows row.objectId < place rows id := by
  have hmono (l : List SourceRow) :
      l.countP (·.objectId < row.objectId) ≤ l.countP (·.objectId < id) := by
    apply List.countP_mono_left
    intro r _ hr
    simp only [decide_eq_true_eq] at hr ⊢
    exact Int.lt_trans hr hlt
  obtain ⟨before, after, rfl⟩ := List.append_of_mem hrow
  have hbefore := hmono before
  have hafter := hmono after
  -- the row itself is counted on one side only
  have hrow : [row].countP (·.objectId < row.objectId) = 0 := by simp
  have hrow' : [row].countP (·.objectId < id) = 1 := by simp [hlt]
  rw [place, place, ← List.singleton_append, List.countP_append, List.countP_append, List.countP_append,
    List.countP_append]
  omega

end SourceRow

theorem Tables.defaultSourceName_injective : Function.Injective defaultSourceName := by
  intro m n h
  exact Nat.repr_inj.1 ((String.append_right_inj "LogicalFileSet").1 h)

/-- **A source that was named in turn has the number of its place** among all sources. -/
theorem Deed.NamedInTurn.name_eq {deeds : List Deed} {c : Content} (h : NamedInTurn deeds)
    (hids : deeds.Pairwise fun a b => a.id < b.id) (hc : c ∈ deeds.filterMap unnamed?) :
    ⟨c.objectId, c.name⟩ ∈ deeds.filterMap root? ∧
      c.name = Tables.defaultSourceName (SourceRow.place (deeds.filterMap root?) c.objectId) := by
  obtain ⟨deed, hdeed, hsome⟩ := List.mem_filterMap.1 hc
  obtain ⟨request, rfl, hnone⟩ := unnamed?_eq_some_iff.1 hsome
  obtain ⟨before, after, hdeeds⟩ := List.append_of_mem hdeed
  have hsplit : deeds.filterMap root? =
      before.filterMap root? ++ ⟨c.objectId, c.name⟩ :: after.filterMap root? := by
    rw [hdeeds, List.filterMap_append]
    rfl
  refine ⟨by simp [hsplit], ?_⟩
  rw [SourceRow.place_of_append (pairwise_shown hids id_of_root?) hsplit]
  exact h before _ after hdeeds hnone

/-- The sources that were committed without a name of their own, in the order of their commits. -/
def Ledger.unnamed (l : Ledger) : List Content :=
  l.deeds.filterMap Deed.unnamed?

/-- **Default names count up without repeats**: after any history, a source that was committed without a name of
its own is listed under the number that is its place among the committed sources.  No two of these names are the
same, and the numbers go up with the ids and with the commits. -/
theorem history_default_names (now : Int) (events : List Event) :
    let db := (history now events).db
    let unnamed := (historyLedger now events).unnamed
    ∃ rows, Relational.store.logicalSources db = (.ok rows, db) ∧
      (∀ c ∈ unnamed, ⟨c.objectId, c.name⟩ ∈ rows ∧
        c.name = "LogicalFileSet" ++ toString (SourceRow.place rows c.objectId)) ∧
      (unnamed.map (·.name)).Nodup ∧
      unnamed.Pairwise fun c c' => c.objectId < c'.objectId ∧
        SourceRow.place rows c.objectId < SourceRow.place rows c'.objectId := by
  intro db unnamed
  have hinv := history_inv now events
  have hshows : Shows db.committed (historyLedger now events).deeds := history_shows now events
  have hnamed c (hc : c ∈ unnamed) := (history_namedInTurn now events).name_eq hshows.ids hc
  have hids : unnamed.Pairwise fun c c' => c.objectId < c'.objectId :=
    Deed.pairwise_shown hshows.ids Deed.id_of_unnamed?
  refine ⟨_, hshows.logicalSources hinv.committed.complete hinv.isOpen, hnamed, ?_, ?_⟩
  · refine List.pairwise_map.2 (hids.imp_of_mem ?_)
    intro c c' hc hc' hlt hsame
    rw [(hnamed c hc).2, (hnamed c' hc').2] at hsame
    have hplaces := SourceRow.place_lt (hnamed c hc).1 hlt
    exact Nat.ne_of_lt hplaces (Tables.defaultSourceName_injective hsame)
  · refine hids.imp_of_mem ?_
    intro c c' hc hc' hlt
    exact ⟨hlt, SourceRow.place_lt (hnamed c hc).1 hlt⟩

/-- A source of its own name and an image are there, and a source without one has been rolled back. -/
example : (historyLedger 0 (eventful ++ [.call (.commit "c")])).unnamed =
    [⟨4, "LogicalFileSet2", ⟨"dev"⟩⟩] := by cbv

end Casefile
