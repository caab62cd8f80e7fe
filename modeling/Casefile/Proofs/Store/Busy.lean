import Casefile.Proofs.Store.Names

/-!
# Listings while others commit

The two queries of a listing are made one after the other, and each sees what is committed at its own
moment.

* `Busy` — a session with what happens in it before each of the queries to come.
* `Relational.busy` — such a session as a `Store`, so that names are loaded from it as from any other.
* `Deed.merge_of_extended` — the logical sources of some deeds, merged with the images of more of them.

Principal result: `load_sandwiched` — the names that are loaded lie between those at the first query and
those at the second.
-/

set_option autoImplicit false

open scoped List

namespace Casefile

/-- A database that is part of a larger state. -/
def Store.within {ρ σ τ : Type} (part : ρ → σ) (put : ρ → σ → ρ) (store : Store σ τ) : Store ρ τ where
  begin r :=
    let (answer, s) := store.begin (part r)
    (answer, put r s)
  addSource request tx r :=
    let (answer, tx, s) := store.addSource request tx (part r)
    (answer, tx, put r s)
  addFile request tx r :=
    let (answer, tx, s) := store.addFile request tx (part r)
    (answer, tx, put r s)
  addImage request tx r :=
    let (answer, tx, s) := store.addImage request tx (part r)
    (answer, tx, put r s)
  commit tx r :=
    let (answer, s) := store.commit tx (part r)
    (answer, put r s)
  rollback tx r :=
    let (answer, s) := store.rollback tx (part r)
    (answer, put r s)
  drop tx r := put r (store.drop tx (part r))
  logicalSources r :=
    let (answer, s) := store.logicalSources (part r)
    (answer, put r s)
  imageSources r :=
    let (answer, s) := store.imageSources (part r)
    (answer, put r s)

/-- A session that others use, with what happens in it before each of the queries to come. -/
structure Busy where
  session : Session Db Tx
  ahead : List (List Event)

/-- Lets happen what comes before the next query. -/
def Busy.pass (b : Busy) : Busy where
  session := (b.ahead.headD []).foldl Session.occur b.session
  ahead := b.ahead.tail

/-- The database of a session as a store. -/
def Relational.inSession : Store Busy Tx :=
  Relational.store.within (·.session.db) fun b db => { b with session := { b.session with db } }

/-- The database of a session, with others at work before each of its two queries. -/
def Relational.busy : Store Busy Tx :=
  { Relational.inSession with
    logicalSources := fun b => Relational.inSession.logicalSources b.pass
    imageSources := fun b => Relational.inSession.imageSources b.pass }

/-! ## The queries at two moments -/

namespace Deed

/-- A deed that is shown among the logical sources has no segments. -/
theorem segments_of_root? {deed : Deed} (h : deed.root? ≠ none) : deed.segments = [] := by
  cases deed with
  | source => rfl
  | file => rfl
  | image => exact absurd rfl h

/-- Deeds that are not among the logical sources. -/
def unrooted (deeds : List Deed) : List Deed :=
  deeds.filter fun deed => deed.root? = none

theorem filterMap_root?_unrooted (deeds : List Deed) : (unrooted deeds).filterMap root? = [] := by
  rw [List.filterMap_eq_nil_iff]
  intro deed hdeed
  simpa using (List.mem_filter.1 hdeed).2

theorem flatMap_segments_unrooted (deeds : List Deed) :
    (unrooted deeds).flatMap segments = deeds.flatMap segments := by
  induction deeds with
  | nil => rfl
  | cons deed deeds ih =>
    unfold unrooted at ih ⊢
    rw [List.filter_cons, List.flatMap_cons]
    by_cases hroot : deed.root? = none
    · rw [if_pos (by simpa using hroot), List.flatMap_cons, ih]
    · rw [if_neg (by simpa using hroot), ih, segments_of_root? hroot, List.nil_append]

/-- **The logical sources of some deeds, merged with the images of more of them**: of what came later only
the images have entries. -/
theorem merge_of_extended (naming : Naming) {deeds later : List Deed}
    (hids : (deeds ++ later).Pairwise fun a b => a.id < b.id)
    (hnamed : ∀ deed ∈ deeds ++ later, deed.NamedByFirst) :
    NameMap.merge naming (deeds.filterMap root?) ((deeds ++ later).flatMap segments) =
      (deeds ++ unrooted later).filterMap (listed? naming) := by
  have hsub : (deeds ++ unrooted later) <+ (deeds ++ later) :=
    List.Sublist.append_left List.filter_sublist deeds
  have hroots : (deeds ++ unrooted later).filterMap root? = deeds.filterMap root? := by
    rw [List.filterMap_append, filterMap_root?_unrooted, List.append_nil]
  have hsegments : (deeds ++ unrooted later).flatMap segments = (deeds ++ later).flatMap segments := by
    rw [List.flatMap_append, flatMap_segments_unrooted, List.flatMap_append]
  rw [← hroots, ← hsegments]
  exact merge_eq naming (hids.sublist hsub) fun deed hdeed => hnamed deed (hsub.subset hdeed)

end Deed

/-- A session with a history, after what comes before the next query. -/
theorem Busy.pass_history (now : Int) (events more : List Event) (ahead : List (List Event)) :
    Busy.pass ⟨history now events, more :: ahead⟩ = ⟨history now (events ++ more), ahead⟩ := by
  unfold Busy.pass history
  rw [List.foldl_append]
  rfl

/-- The names in a case stay, and come first, whatever happens. -/
theorem historyLedger_names_extend (now : Int) (events more : List Event) (naming : Naming) :
    (historyLedger now events).names naming <+: (historyLedger now (events ++ more)).names naming :=
  (historyLedger_deeds_extend now events more).filterMap _

/-- The names that are loaded from a case in use: all that were there at the first query, and of those that
came until the second only the images'. -/
theorem load_busy (now : Int) (events first second : List Event) (naming : Naming) :
    ∃ names, (NameMap.load naming Relational.busy ⟨history now events, [first, second]⟩).1 = .ok names ∧
      names.Ascending ∧
      (historyLedger now (events ++ first)).names naming <+: names ∧
      names <+ (historyLedger now (events ++ first ++ second)).names naming := by
  obtain ⟨later, hlater⟩ := historyLedger_deeds_extend now (events ++ first) second
  have hshows := history_shows now (events ++ first)
  have hshows' := history_shows now (events ++ first ++ second)
  have hinv := history_inv now (events ++ first)
  have hinv' := history_inv now (events ++ first ++ second)
  have hlogical : Relational.busy.logicalSources ⟨history now events, [first, second]⟩ =
      (.ok ((historyLedger now (events ++ first)).deeds.filterMap Deed.root?),
        ⟨history now (events ++ first), [second]⟩) := by
    unfold Relational.busy Relational.inSession Store.within
    simp only [Busy.pass_history, hshows.logicalSources hinv.committed.complete hinv.isOpen]
  have himages : Relational.busy.imageSources ⟨history now (events ++ first), [second]⟩ =
      (.ok ((historyLedger now (events ++ first ++ second)).deeds.flatMap Deed.segments),
        ⟨history now (events ++ first ++ second), []⟩) := by
    unfold Relational.busy Relational.inSession Store.within
    simp only [Busy.pass_history, hshows'.imageSources hinv'.committed.complete hinv'.isOpen]
  unfold Ledger.names
  rw [← hlater] at hshows' himages ⊢
  have hsub : ((historyLedger now (events ++ first)).deeds ++ Deed.unrooted later) <+
      ((historyLedger now (events ++ first)).deeds ++ later) :=
    List.Sublist.append_left List.filter_sublist _
  refine ⟨_, ?_, Deed.ascending_listed naming (hshows'.ids.sublist hsub),
    (List.prefix_append _ _).filterMap _, hsub.filterMap _⟩
  rw [NameMap.load_of_listed hlogical himages, Deed.merge_of_extended naming hshows'.ids hshows'.named]

/-- **A listing that is taken while others commit is sandwiched**: whatever happens in a case of any history
before, between and after its two queries, it has the entries of all that was committed at the first
query, and so of all at the start, and only entries of what was committed at the second, and so at the
end; every id goes by the same name in all of them. -/
theorem load_sandwiched (now : Int) (events first second last : List Event) (naming : Naming) :
    let loaded (events : List Event) : Reply NameMap :=
      (NameMap.load naming Relational.store (history now events).db).1
    ∃ atStart atFirst names atSecond atEnd,
      (NameMap.load naming Relational.busy ⟨history now events, [first, second]⟩).1 = .ok names ∧
      loaded events = .ok atStart ∧
      loaded (events ++ first) = .ok atFirst ∧
      loaded (events ++ first ++ second) = .ok atSecond ∧
      loaded (events ++ first ++ second ++ last) = .ok atEnd ∧
      (atStart <+: atFirst ∧ atFirst <+: names ∧ names <+ atSecond ∧ atSecond <+: atEnd) ∧
      ∀ id name,
        (atStart.find? id = some name → names.find? id = some name) ∧
        (names.find? id = some name → atEnd.find? id = some name) := by
  intro loaded
  have hloaded (events : List Event) : loaded events = .ok ((historyLedger now events).names naming) :=
    congrArg Prod.fst (history_load now events naming)
  have ascending (events : List Event) : NameMap.Ascending ((historyLedger now events).names naming) :=
    Deed.ascending_listed naming (history_shows now events).ids
  obtain ⟨names, hnames, hascending, hfirst, hsecond⟩ := load_busy now events first second naming
  have hstart := historyLedger_names_extend now events first naming
  have hend := historyLedger_names_extend now (events ++ first ++ second) last naming
  refine ⟨_, _, names, _, _, hnames, hloaded _, hloaded _, hloaded _, hloaded _,
    ⟨hstart, hfirst, hsecond, hend⟩, fun id name => ⟨?_, ?_⟩⟩
  · rw [(ascending _).find?_eq_some_iff, hascending.find?_eq_some_iff]
    exact fun h => hfirst.subset (hstart.subset h)
  · rw [hascending.find?_eq_some_iff, (ascending _).find?_eq_some_iff]
    exact fun h => hend.subset (hsecond.subset h)

/-- A source and an image, each committed between the two queries: the names that are loaded are those of no
moment, as the image is there and the source is not. -/
example :
    (NameMap.load .short Relational.busy ⟨history 0 eventful, [[],
      [.call (.commit "c"), .call (.begin "b"),
        .call (.addImage "b" ⟨⟨"dev"⟩, ["/images/e.dd"], "+00:00", 5⟩), .call (.commit "b")]]⟩).1 =
      .ok [(1, "d.001"), (2, "Case 1"), (5, "e.dd")] := by cbv

end Casefile
