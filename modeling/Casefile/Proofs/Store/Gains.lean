import Casefile.Proofs.Store.Transactions

/-!
# The data sources that are gained

* `Rows.Gains` — some rows with others behind them, which hold information about certain data sources.
* `Deed.sourceId?` — the data source that a deed has recorded: a file is none.

Principal results: `Replays.gains` — deeds add their data sources, and no others.
`Relational.imageAtOnce_cases` — recording an image in a transaction of its own does what it does to the
committed tables, or nothing.
-/

set_option autoImplicit false

namespace Casefile

/-- The data source that was recorded. -/
def Deed.sourceId? : Deed → Option ObjectId
  | .source _ content => some content.objectId
  | .file _ _ => none
  | .image _ content => some content.objectId

/-- Rows were added behind the old ones, and among them one about each of the data sources. -/
def Rows.Gains (old new : Rows) (sources : List ObjectId) : Prop :=
  ∃ added, new = old ++ added ∧ added.sourceInfo.map (·.id) = sources

namespace Rows.Gains

theorem refl (r : Rows) : r.Gains r [] := by
  refine ⟨{}, ?_, rfl⟩
  show r = Rows.append r {}
  simp only [Rows.append, List.append_nil]

theorem trans {r r' r'' : Rows} {sources more : List ObjectId} (h : r.Gains r' sources)
    (h' : r'.Gains r'' more) : r.Gains r'' (sources ++ more) := by
  obtain ⟨added, rfl, hadded⟩ := h
  obtain ⟨added', rfl, hadded'⟩ := h'
  refine ⟨added ++ added', Rows.append_assoc r added added', ?_⟩
  rw [Rows.append_sourceInfo, List.map_append, hadded, hadded']

/-- Rows that have gained nothing have gained no data source. -/
theorem eq_nil_of_self {r : Rows} {sources : List ObjectId} (h : r.Gains r sources) : sources = [] := by
  obtain ⟨added, heq, rfl⟩ := h
  have hinfo : r.sourceInfo = r.sourceInfo ++ added.sourceInfo := congrArg Rows.sourceInfo heq
  rw [List.self_eq_append_right.1 hinfo, List.map_nil]

end Rows.Gains

/-- A request that is done adds its data source. -/
theorem Draft.perform_gains {d d' : Draft} {q : Request} {deed : Deed} (hd : d.WellFormed)
    (h : d.perform q = .ok (deed, d')) :
    d.tables.rows.Gains d'.tables.rows deed.sourceId?.toList := by
  rcases perform_cases h with ⟨request, _, rfl, rfl⟩ | ⟨request, path, _, rfl, rfl⟩ |
    ⟨request, first, rest, _, _, rfl, rfl⟩
  · exact ⟨_, Tables.rows_plus hd.tables.complete _, rfl⟩
  · exact ⟨_, Tables.rows_plus hd.tables.complete _, rfl⟩
  · exact ⟨_, Tables.rows_plus hd.tables.complete _, rfl⟩

/-- **Deeds done again add their data sources**, in their order. -/
theorem Replays.gains :
    ∀ {deeds : List Deed} {d d' : Draft}, d.WellFormed → Replays d deeds d' →
      d.tables.rows.Gains d'.tables.rows (deeds.filterMap Deed.sourceId?)
  | [], _, _, _, rfl => .refl _
  | deed :: deeds, _, _, hd, ⟨_, hp, hr⟩ => by
    have hgains := (Draft.perform_gains hd hp).trans (gains (hd.perform hp) hr)
    rw [List.filterMap_cons]
    cases hsource : deed.sourceId? with
    | none =>
      rw [hsource] at hgains
      exact hgains
    | some id =>
      rw [hsource] at hgains
      exact hgains

namespace Relational

/-- What the deeds of a transaction make of well-formed tables. -/
theorem Records.gains {deeds : List Deed} {t t' : Tables} (ht : t.WellFormed)
    (h : Records deeds t t') : t.rows.Gains t'.rows (deeds.filterMap Deed.sourceId?) := by
  obtain ⟨d, hr, rfl⟩ := h
  exact hr.gains ⟨ht, fun _ _ hl => (by cases hl)⟩

theorem Records.shows {deeds more : List Deed} {t t' : Tables} (ht : t.WellFormed) (hs : Shows t deeds)
    (h : Records more t t') : Shows t' (deeds ++ more) ∧ t'.WellFormed := by
  obtain ⟨d, hr, rfl⟩ := h
  have hd : (Draft.mk t []).WellFormed := ⟨ht, fun _ _ hl => (by cases hl)⟩
  obtain ⟨hshows, hwf⟩ := Shows.replays more hs hd hr
  exact ⟨hshows, hwf.tables⟩

/-- **An image in a transaction of its own** is recorded, or nothing is. -/
theorem imageAtOnce_cases {db : Db} (hopen : db.closed = false) (hc : db.committed.WellFormed)
    (request : ImageRequest) :
    (∃ content db', Relational.store.imageAtOnce request db = (.ok content, db') ∧
      Records [.image request content] db.committed db'.committed) ∨
    ∃ e db', Relational.store.imageAtOnce request db = (.failed e, db') ∧
      db'.committed = db.committed := by
  have hbegin : Relational.store.begin db = (.ok .fresh, db) := by
    simp only [Relational.store, Db.begin, Db.whileOpen, hopen]
    rfl
  have hp := Tx.perform_cases (Tx.fresh_inv hc).draft (fun hw => by cases hw)
    (.image request)
  simp only [Tx.perform] at hp
  have hadd : Relational.store.addImage request .fresh db =
      (.ofExcept (Tx.fresh.addImage db request).1, (Tx.fresh.addImage db request).2) := rfl
  unfold Store.imageAtOnce
  rw [hbegin]
  simp only [hadd]
  generalize Tx.fresh.addImage db request = result at hp ⊢
  obtain ⟨answer, tx, db'⟩ := result
  cases answer with
  | ok content =>
    cases hp with
    | @done _ d hdone hm =>
      refine Or.inl ⟨content, _, rfl, d, ⟨d, hdone, rfl⟩, ?_⟩
      show d.tables = (Tx.commit _ _).committed
      rw [Tx.commit_of_wrote rfl]
      rfl
  | error e =>
    cases hp with
    | refused hl hno =>
      exact Or.inr ⟨e, _, rfl, (Db.release_sameTables _ tx).committed⟩

end Relational

end Casefile
