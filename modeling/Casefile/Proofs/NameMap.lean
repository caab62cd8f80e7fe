import Casefile.NameMap

/-!
# What a map of names holds

* `NameMap.Ascending` — the ids of a map go up, so that each occurs once.
* `NameMap.find?_merge` — the name that a merge of two listings gives to an id: that of the last logical
  source of the id, or else that of the first image.
* `SourceRow.LastIn`, `SourceRow.FirstIn` — a row is the last or the first one of a listing with its id.
* `NameMap.Merged` — what two maps, with whole and with short names of images, make of two listings.

Principal results: `ascending_merge` — a merge goes up whatever is merged.  `Ascending.ext` — two maps
that go up and give the same name to every id are the same list.  `merge_eq_map` — the naming of images is
applied to the names of a merge that no logical source has given.  `merged_merge` — merges make of two
listings what they should.
-/

set_option autoImplicit false

namespace Casefile

namespace NameMap

/-- The ids of the map go up. -/
def Ascending (m : NameMap) : Prop :=
  m.Pairwise fun a b => a.1 < b.1

variable {m m' : NameMap} {id k : ObjectId} {name : String}

@[simp] theorem find?_nil (id : ObjectId) : find? [] id = none := rfl

theorem find?_cons (id k : ObjectId) (v : String) (m : NameMap) :
    find? ((k, v) :: m) id = if id = k then some v else find? m id := by
  unfold find?
  rw [List.lookup_cons]
  by_cases h : id = k
  · simp [h]
  · have hfalse : (id == k) = false := by simpa using h
    rw [hfalse, if_neg h]

theorem find?_eq_none (h : ∀ e ∈ m, e.1 ≠ id) : find? m id = none := by
  unfold find?
  rw [List.lookup_eq_none_iff]
  intro e he
  simpa using (h e he).symm

theorem find?_append (m m' : NameMap) (id : ObjectId) :
    find? (m ++ m') id = (find? m id).or (find? m' id) :=
  List.lookup_append

theorem find?_map (rename : ObjectId → String → String) (m : NameMap) (id : ObjectId) :
    find? (m.map fun e => (e.1, rename e.1 e.2)) id = (find? m id).map (rename id) := by
  induction m with
  | nil => rfl
  | cons e m ih =>
    obtain ⟨k, v⟩ := e
    rw [List.map_cons, find?_cons, find?_cons, ih]
    by_cases hid : id = k <;> simp [hid]

/-! ## Setting one name -/

theorem find?_set (id k : ObjectId) (name : String) (m : NameMap) :
    find? (set id name m) k = if k = id then some name else find? m k := by
  induction m with
  | nil => rw [set, find?_cons]
  | cons e m ih =>
    obtain ⟨k', v⟩ := e
    unfold set
    split
    · rw [find?_cons]
    · split
      · rename_i heq
        rw [find?_cons, find?_cons, ← heq]
        by_cases hk : k = id <;> simp [hk]
      · rename_i hne
        rw [find?_cons, ih, find?_cons]
        by_cases hk : k = k'
        · rw [if_pos hk, if_pos hk, if_neg (by intro h; exact hne (h.symm.trans hk))]
        · rw [if_neg hk, if_neg hk]

theorem find?_setIfAbsent (id k : ObjectId) (name : String) (m : NameMap) :
    find? (setIfAbsent id name m) k =
      (find? m k).or (if k = id then some name else none) := by
  unfold setIfAbsent
  split
  · rename_i hsome
    by_cases hk : k = id
    · subst hk
      cases hm : find? m k with
      | none => simp [hm] at hsome
      | some v => rfl
    · simp [hk]
  · rename_i hnone
    rw [find?_set]
    by_cases hk : k = id
    · subst hk
      have hm : find? m k = none := by simpa using hnone
      simp [hm]
    · simp [hk]

/-- The map after a name was set holds that name and what it held. -/
theorem mem_set {e : ObjectId × String} (h : e ∈ set id name m) : e = (id, name) ∨ e ∈ m := by
  induction m with
  | nil =>
    left
    simpa [set] using h
  | cons e' m ih =>
    obtain ⟨k', v⟩ := e'
    unfold set at h
    split at h
    · exact List.mem_cons.1 h
    · split at h
      · rcases List.mem_cons.1 h with h | h
        · exact Or.inl h
        · exact Or.inr (List.mem_cons_of_mem _ h)
      · rcases List.mem_cons.1 h with h | h
        · exact Or.inr (List.mem_cons.2 (Or.inl h))
        · rcases ih h with h | h
          · exact Or.inl h
          · exact Or.inr (List.mem_cons_of_mem _ h)

theorem Ascending.set (h : m.Ascending) (id : ObjectId) (name : String) :
    (set id name m).Ascending := by
  induction m with
  | nil => exact List.pairwise_singleton _ _
  | cons e m ih =>
    obtain ⟨k', v⟩ := e
    obtain ⟨hhead, htail⟩ := List.pairwise_cons.1 h
    unfold NameMap.set
    split
    · rename_i hlt
      refine List.pairwise_cons.2 ⟨?_, h⟩
      intro e he
      rcases List.mem_cons.1 he with rfl | he
      · exact hlt
      · exact Int.lt_trans hlt (hhead e he)
    · rename_i hle
      split
      · rename_i heq
        subst heq
        exact List.pairwise_cons.2 ⟨hhead, htail⟩
      · rename_i hne
        refine List.pairwise_cons.2 ⟨?_, ih htail⟩
        intro e he
        rcases mem_set he with rfl | he
        · show k' < id
          lia
        · exact hhead e he

theorem Ascending.setIfAbsent (h : m.Ascending) (id : ObjectId) (name : String) :
    (setIfAbsent id name m).Ascending := by
  unfold NameMap.setIfAbsent
  split
  · exact h
  · exact h.set id name

/-! ## Maps that go up -/

theorem Ascending.find?_tail {v : String} (h : Ascending ((k, v) :: m)) (hle : id ≤ k) :
    find? m id = none := by
  refine find?_eq_none ?_
  intro e he heq
  have hlt : k < e.1 := (List.pairwise_cons.1 h).1 e he
  lia

/-- **Two maps that go up are the same if they give the same name to every id.** -/
theorem Ascending.ext (h : m.Ascending) (h' : m'.Ascending) (hsame : ∀ id, find? m id = find? m' id) :
    m = m' := by
  induction m generalizing m' with
  | nil =>
    cases m' with
    | nil => rfl
    | cons e' m' =>
      obtain ⟨k', v'⟩ := e'
      have hnone := hsame k'
      simp [find?_cons] at hnone
  | cons e m ih =>
    obtain ⟨k, v⟩ := e
    cases m' with
    | nil =>
      have hnone := hsame k
      simp [find?_cons] at hnone
    | cons e' m' =>
      obtain ⟨k', v'⟩ := e'
      have hk := hsame k
      have hk' := hsame k'
      rw [find?_cons, if_pos rfl, find?_cons] at hk
      rw [find?_cons, find?_cons, if_pos rfl] at hk'
      -- neither first id can be the smaller one, for the other map would not have it
      have heq : k = k' := by
        rcases Int.lt_trichotomy k k' with hlt | heq | hgt
        · rw [if_neg (Int.ne_of_lt hlt), h'.find?_tail (Int.le_of_lt hlt)] at hk
          cases hk
        · exact heq
        · rw [if_neg (Int.ne_of_lt hgt), h.find?_tail (Int.le_of_lt hgt)] at hk'
          cases hk'
      subst heq
      rw [if_pos rfl] at hk
      cases hk
      congr 1
      refine ih (List.pairwise_cons.1 h).2 (List.pairwise_cons.1 h').2 ?_
      intro id
      by_cases hid : id = k
      · subst hid
        rw [h.find?_tail (Int.le_refl _), h'.find?_tail (Int.le_refl _)]
      · have hrest := hsame id
        rwa [find?_cons, find?_cons, if_neg hid, if_neg hid] at hrest

/-- In a map that goes up every entry is found under its id. -/
theorem Ascending.find?_eq_some_iff (h : m.Ascending) : find? m id = some name ↔ (id, name) ∈ m := by
  induction m with
  | nil => simp
  | cons e m ih =>
    obtain ⟨k, v⟩ := e
    rw [find?_cons, List.mem_cons]
    by_cases hid : id = k
    · subst hid
      rw [if_pos rfl]
      constructor
      · intro hv
        cases hv
        exact Or.inl rfl
      · rintro (hv | hmem)
        · cases hv
          rfl
        · have hlt := (List.pairwise_cons.1 h).1 _ hmem
          exact absurd hlt (Int.lt_irrefl _)
    · rw [if_neg hid, ih (List.pairwise_cons.1 h).2]
      simp [hid]

/-! ## Merging two listings -/

/-- The name that the last of some rows gives to an id. -/
def lastName? (rows : List SourceRow) (id : ObjectId) : Option String :=
  (rows.reverse.find? (·.objectId = id)).map (·.name)

/-- The name that the first of some rows gives to an id. -/
def firstName? (rows : List SourceRow) (id : ObjectId) : Option String :=
  (rows.find? (·.objectId = id)).map (·.name)

theorem lastName?_append (a b : List SourceRow) (id : ObjectId) :
    lastName? (a ++ b) id = (lastName? b id).or (lastName? a id) := by
  unfold lastName?
  rw [List.reverse_append, List.find?_append, Option.map_or]

theorem firstName?_append (a b : List SourceRow) (id : ObjectId) :
    firstName? (a ++ b) id = (firstName? a id).or (firstName? b id) := by
  unfold firstName?
  rw [List.find?_append, Option.map_or]

theorem lastName?_singleton (r : SourceRow) (id : ObjectId) :
    lastName? [r] id = if id = r.objectId then some r.name else none := by
  by_cases hid : r.objectId = id
  · simp [lastName?, hid]
  · simp [lastName?, hid, Ne.symm hid]

theorem firstName?_singleton (r : SourceRow) (id : ObjectId) :
    firstName? [r] id = if id = r.objectId then some r.name else none :=
  lastName?_singleton r id

theorem lastName?_eq_none {rows : List SourceRow} (h : ∀ r ∈ rows, r.objectId ≠ id) :
    lastName? rows id = none := by
  unfold lastName?
  rw [List.find?_eq_none.2]
  · rfl
  · intro r hr
    simpa using h r (List.mem_reverse.1 hr)

theorem firstName?_eq_none {rows : List SourceRow} (h : ∀ r ∈ rows, r.objectId ≠ id) :
    firstName? rows id = none := by
  unfold firstName?
  rw [List.find?_eq_none.2]
  · rfl
  · intro r hr
    simpa using h r hr

theorem find?_foldl_set (rows : List SourceRow) (m : NameMap) (id : ObjectId) :
    find? (rows.foldl (fun m r => set r.objectId r.name m) m) id =
      (lastName? rows id).or (find? m id) := by
  induction rows generalizing m with
  | nil => rfl
  | cons r rows ih =>
    rw [List.foldl_cons, ih, find?_set, ← List.singleton_append, lastName?_append,
      lastName?_singleton, Option.or_assoc]
    by_cases hid : id = r.objectId <;> simp [hid]

theorem find?_foldl_setIfAbsent (rename : String → String) (rows : List SourceRow) (m : NameMap)
    (id : ObjectId) :
    find? (rows.foldl (fun m r => setIfAbsent r.objectId (rename r.name) m) m) id =
      (find? m id).or ((firstName? rows id).map rename) := by
  induction rows generalizing m with
  | nil => simp [firstName?]
  | cons r rows ih =>
    rw [List.foldl_cons, ih, find?_setIfAbsent, Option.or_assoc, ← List.singleton_append,
      firstName?_append, firstName?_singleton, Option.map_or]
    by_cases hid : id = r.objectId <;> simp [hid]

/-- **The name that a merge gives to an id**: that of the last logical source of the id, or else that of the
first image. -/
theorem find?_merge (naming : Naming) (logical images : List SourceRow) (id : ObjectId) :
    find? (merge naming logical images) id =
      (lastName? logical id).or ((firstName? images id).map naming.image) := by
  unfold merge
  rw [find?_foldl_setIfAbsent, find?_foldl_set, find?_nil, Option.or_none]

/-- **A merge goes up**, whatever the order of the rows. -/
theorem ascending_merge (naming : Naming) (logical images : List SourceRow) :
    (merge naming logical images).Ascending := by
  have hlogical : Ascending (logical.foldl (fun m r => set r.objectId r.name m) []) :=
    List.foldlRecOn logical _ List.Pairwise.nil fun m h r _ => h.set r.objectId r.name
  exact List.foldlRecOn images _ hlogical fun m h r _ =>
    h.setIfAbsent r.objectId (naming.image r.name)

end NameMap

/-! ## Which row gives the name -/

/-- The row is one of a listing, and none behind it has its id. -/
def SourceRow.LastIn (rows : List SourceRow) (row : SourceRow) : Prop :=
  ∃ before after, rows = before ++ row :: after ∧ ∀ r ∈ after, r.objectId ≠ row.objectId

/-- The row is one of a listing, and none before it has its id. -/
def SourceRow.FirstIn (rows : List SourceRow) (row : SourceRow) : Prop :=
  ∃ before after, rows = before ++ row :: after ∧ ∀ r ∈ before, r.objectId ≠ row.objectId

namespace NameMap

variable {rows logical images : List SourceRow} {id : ObjectId} {name : String}

theorem firstName?_eq_some_iff :
    firstName? rows id = some name ↔ SourceRow.FirstIn rows ⟨id, name⟩ := by
  unfold firstName? SourceRow.FirstIn
  rw [Option.map_eq_some_iff]
  constructor
  · rintro ⟨row, hfind, rfl⟩
    obtain ⟨hrow, before, after, hrows, hbefore⟩ := List.find?_eq_some_iff_append.1 hfind
    have hid : row.objectId = id := by simpa using hrow
    subst hid
    refine ⟨before, after, hrows, ?_⟩
    intro r hr
    simpa using hbefore r hr
  · rintro ⟨before, after, hrows, hbefore⟩
    refine ⟨⟨id, name⟩, ?_, rfl⟩
    apply List.find?_eq_some_iff_append.2
    refine ⟨by simp, before, after, hrows, ?_⟩
    intro r hr
    simpa using hbefore r hr

/-- The last row of a listing is the first one of the listing read backwards. -/
theorem lastName?_eq_some_iff :
    lastName? rows id = some name ↔ SourceRow.LastIn rows ⟨id, name⟩ := by
  have hreverse : lastName? rows id = firstName? rows.reverse id := rfl
  rw [hreverse, firstName?_eq_some_iff]
  constructor
  · rintro ⟨before, after, hrows, hbefore⟩
    refine ⟨after.reverse, before.reverse, ?_, ?_⟩
    · rw [List.reverse_eq_iff.1 hrows]
      simp
    · intro r hr
      exact hbefore r (List.mem_reverse.1 hr)
  · rintro ⟨before, after, rfl, hafter⟩
    refine ⟨after.reverse, before.reverse, by simp, ?_⟩
    intro r hr
    exact hafter r (List.mem_reverse.1 hr)

theorem lastName?_eq_none_iff :
    lastName? rows id = none ↔ ∀ r ∈ rows, r.objectId ≠ id := by
  refine ⟨?_, lastName?_eq_none⟩
  intro hnone r hr hid
  unfold lastName? at hnone
  rw [Option.map_eq_none_iff, List.find?_eq_none] at hnone
  exact hnone r (List.mem_reverse.2 hr) (by simpa using hid)

/-! ## Whole and short names -/

/-- How an id is called that is called so with whole names of images. -/
def nameUnder (naming : Naming) (logical : List SourceRow) (id : ObjectId) (name : String) : String :=
  if id ∈ logical.map (·.objectId) then name else naming.image name

theorem nameUnder_of_mem {r : SourceRow} (naming : Naming) (hr : r ∈ logical) (name : String) :
    nameUnder naming logical r.objectId name = name :=
  if_pos (List.mem_map_of_mem hr)

theorem nameUnder_of_not_mem (naming : Naming) (hnot : ∀ r ∈ logical, r.objectId ≠ id) (name : String) :
    nameUnder naming logical id name = naming.image name := by
  apply if_neg
  simpa using hnot

theorem map_image_full (name? : Option String) : name?.map (Naming.image .full) = name? := by
  cases name? <;> rfl

/-- **The naming of images reaches the names that no logical source has given, and nothing else**: a merge is
the merge with whole names of images, renamed there. -/
theorem merge_eq_map (naming : Naming) (logical images : List SourceRow) :
    merge naming logical images =
      (merge .full logical images).map fun e => (e.1, nameUnder naming logical e.1 e.2) := by
  apply Ascending.ext (ascending_merge naming logical images)
  · exact List.pairwise_map.2 (ascending_merge .full logical images)
  intro id
  rw [find?_map, find?_merge, find?_merge, map_image_full]
  cases hlast : lastName? logical id with
  | some name =>
    obtain ⟨before, after, hlogical, _⟩ := lastName?_eq_some_iff.1 hlast
    have hmem : ⟨id, name⟩ ∈ logical := by simp [hlogical]
    simp [nameUnder_of_mem naming hmem name]
  | none =>
    have hnot := lastName?_eq_none_iff.1 hlast
    cases firstName? images id with
    | none => rfl
    | some path => simp [nameUnder_of_not_mem naming hnot]

/-- What two maps, with whole and with short names of images, make of two listings. -/
structure Merged (logical images : List SourceRow) (full short : NameMap) : Prop where
  /-- No id is named twice. -/
  ascending : full.Ascending
  /-- A name is that of the last logical source with the id; only if there is none, that of the first image. -/
  named_iff : ∀ id name, full.find? id = some name ↔
    SourceRow.LastIn logical ⟨id, name⟩ ∨
      (∀ r ∈ logical, r.objectId ≠ id) ∧ SourceRow.FirstIn images ⟨id, name⟩
  /-- Both maps name the same ids. -/
  same_ids : short.map Prod.fst = full.map Prod.fst
  /-- They give the same name to logical sources. -/
  short_logical : ∀ r ∈ logical, short.find? r.objectId = full.find? r.objectId
  /-- Everything else goes by its short name in one of them. -/
  short_image : ∀ id, (∀ r ∈ logical, r.objectId ≠ id) →
    short.find? id = (full.find? id).map shortName

/-- The names of a merge with whole names of images. -/
theorem find?_merge_full_eq_some_iff :
    find? (merge .full logical images) id = some name ↔
      SourceRow.LastIn logical ⟨id, name⟩ ∨
        (∀ r ∈ logical, r.objectId ≠ id) ∧ SourceRow.FirstIn images ⟨id, name⟩ := by
  rw [find?_merge, map_image_full, Option.or_eq_some_iff, lastName?_eq_some_iff,
    lastName?_eq_none_iff, firstName?_eq_some_iff]

/-- **Merges make of two listings what they should**, whatever ids are repeated in them and in which order. -/
theorem merged_merge (logical images : List SourceRow) :
    Merged logical images (merge .full logical images) (merge .short logical images) where
  ascending := ascending_merge .full logical images
  named_iff _ _ := find?_merge_full_eq_some_iff
  same_ids := by
    rw [merge_eq_map .short, List.map_map]
    rfl
  short_logical r hr := by
    rw [merge_eq_map .short, find?_map]
    cases find? (merge .full logical images) r.objectId with
    | none => rfl
    | some name => simp [nameUnder_of_mem .short hr]
  short_image id hnot := by
    rw [merge_eq_map .short, find?_map]
    cases find? (merge .full logical images) id with
    | none => rfl
    | some name => simp [nameUnder_of_not_mem .short hnot, Naming.image]

/-! ## Loading -/

section Load

variable {σ τ : Type} {db : Store σ τ} {naming : Naming} {s between last : σ} {e : Failure}

/-- The database is not asked for its images once it has failed to list its logical sources. -/
theorem load_of_logical_failed (hlogical : db.logicalSources s = (.failed e, last)) :
    load naming db s = (.failed e, last) := by
  unfold load
  rw [hlogical]

theorem load_of_image_failed (hlogical : db.logicalSources s = (.ok logical, between))
    (himages : db.imageSources between = (.failed e, last)) :
    load naming db s = (.failed e, last) := by
  unfold load
  rw [hlogical]
  simp only
  rw [himages]

theorem load_of_listed (hlogical : db.logicalSources s = (.ok logical, between))
    (himages : db.imageSources between = (.ok images, last)) :
    load naming db s = (.ok (merge naming logical images), last) := by
  unfold load
  rw [hlogical]
  simp only
  rw [himages]

end Load

end NameMap

end Casefile
