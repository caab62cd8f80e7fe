import Casefile.Json.Coding
import Casefile.Proofs.Tables.Values
import Mathlib.Data.List.Forall2
import Mathlib.Data.List.Nodup
import Mathlib.Data.List.Perm.Basic
import Mathlib.Data.Set.List
import Mathlib.Logic.Function.Basic

/-!
# Domain values as JSON

* `Json.Spells` — a value holds given values under given names: an array of them in order, or an object
  that has each of the names once, in any order and beside any other members.
* `Json.Canonical` — values are written in one form and read back from it, and whatever is read is
  written in that form.
* `Json.ReadsFields` — reading takes a value for what it spells, and takes nothing else.

Principal results: `fields?_eq_some_iff` — the values taken from under some names are those that are
spelled.  `Content.ofJson?_eq_some_iff`, `SourceConfig.ofJson?_eq_some_iff` — exactly what is read.
`json_canonical` — all five codings are canonical, and those with fields read nothing but their fields.
-/

set_option autoImplicit false

namespace Casefile

/-! ## Lists -/

section Lists

variable {α β : Type} {f : α → Option β}

theorem mapM_eq_some_iff_forall₂ : ∀ {as : List α} {bs : List β},
    as.mapM f = some bs ↔ List.Forall₂ (fun a b => f a = some b) as bs
  | [], bs => by simp [eq_comm]
  | a :: as, bs => by
    have ih : ∀ bs, as.mapM f = some bs ↔ List.Forall₂ (fun a b => f a = some b) as bs :=
      fun _ => mapM_eq_some_iff_forall₂
    rw [List.mapM_cons, List.forall₂_cons_left_iff]
    simp only [Option.bind_eq_bind, Option.bind_eq_some_iff, Option.pure_def, Option.some.injEq, ih]
    constructor
    · rintro ⟨b, hb, bs, hbs, rfl⟩
      exact ⟨b, bs, hb, hbs, rfl⟩
    · rintro ⟨b, bs, hb, hbs, rfl⟩
      exact ⟨b, hb, bs, hbs, rfl⟩

/-- Reading item by item what `g` writes. -/
theorem mapM_eq_some_iff_map {g : β → α} (h : ∀ a b, f a = some b ↔ a = g b) {as : List α}
    {bs : List β} :
    as.mapM f = some bs ↔ as = bs.map g := by
  rw [mapM_eq_some_iff_forall₂]
  simp only [h]
  rw [← List.forall₂_map_right_iff, List.forall₂_eq_eq_eq]

end Lists

namespace Json

variable {names : List String} {values : List Json} {members extra : List (String × Json)} {name : String}
  {value : Json} {j : Json}

/-! ## Members of an object -/

/-- Of a name that there is once the member is found. -/
theorem lookup_eq_some_iff_mem (hcount : members.countP (·.1 = name) = 1) :
    members.lookup name = some value ↔ (name, value) ∈ members := by
  constructor
  · intro h
    obtain ⟨before, after, rfl, _⟩ := List.lookup_eq_some_iff.1 h
    simp
  · intro h
    obtain ⟨before, after, rfl⟩ := List.append_of_mem h
    have hbefore : before.countP (·.1 = name) = 0 := by
      simp only [List.countP_append, List.countP_cons, decide_true, if_true] at hcount
      omega
    refine List.lookup_eq_some_iff.2 ⟨before, after, rfl, fun m hm => ?_⟩
    have hne : m.1 ≠ name := by simpa using List.countP_eq_zero.1 hbefore m hm
    exact bne_iff_ne.2 hne.symm

theorem value_unique {other : Json} (hcount : members.countP (·.1 = name) = 1)
    (h : (name, value) ∈ members) (h' : (name, other) ∈ members) : value = other :=
  Option.some.inj (((lookup_eq_some_iff_mem hcount).2 h).symm.trans ((lookup_eq_some_iff_mem hcount).2 h'))

/-- No two members have the same of some names, each of which there is once. -/
theorem nodup_filter_names (hcount : ∀ n ∈ names, members.countP (·.1 = n) = 1) :
    ((members.filter (·.1 ∈ names)).map Prod.fst).Nodup := by
  refine List.nodup_iff_count_le_one.2 fun n => ?_
  rw [List.count_eq_countP, List.countP_map, List.countP_filter]
  by_cases hn : n ∈ names
  · refine Nat.le_trans (List.countP_mono_left fun m _ h => ?_) (Nat.le_of_eq (hcount n hn))
    simp only [Function.comp_apply, Bool.and_eq_true, beq_iff_eq] at h
    exact decide_eq_true h.1
  · refine Nat.le_trans (Nat.le_of_eq (List.countP_eq_zero.2 fun m _ h => hn ?_)) (Nat.zero_le 1)
    simp only [Function.comp_apply, Bool.and_eq_true, beq_iff_eq, decide_eq_true_eq] at h
    exact h.1 ▸ h.2

/-- The members of some names, each of which there is once, are these names with their values. -/
theorem filter_perm_zip (hnodup : names.Nodup) (hcount : ∀ n ∈ names, members.countP (·.1 = n) = 1)
    (hlength : names.length = values.length)
    (hzip : ∀ {n v}, (n, v) ∈ names.zip values → (n, v) ∈ members) :
    (members.filter (·.1 ∈ names)).Perm (names.zip values) := by
  have hkeys : (names.zip values).map Prod.fst = names := List.map_fst_zip (Nat.le_of_eq hlength)
  have hzipped : (names.zip values).Nodup := by
    refine List.Nodup.of_map Prod.fst ?_
    rwa [hkeys]
  refine (List.perm_ext_iff_of_nodup (nodup_filter_names hcount).of_map hzipped).2 fun m => ?_
  rw [List.mem_filter, decide_eq_true_eq]
  constructor
  · rintro ⟨hm, hname⟩
    rw [← hkeys] at hname
    obtain ⟨m', hm', hfst⟩ := List.mem_map.1 hname
    have hvalue := value_unique (hcount m.1 (by rw [← hfst]; exact (List.of_mem_zip hm').1)) hm
      (hfst ▸ hzip hm')
    rwa [← (Prod.ext hfst hvalue.symm : m' = m)]
  · exact fun hm => ⟨hzip hm, (List.of_mem_zip hm).1⟩

/-! ## Values under names -/

/-- The value holds these values under these names: an array of them in order, or an object that has each of
the names once and may have other members. -/
inductive Spells (names : List String) (values : List Json) : Json → Prop where
  | array (hlength : values.length = names.length) : Spells names values (.arr values)
  | object {members extra : List (String × Json)} (hlength : values.length = names.length)
      (hperm : members.Perm (names.zip values ++ extra)) (hextra : ∀ m ∈ extra, m.1 ∉ names) :
      Spells names values (.obj members)

theorem Spells.length_eq (h : j.Spells names values) : values.length = names.length := by
  cases h <;> assumption

/-- Of an object that holds values under names, which members there are. -/
theorem Spells.mem_iff (h : (Json.obj members).Spells names values) (hname : name ∈ names) :
    (name, value) ∈ members ↔ (name, value) ∈ names.zip values := by
  cases h with
  | object hlength hperm hextra =>
    rw [hperm.mem_iff, List.mem_append]
    exact or_iff_left fun hmem => hextra _ hmem hname

theorem Spells.countP_eq_one (hnodup : names.Nodup) (h : (Json.obj members).Spells names values)
    (hname : name ∈ names) : members.countP (·.1 = name) = 1 := by
  cases h with
  | @object _ extra hlength hperm hextra =>
    have hkeys : (names.zip values).map Prod.fst = names := List.map_fst_zip (Nat.le_of_eq hlength.symm)
    have hzip : (names.zip values).countP (·.1 = name) = names.count name := by
      conv_rhs => rw [← hkeys, List.count_eq_countP, List.countP_map]
      exact List.countP_congr fun m _ => by simp
    have hothers : extra.countP (·.1 = name) = 0 :=
      List.countP_eq_zero.2 fun m hm heq => hextra m hm (of_decide_eq_true heq ▸ hname)
    rw [hperm.countP_eq, List.countP_append, hzip, hothers, List.count_eq_one_of_mem hnodup hname]

/-- **The values taken from under some names are those that are spelled.** -/
theorem fields?_eq_some_iff (hnodup : names.Nodup) :
    j.fields? names = some values ↔ j.Spells names values := by
  cases j with
  | arr items =>
    constructor
    · intro h
      simp only [fields?] at h
      split at h
      · rename_i hlength
        cases h
        exact .array hlength
      · cases h
    · rintro ⟨hlength⟩
      exact if_pos hlength
  | obj members =>
    simp only [fields?, List.all_eq_true, decide_eq_true_eq]
    constructor
    · intro h
      split at h
      · rename_i hcount
        obtain ⟨hlength, hlookup⟩ := List.forall₂_iff_zip.1 (mapM_eq_some_iff_forall₂.1 h)
        have hzip : ∀ {n v}, (n, v) ∈ names.zip values → (n, v) ∈ members := fun hmem =>
          (lookup_eq_some_iff_mem (hcount _ (List.of_mem_zip hmem).1)).1 (hlookup hmem)
        have hperm := (List.filter_append_perm (·.1 ∈ names) members).symm.trans
          ((filter_perm_zip hnodup hcount hlength hzip).append_right _)
        exact .object hlength.symm hperm fun m hm => by simpa using (List.mem_filter.1 hm).2
      · cases h
    · intro h
      have hcount : ∀ n ∈ names, members.countP (·.1 = n) = 1 := fun n hn => h.countP_eq_one hnodup hn
      rw [if_pos hcount, mapM_eq_some_iff_forall₂]
      refine List.forall₂_iff_zip.2 ⟨h.length_eq.symm, fun hmem => ?_⟩
      have hname := (List.of_mem_zip hmem).1
      exact (lookup_eq_some_iff_mem (hcount _ hname)).2 ((h.mem_iff hname).2 hmem)
  | _ =>
    constructor
    · intro h
      cases h
    · intro h
      cases h

theorem Spells.unique {others : List Json} (hnodup : names.Nodup) (h : j.Spells names values)
    (h' : j.Spells names others) : values = others :=
  Option.some.inj (((fields?_eq_some_iff hnodup).2 h).symm.trans ((fields?_eq_some_iff hnodup).2 h'))

/-- The values are spelled by the object that has just their names, in order. -/
theorem spells_record (hlength : values.length = names.length) :
    (Json.obj (names.zip values)).Spells names values :=
  .object hlength (by rw [List.append_nil]) fun _ hm => by cases hm

/-! ## Codings -/

/-- The value is a text. -/
def IsText (j : Json) : Prop :=
  ∃ s, j = .str s

/-- The value is an object with just these members, in this order. -/
def IsRecord (names : List String) (j : Json) : Prop :=
  ∃ members, j = .obj members ∧ members.map Prod.fst = names

section Codings

variable {α : Type} {Valid : α → Prop} {IsForm : Json → Prop} {write : α → Option Json}
  {read : Json → Option α} {Fields : α → List Json → Prop}

/-- What is written is in one form and is read back; what is read, whatever it was read from, is written in
that form and read back again. -/
structure Canonical (Valid : α → Prop) (IsForm : Json → Prop) (write : α → Option Json)
    (read : Json → Option α) : Prop where
  round_trip : ∀ x, Valid x → ∃ j, write x = some j ∧ IsForm j ∧ read j = some x
  rewritten : ∀ j x, read j = some x → ∃ j', write x = some j' ∧ IsForm j' ∧ read j' = some x

theorem canonical_of_valid
    (hround : ∀ x, Valid x → ∃ j, write x = some j ∧ IsForm j ∧ read j = some x)
    (hvalid : ∀ j x, read j = some x → Valid x) : Canonical Valid IsForm write read :=
  ⟨hround, fun j x h => hround x (hvalid j x h)⟩

/-- Reading takes a value for what it spells: an object in any order and with any other members is read as the
array is, and what lacks a field, or has null in it, is not read. -/
structure ReadsFields (names : List String) (Fields : α → List Json → Prop) (read : Json → Option α) :
    Prop where
  exact_iff : ∀ j x, read j = some x ↔ ∃ values, Fields x values ∧ j.Spells names values
  same : ∀ j values, j.Spells names values → read j = read (.arr values)
  missing : ∀ members, ∀ n ∈ names, (∀ m ∈ members, m.1 ≠ n) → read (.obj members) = none
  null : ∀ members, ∀ n ∈ names, (n, Json.null) ∈ members → read (.obj members) = none
  length : ∀ items, items.length ≠ names.length → read (.arr items) = none

theorem readsFields_of_iff (hnodup : names.Nodup)
    (hread : ∀ j x, read j = some x ↔ ∃ values, Fields x values ∧ j.Spells names values)
    (hnull : ∀ x values, Fields x values → Json.null ∉ values) : ReadsFields names Fields read where
  exact_iff := hread
  same j values h := by
    -- both spell the same values and no others
    have hsame : ∀ others, j.Spells names others ↔ (Json.arr values).Spells names others := fun others =>
      ⟨fun h' => h.unique hnodup h' ▸ .array h.length_eq,
        fun h' => Spells.unique hnodup (.array h.length_eq) h' ▸ h⟩
    refine Option.ext fun x => ?_
    rw [hread, hread]
    simp only [hsame]
  missing members n hn hno := by
    refine Option.eq_none_iff_forall_ne_some.2 fun x hx => ?_
    obtain ⟨values, _, h⟩ := (hread _ x).1 hx
    have hpos : 0 < members.countP (·.1 = n) := by
      rw [h.countP_eq_one hnodup hn]
      exact Nat.one_pos
    obtain ⟨m, hm, heq⟩ := List.countP_pos_iff.1 hpos
    exact hno m hm (of_decide_eq_true heq)
  null members n hn hmem := by
    refine Option.eq_none_iff_forall_ne_some.2 fun x hx => ?_
    obtain ⟨values, hfields, h⟩ := (hread _ x).1 hx
    exact hnull x values hfields (List.of_mem_zip ((h.mem_iff hn).1 hmem)).2
  length items hne := by
    refine Option.eq_none_iff_forall_ne_some.2 fun x hx => ?_
    obtain ⟨values, _, h⟩ := (hread _ x).1 hx
    cases h with
    | array hlength => exact hne hlength

end Codings

/-! ## One of several words -/

theorem word?_eq_some_iff {s : String} : j.word? = some s ↔ j = .str s ∨ j = .obj [(s, .null)] := by
  constructor
  · intro h
    unfold word? at h
    split at h
    · cases h
      exact Or.inl rfl
    · cases h
      exact Or.inr rfl
    · cases h
  · rintro (rfl | rfl) <;> rfl

section Words

variable {α : Type} {all : List α} {code : α → String}

/-- Reading a value by its word, if different values have different words: it is spelled by its word or by an
object with nothing but an empty member of that name. -/
theorem find?_word_eq_some_iff (hall : ∀ a, a ∈ all) (hcode : Function.Injective code) {a : α} :
    (j.word?.bind fun s => all.find? (code · = s)) = some a ↔
      j = .str (code a) ∨ j = .obj [(code a, .null)] := by
  rw [← word?_eq_some_iff, Option.bind_eq_some_iff]
  constructor
  · rintro ⟨s, hs, hfind⟩
    have hword : code a = s := by simpa using List.find?_some hfind
    rwa [hword]
  · intro h
    refine ⟨code a, h, ?_⟩
    cases hfind : all.find? (code · = code a) with
    | none => simpa using List.find?_eq_none.1 hfind a (hall a)
    | some b =>
      have hword : code b = code a := by simpa using List.find?_some hfind
      rw [hcode hword]

theorem canonical_word {read : Json → Option α}
    (hread : ∀ j a, read j = some a ↔ j = .str (code a) ∨ j = .obj [(code a, .null)]) :
    Canonical (fun _ => True) IsText (fun a => some (.str (code a))) read :=
  canonical_of_valid (fun a _ => ⟨_, rfl, ⟨_, rfl⟩, (hread _ a).2 (Or.inl rfl)⟩) fun _ _ _ => trivial

end Words

/-! ## Texts in an array -/

theorem texts?_eq_some_iff {texts : List String} : j.texts? = some texts ↔ j = .arr (texts.map .str) := by
  cases j with
  | arr items =>
    simp only [texts?, Json.arr.injEq]
    refine mapM_eq_some_iff_map fun item s => ?_
    cases item <;> simp
  | _ => simp [texts?]

end Json

/-! ## The codings of the domain -/

variable {j : Json}

theorem DeviceId.ofJson?_eq_some_iff {d : DeviceId} : DeviceId.ofJson? j = some d ↔ j = d.toJson := by
  cases j <;> cases d <;> simp [DeviceId.ofJson?, DeviceId.toJson]

theorem DeviceId.canonical :
    Json.Canonical (fun _ => True) Json.IsText (fun d => some d.toJson) DeviceId.ofJson? :=
  Json.canonical_of_valid (fun _ _ => ⟨_, rfl, ⟨_, rfl⟩, ofJson?_eq_some_iff.2 rfl⟩)
    fun _ _ _ => trivial

theorem DeviceId.ofJson?_eq_none (h : ∀ s, j ≠ .str s) : DeviceId.ofJson? j = none := by
  refine Option.eq_none_iff_forall_ne_some.2 fun d hd => ?_
  exact h _ (ofJson?_eq_some_iff.1 hd)

theorem Verdict.code_injective : Function.Injective Verdict.code := by
  intro a b h
  cases a <;> cases b <;> simp_all [Verdict.code]

theorem Verdict.ofJson?_eq_some_iff (j : Json) (v : Verdict) :
    Verdict.ofJson? j = some v ↔ j = .str v.code ∨ j = .obj [(v.code, .null)] :=
  Json.find?_word_eq_some_iff (fun v => by cases v <;> simp [Verdict.all]) Verdict.code_injective

theorem Verdict.canonical :
    Json.Canonical (fun _ => True) Json.IsText (fun v => some v.toJson) Verdict.ofJson? :=
  Json.canonical_word Verdict.ofJson?_eq_some_iff

-- the word that is shown is not the one that is read
example : Verdict.ofJson? (.str Verdict.nonCriticalErrors.label) = none := by decide

theorem EntryKind.code_injective : Function.Injective EntryKind.code := by
  intro a b h
  cases a <;> cases b <;> simp_all [EntryKind.code]

theorem EntryKind.ofJson?_eq_some_iff (j : Json) (k : EntryKind) :
    EntryKind.ofJson? j = some k ↔ j = .str k.code ∨ j = .obj [(k.code, .null)] :=
  Json.find?_word_eq_some_iff (fun k => by cases k <;> simp [EntryKind.all]) EntryKind.code_injective

theorem EntryKind.canonical :
    Json.Canonical (fun _ => True) Json.IsText (fun k => some k.toJson) EntryKind.ofJson? :=
  Json.canonical_word EntryKind.ofJson?_eq_some_iff

namespace Content

variable {c : Content}

theorem fieldNames_nodup : fieldNames.Nodup := by decide

/-- The values of the fields of a data source with an id that an object can have. -/
def Fields (c : Content) (values : List Json) : Prop :=
  Json.isObjectId c.objectId ∧ values = [.int c.objectId, .str c.name, c.device.toJson]

theorem ofJson?_eq_some_iff :
    Content.ofJson? j = some c ↔ ∃ values, c.Fields values ∧ j.Spells fieldNames values := by
  unfold Content.ofJson?
  constructor
  · intro h
    split at h
    · rename_i id name device hfields
      split at h
      · rename_i d hdevice
        split at h
        · rename_i hid
          cases h
          rw [DeviceId.ofJson?_eq_some_iff.1 hdevice] at hfields
          exact ⟨_, ⟨hid, rfl⟩, (Json.fields?_eq_some_iff fieldNames_nodup).1 hfields⟩
        · cases h
      · cases h
    · cases h
  · rintro ⟨_, ⟨hid, rfl⟩, h⟩
    have hfields := (Json.fields?_eq_some_iff fieldNames_nodup).2 h
    have hdevice : DeviceId.ofJson? c.device.toJson = some c.device := rfl
    simp only [hfields, hdevice, hid, if_true]

theorem canonical :
    Json.Canonical (fun c => Json.isObjectId c.objectId = true) (Json.IsRecord fieldNames)
      (fun c => some c.toJson) Content.ofJson? := by
  refine Json.canonical_of_valid (fun c hc => ⟨_, rfl, ⟨_, rfl, rfl⟩, ?_⟩) fun j c h => ?_
  · exact ofJson?_eq_some_iff.2 ⟨_, ⟨hc, rfl⟩, Json.spells_record rfl⟩
  · obtain ⟨_, ⟨hid, _⟩, _⟩ := ofJson?_eq_some_iff.1 h
    exact hid

theorem readsFields : Json.ReadsFields fieldNames Fields Content.ofJson? :=
  Json.readsFields_of_iff fieldNames_nodup (fun _ _ => ofJson?_eq_some_iff) fun c values h => by
    simp [h.2, DeviceId.toJson]

/-- Values of which the first is no integer that an object id can be, or the last is no text, are not read. -/
theorem ofJson?_eq_none {id name device : Json} (h : j.Spells fieldNames [id, name, device])
    (hno : (∀ i, id = .int i → Json.isObjectId i = false) ∨ ∀ s, device ≠ .str s) :
    Content.ofJson? j = none := by
  refine Option.eq_none_iff_forall_ne_some.2 fun c hc => ?_
  obtain ⟨_, ⟨hid, rfl⟩, h'⟩ := ofJson?_eq_some_iff.1 hc
  cases h.unique fieldNames_nodup h'
  rcases hno with hno | hno
  · exact absurd hid (Bool.eq_false_iff.1 (hno c.objectId rfl))
  · exact hno c.device.text rfl

end Content

theorem Path.text?_eq_some_iff {p : Path} {s : String} : p.text? = some s ↔ p = .ofString s := by
  cases p
  simp [Path.text?, Path.ofString, Text.Utf8.text?_eq_some_iff]

namespace SourceConfig

variable {c : SourceConfig}

theorem fieldNames_nodup : fieldNames.Nodup := by decide

/-- The values of the fields of a configuration with paths that are text. -/
def Fields (c : SourceConfig) (values : List Json) : Prop :=
  ∃ paths : List String, c.paths = paths.map Path.ofString ∧
    values = [c.device.toJson, .str c.rootName, .arr (paths.map .str)]

theorem ofJson?_eq_some_iff :
    SourceConfig.ofJson? j = some c ↔ ∃ values, c.Fields values ∧ j.Spells fieldNames values := by
  unfold SourceConfig.ofJson?
  constructor
  · intro h
    split at h
    · rename_i device rootName paths hfields
      split at h
      · rename_i d texts hdevice htexts
        cases h
        rw [DeviceId.ofJson?_eq_some_iff.1 hdevice, Json.texts?_eq_some_iff.1 htexts] at hfields
        exact ⟨_, ⟨texts, rfl, rfl⟩, (Json.fields?_eq_some_iff fieldNames_nodup).1 hfields⟩
      · cases h
    · cases h
  · rintro ⟨_, ⟨texts, hpaths, rfl⟩, h⟩
    have hfields := (Json.fields?_eq_some_iff fieldNames_nodup).2 h
    have hdevice : DeviceId.ofJson? c.device.toJson = some c.device := rfl
    have htexts : (Json.arr (texts.map .str)).texts? = some texts := Json.texts?_eq_some_iff.2 rfl
    simp only [hfields, hdevice, htexts, ← hpaths]

theorem toJson?_eq_some {paths : List String} (hpaths : c.paths = paths.map Path.ofString) :
    c.toJson? =
      some (.obj (fieldNames.zip [c.device.toJson, .str c.rootName, .arr (paths.map .str)])) := by
  unfold toJson?
  rw [(mapM_eq_some_iff_map fun _ _ => Path.text?_eq_some_iff).2 hpaths]
  rfl

theorem canonical :
    Json.Canonical (fun c => ∀ p ∈ c.paths, p.text? ≠ none) (Json.IsRecord fieldNames) toJson?
      SourceConfig.ofJson? := by
  refine Json.canonical_of_valid (fun c hc => ?_) fun j c h p hp => ?_
  · have htexts : ∀ p ∈ c.paths, p ∈ Set.range Path.ofString := fun p hp => by
      obtain ⟨s, hs⟩ := Option.ne_none_iff_exists'.1 (hc p hp)
      exact ⟨s, (Path.text?_eq_some_iff.1 hs).symm⟩
    obtain ⟨paths, hpaths⟩ := (Set.range_list_map Path.ofString).symm.subset htexts
    refine ⟨_, toJson?_eq_some hpaths.symm, ⟨_, rfl, rfl⟩, ?_⟩
    exact ofJson?_eq_some_iff.2 ⟨_, ⟨paths, hpaths.symm, rfl⟩, Json.spells_record rfl⟩
  · obtain ⟨_, ⟨paths, hpaths, _⟩, _⟩ := ofJson?_eq_some_iff.1 h
    obtain ⟨s, _, rfl⟩ := List.mem_map.1 (hpaths ▸ hp)
    simp

theorem readsFields : Json.ReadsFields fieldNames Fields SourceConfig.ofJson? :=
  Json.readsFields_of_iff fieldNames_nodup (fun _ _ => ofJson?_eq_some_iff) fun c values h => by
    obtain ⟨paths, _, rfl⟩ := h
    simp [DeviceId.toJson]

/-- Values of which the first is no text are not read. -/
theorem ofJson?_eq_none {device rootName paths : Json}
    (h : j.Spells fieldNames [device, rootName, paths]) (hno : ∀ s, device ≠ .str s) :
    SourceConfig.ofJson? j = none := by
  refine Option.eq_none_iff_forall_ne_some.2 fun c hc => ?_
  obtain ⟨_, ⟨_, _, rfl⟩, h'⟩ := ofJson?_eq_some_iff.1 hc
  cases h.unique fieldNames_nodup h'
  exact hno c.device.text rfl

end SourceConfig

/-- **The codings are canonical**: values of the domain are written in one form and read back from it, and
whatever is read is written in that form again.  One of several words is read from the word and from an
object with an empty member of that name.  Values with fields are read from an object in any order
and with any other members as from the array of their values; what lacks a field, has null in one, has an
object id beyond 64 bits or a device id that is no text is not read. -/
theorem json_canonical :
    Json.Canonical (fun _ => True) Json.IsText (fun d => some d.toJson) DeviceId.ofJson? ∧
      Json.Canonical (fun _ => True) Json.IsText (fun v => some v.toJson) Verdict.ofJson? ∧
      Json.Canonical (fun _ => True) Json.IsText (fun k => some k.toJson) EntryKind.ofJson? ∧
      Json.Canonical (fun c => Json.isObjectId c.objectId = true)
        (Json.IsRecord Content.fieldNames) (fun c => some c.toJson) Content.ofJson? ∧
      Json.Canonical (fun c => ∀ p ∈ c.paths, p.text? ≠ none) (Json.IsRecord SourceConfig.fieldNames)
        SourceConfig.toJson? SourceConfig.ofJson? ∧
      (∀ j (v : Verdict), Verdict.ofJson? j = some v ↔ j = .str v.code ∨ j = .obj [(v.code, .null)]) ∧
      (∀ j (k : EntryKind), EntryKind.ofJson? j = some k ↔ j = .str k.code ∨ j = .obj [(k.code, .null)]) ∧
      Json.ReadsFields Content.fieldNames Content.Fields Content.ofJson? ∧
      Json.ReadsFields SourceConfig.fieldNames SourceConfig.Fields SourceConfig.ofJson? ∧
      (∀ (j id name device : Json), j.Spells Content.fieldNames [id, name, device] →
        ((∀ i, id = .int i → Json.isObjectId i = false) ∨ ∀ s, device ≠ .str s) →
        Content.ofJson? j = none) ∧
      (∀ (j device rootName paths : Json), j.Spells SourceConfig.fieldNames [device, rootName, paths] →
        (∀ s, device ≠ .str s) → SourceConfig.ofJson? j = none) ∧
      ∀ j, (∀ s, j ≠ .str s) → DeviceId.ofJson? j = none :=
  ⟨DeviceId.canonical, Verdict.canonical, EntryKind.canonical, Content.canonical, SourceConfig.canonical,
    Verdict.ofJson?_eq_some_iff, EntryKind.ofJson?_eq_some_iff, Content.readsFields,
    SourceConfig.readsFields, fun _ _ _ _ => Content.ofJson?_eq_none,
    fun _ _ _ _ => SourceConfig.ofJson?_eq_none, fun _ => DeviceId.ofJson?_eq_none⟩

/-- A data source with its fields in another order, and one more. -/
def respelledContent : Json :=
  .obj [("note", .null), ("device_id", .str "dev"), ("object_id", .int 7), ("name", .str "d.001")]

theorem json_canonical_respelled :
    let c : Content := ⟨7, "d.001", ⟨"dev"⟩⟩
    Content.ofJson? respelledContent = some c ∧
      Content.ofJson? respelledContent = Content.ofJson? (.arr [.int 7, .str "d.001", .str "dev"]) ∧
      (∃ j, some c.toJson = some j ∧ Json.IsRecord Content.fieldNames j ∧ Content.ofJson? j = some c) ∧
      SourceConfig.ofJson? (.obj [("device_id", .str "dev"), ("local_file_paths", .arr [])]) = none ∧
      Content.ofJson? (.obj [("object_id", .int 7), ("name", .null), ("device_id", .str "dev")]) = none ∧
      Content.ofJson? (.arr [.int 7, .str "d.001"]) = none ∧
      Content.ofJson? (.arr [.int 0x8000000000000000, .str "d.001", .str "dev"]) = none ∧
      SourceConfig.ofJson? (.arr [.int 1, .str "", .arr [.str "/x"]]) = none ∧
      DeviceId.ofJson? (.arr [.str "dev"]) = none := by
  intro c
  obtain ⟨_, _, _, hcontent, _, _, _, hreads, hconfig, hno, hnoConfig, hnoDevice⟩ := json_canonical
  have hspells : respelledContent.Spells Content.fieldNames [.int 7, .str "d.001", .str "dev"] :=
    (Json.fields?_eq_some_iff (by decide)).1 rfl
  have hread : Content.ofJson? respelledContent = some c := rfl
  refine ⟨hread, hreads.same _ _ hspells, hcontent.rewritten _ _ hread,
    hconfig.missing _ "root_virtual_directory_name" (by decide) (by simp),
    hreads.null _ "name" (by decide) (by simp), hreads.length _ (by decide), ?_, ?_, ?_⟩
  · refine hno _ _ _ _ (.array rfl) (Or.inl fun i hi => ?_)
    cases hi
    decide
  · exact hnoConfig _ _ _ _ (.array rfl) fun s hs => by cases hs
  · exact hnoDevice _ fun s hs => by cases hs

end Casefile
