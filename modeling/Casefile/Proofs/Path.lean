import Casefile.Path

/-!
# The steps of a path

* `Name.Valid` — what can be the name of an object in a directory.
* `Path.descend` — the path of the object at a location below another path.

Principal results: `components_child` — going down into a directory adds one step, however the path of the
directory is spelled.  `components_ofComponents` — the spelling of the steps of a path has these steps.
`parent?_child` — so going up again leads to a spelling of the directory.
-/

set_option autoImplicit false

namespace Casefile

/-- What can be the name of an object in a directory. -/
structure Name.Valid (n : Name) : Prop where
  ne_nil : n ≠ []
  ne_dot : n ≠ [Path.dot]
  ne_dots : n ≠ [Path.dot, Path.dot]
  no_slash : Path.slash ∉ n
  no_nul : 0 ∉ n

namespace Path

variable {p q : Path} {n : Name}

/-- The path of the object at a location below `p`. -/
def descend (p : Path) (loc : List Name) : Path :=
  loc.foldl child p

@[simp] theorem descend_nil (p : Path) : p.descend [] = p := rfl

@[simp] theorem descend_cons (p : Path) (n : Name) (loc : List Name) :
    p.descend (n :: loc) = (p.child n).descend loc := rfl

theorem descend_append (p : Path) (loc loc' : List Name) :
    p.descend (loc ++ loc') = (p.descend loc).descend loc' :=
  List.foldl_append

/-! ## Stretches between slashes -/

theorem segments_ne_nil (bs : List UInt8) : segments bs ≠ [] := by
  cases bs with
  | nil => simp [segments]
  | cons b bs =>
    unfold segments
    split
    · simp
    · split <;> simp

/-- A slash cuts the bytes of a path into its two sides. -/
theorem segments_append (xs ys : List UInt8) :
    segments (xs ++ slash :: ys) = segments xs ++ segments ys := by
  induction xs with
  | nil => simp [segments]
  | cons x xs ih =>
    simp only [List.cons_append, segments, ih]
    split
    · simp
    · cases h : segments xs with
      | nil => exact absurd h (segments_ne_nil xs)
      | cons s ss => simp

theorem segments_of_not_mem {bs : List UInt8} (h : slash ∉ bs) : segments bs = [bs] := by
  induction bs with
  | nil => rfl
  | cons b bs ih =>
    have hb : b ≠ slash := fun heq => h (heq ▸ List.mem_cons_self)
    have hbs : slash ∉ bs := fun hmem => h (List.mem_cons_of_mem b hmem)
    rw [segments, if_neg hb, ih hbs]

theorem not_mem_of_mem_segments {bs : List UInt8} (h : n ∈ segments bs) : slash ∉ n := by
  induction bs generalizing n with
  | nil =>
    rw [List.mem_singleton.1 h]
    exact List.not_mem_nil
  | cons b bs ih =>
    unfold segments at h
    split at h
    · rcases List.mem_cons.1 h with rfl | h
      · exact List.not_mem_nil
      · exact ih h
    · rename_i hb
      split at h
      · rename_i hnil
        exact absurd hnil (segments_ne_nil bs)
      · rename_i first rest heq
        have hall : ∀ s ∈ first :: rest, slash ∉ s := fun s hs => ih (heq ▸ hs)
        rcases List.mem_cons.1 h with rfl | h
        · intro hmem
          rcases List.mem_cons.1 hmem with heq | hmem
          · exact hb heq.symm
          · exact hall first List.mem_cons_self hmem
        · exact hall n (List.mem_cons_of_mem _ h)

theorem mem_steps (h : n ∈ p.steps) : n ≠ [] ∧ slash ∉ n := by
  obtain ⟨hmem, hne⟩ := List.mem_filter.1 h
  exact ⟨by simpa using hne, not_mem_of_mem_segments hmem⟩

theorem subset_of_mem_segments {bs : List UInt8} (h : n ∈ segments bs) : n ⊆ bs := by
  induction bs generalizing n with
  | nil =>
    rw [List.mem_singleton.1 h]
    exact List.nil_subset _
  | cons b bs ih =>
    unfold segments at h
    split at h
    · rcases List.mem_cons.1 h with rfl | h
      · exact List.nil_subset _
      · exact List.subset_cons_of_subset b (ih h)
    · split at h
      · rename_i hnil
        exact absurd hnil (segments_ne_nil bs)
      · rename_i first rest heq
        have hall : ∀ s ∈ first :: rest, s ⊆ bs := fun s hs => ih (heq ▸ hs)
        rcases List.mem_cons.1 h with rfl | h
        · exact List.cons_subset_cons b (hall first List.mem_cons_self)
        · exact List.subset_cons_of_subset b (hall n (List.mem_cons_of_mem _ h))

/-- A step of a path that the operating system takes is a name, unless it is `.` or `..`. -/
theorem valid_of_mem_steps (hnul : 0 ∉ p.bytes) (h : n ∈ p.steps) (hdot : n ≠ [dot])
    (hdots : n ≠ [dot, dot]) : Name.Valid n where
  ne_nil := (mem_steps h).1
  ne_dot := hdot
  ne_dots := hdots
  no_slash := (mem_steps h).2
  no_nul := fun hmem => hnul (subset_of_mem_segments (List.mem_filter.1 h).1 hmem)

/-! ## Going down -/

theorem not_isAbsolute_name (hn : Name.Valid n) : isAbsolute ⟨n⟩ = false := by
  cases n with
  | nil => rfl
  | cons b bs =>
    have hb : b ≠ slash := fun heq => hn.no_slash (heq ▸ List.mem_cons_self)
    simpa [isAbsolute] using hb

/-- The bytes of a path in a directory: those of the directory, a slash unless there is one, and the name. -/
theorem child_cases (hp : p.bytes ≠ []) (hn : Name.Valid n) :
    (∃ bs, p.bytes = bs ++ [slash] ∧ (p.child n).bytes = bs ++ slash :: n) ∨
      (p.child n).bytes = p.bytes ++ slash :: n := by
  unfold child join
  rw [not_isAbsolute_name hn, if_neg Bool.false_ne_true]
  by_cases hend : p.endsWithSlash
  · left
    have hlast : p.bytes.getLast? = some slash := by simpa [endsWithSlash] using hend
    obtain ⟨bs, hbs⟩ := List.getLast?_eq_some_iff.1 hlast
    refine ⟨bs, hbs, ?_⟩
    simp [hend, hbs]
  · right
    simp [hend, hp]

theorem child_ne_nil (hp : p.bytes ≠ []) (hn : Name.Valid n) : (p.child n).bytes ≠ [] := by
  rcases child_cases hp hn with ⟨bs, _, h⟩ | h <;> simp [h]

/-- Going down makes a path longer. -/
theorem length_le_child (hp : p.bytes ≠ []) (hn : Name.Valid n) :
    p.bytes.length ≤ (p.child n).bytes.length := by
  rcases child_cases hp hn with ⟨bs, hbs, h⟩ | h
  · simp only [h, hbs, List.length_append, List.length_cons, List.length_nil]
    omega
  · simp only [h, List.length_append]
    omega

theorem steps_child (hp : p.bytes ≠ []) (hn : Name.Valid n) :
    (p.child n).steps = p.steps ++ [n] := by
  have hlast : (segments n).filter (· ≠ []) = [n] := by
    rw [segments_of_not_mem hn.no_slash]
    simp [hn.ne_nil]
  unfold steps
  rcases child_cases hp hn with ⟨bs, hbs, h⟩ | h
  · -- the empty stretch behind the slash at the end is no step
    rw [h, hbs, segments_append, segments_append, List.filter_append, List.filter_append, hlast]
    simp [segments]
  · rw [h, segments_append, List.filter_append, hlast]

theorem isAbsolute_child (hp : p.bytes ≠ []) (hn : Name.Valid n) :
    (p.child n).isAbsolute = p.isAbsolute := by
  obtain ⟨b, bs, hbs⟩ := List.exists_cons_of_ne_nil hp
  unfold isAbsolute
  rcases child_cases hp hn with ⟨init, hinit, h⟩ | h
  · rw [h, hinit]
    cases init <;> rfl
  · rw [h, hbs]
    rfl

/-- A path from elsewhere than the root directory has a first step. -/
theorem steps_ne_nil (hp : p.bytes ≠ []) (hrel : p.isAbsolute = false) : p.steps ≠ [] := by
  obtain ⟨b, bs, hbs⟩ := List.exists_cons_of_ne_nil hp
  have hb : b ≠ slash := by simpa [isAbsolute, hbs] using hrel
  unfold steps
  rw [hbs, segments, if_neg hb]
  cases h : segments bs with
  | nil => simp
  | cons s ss => simp

/-- The component of a name is the name. -/
theorem componentOf_name (hn : Name.Valid n) : componentOf n = .name n :=
  if_neg hn.ne_dots

/-- **Going down adds one step**, however the path is spelled. -/
theorem components_child (hp : p.bytes ≠ []) (hn : Name.Valid n) :
    (p.child n).components = p.components ++ [.name n] := by
  have hnamed : ((p.steps ++ [n]).filter (· ≠ [dot])).map componentOf =
      (p.steps.filter (· ≠ [dot])).map componentOf ++ [.name n] := by
    simp [hn.ne_dot, componentOf_name hn]
  unfold components
  simp only [steps_child hp hn, isAbsolute_child hp hn, hnamed]
  split
  · rfl
  · rename_i habs
    have hsteps : p.steps ≠ [] := steps_ne_nil hp (by simpa using habs)
    have hhead : (p.steps ++ [n]).head? = p.steps.head? := by
      cases hs : p.steps with
      | nil => exact absurd hs hsteps
      | cons s ss => rfl
    rw [hhead]
    split <;> rfl

theorem descend_ne_nil (hp : p.bytes ≠ []) :
    ∀ {loc : List Name}, (∀ n ∈ loc, Name.Valid n) → (p.descend loc).bytes ≠ [] := by
  intro loc
  induction loc generalizing p with
  | nil => exact fun _ => hp
  | cons n loc ih =>
    intro hloc
    obtain ⟨hn, hloc⟩ := List.forall_mem_cons.1 hloc
    exact ih (child_ne_nil hp hn) hloc

theorem components_descend (hp : p.bytes ≠ []) :
    ∀ {loc : List Name}, (∀ n ∈ loc, Name.Valid n) →
      (p.descend loc).components = p.components ++ loc.map .name := by
  intro loc
  induction loc generalizing p with
  | nil => simp
  | cons n loc ih =>
    intro hloc
    obtain ⟨hn, hloc⟩ := List.forall_mem_cons.1 hloc
    rw [descend_cons, ih (child_ne_nil hp hn) hloc, components_child hp hn]
    simp

/-- Paths below the same path that have the same steps are at one location. -/
theorem descend_injective (hp : p.bytes ≠ []) {loc loc' : List Name}
    (hloc : ∀ n ∈ loc, Name.Valid n) (hloc' : ∀ n ∈ loc', Name.Valid n)
    (h : (p.descend loc).components = (p.descend loc').components) : loc = loc' := by
  rw [components_descend hp hloc, components_descend hp hloc'] at h
  exact (List.map_inj_right fun _ _ heq => Component.name.inj heq).1 (List.append_cancel_left h)

theorem length_le_descend (hp : p.bytes ≠ []) :
    ∀ {loc : List Name}, (∀ n ∈ loc, Name.Valid n) →
      p.bytes.length ≤ (p.descend loc).bytes.length := by
  intro loc
  induction loc generalizing p with
  | nil => exact fun _ => Nat.le_refl _
  | cons n loc ih =>
    intro hloc
    obtain ⟨hn, hloc⟩ := List.forall_mem_cons.1 hloc
    exact Nat.le_trans (length_le_child hp hn) (ih (child_ne_nil hp hn) hloc)

/-- An object is called by its name. -/
theorem label_child (hp : p.bytes ≠ []) (hn : Name.Valid n) : (p.child n).label = Text.Utf8.lossy n := by
  unfold label fileName?
  rw [components_child hp hn, List.getLast?_concat]

/-! ## Going up -/

/-- The steps that `components` spells out behind the root directory or a leading `.`. -/
theorem mem_named (h : n ∈ p.steps.filter (· ≠ [dot])) : n ≠ [] ∧ slash ∉ n ∧ n ≠ [dot] := by
  obtain ⟨hmem, hne⟩ := List.mem_filter.1 h
  obtain ⟨hnil, hslash⟩ := mem_steps hmem
  exact ⟨hnil, hslash, by simpa using hne⟩

theorem ofComponents_singleton (n : Name) : (ofComponents [componentOf n]).bytes = n := by
  unfold componentOf
  split
  · rename_i h
    exact h.symm
  · rfl

theorem ofComponents_cons (n n' : Name) (ns : List Name) :
    (ofComponents ((n :: n' :: ns).map componentOf)).bytes =
      n ++ slash :: (ofComponents ((n' :: ns).map componentOf)).bytes := by
  simp only [List.map_cons]
  cases hc : componentOf n with
  | root => unfold componentOf at hc; split at hc <;> cases hc
  | here => unfold componentOf at hc; split at hc <;> cases hc
  | up =>
    have hn : n = [dot, dot] := by
      unfold componentOf at hc
      split at hc
      · assumption
      · cases hc
    subst hn
    rfl
  | name m =>
    have hm : m = n := by
      unfold componentOf at hc
      split at hc
      · cases hc
      · exact (Component.name.inj hc).symm
    subst hm
    rfl

/-- Spelled out, steps are the stretches between the slashes. -/
theorem segments_ofComponents :
    ∀ {ns : List Name}, ns ≠ [] → (∀ n ∈ ns, slash ∉ n) →
      segments (ofComponents (ns.map componentOf)).bytes = ns
  | [], h, _ => absurd rfl h
  | [n], _, hns => by
    have hn : slash ∉ n := hns n List.mem_cons_self
    rw [List.map_singleton, ofComponents_singleton, segments_of_not_mem hn]
  | n :: n' :: ns, _, hns => by
    obtain ⟨hn, hrest⟩ := List.forall_mem_cons.1 hns
    rw [ofComponents_cons, segments_append, segments_of_not_mem hn,
      segments_ofComponents (List.cons_ne_nil n' ns) hrest]
    rfl

/-- Spelled out, steps are steps again. -/
theorem steps_ofComponents {ns : List Name} (hns : ∀ n ∈ ns, n ≠ [] ∧ slash ∉ n) :
    (ofComponents (ns.map componentOf)).steps = ns := by
  by_cases hnil : ns = []
  · subst hnil
    rfl
  · unfold steps
    rw [segments_ofComponents hnil fun n hn => (hns n hn).2]
    exact List.filter_eq_self.2 fun n hn => by simpa using (hns n hn).1

theorem head_ofComponents {ns : List Name} (hns : ∀ n ∈ ns, n ≠ [] ∧ slash ∉ n) :
    (ofComponents (ns.map componentOf)).isAbsolute = false := by
  cases habs : (ofComponents (ns.map componentOf)).isAbsolute with
  | false => rfl
  | true =>
    -- a path from the root directory has an empty stretch in front, which is none of the names
    obtain ⟨bs, hbs⟩ : ∃ bs, (ofComponents (ns.map componentOf)).bytes = slash :: bs :=
      List.head?_eq_some_iff.1 (by simpa [isAbsolute] using habs)
    have hne : ns ≠ [] := by
      rintro rfl
      cases hbs
    have hseg := segments_ofComponents hne fun n hn => (hns n hn).2
    rw [hbs, segments, if_pos rfl] at hseg
    exact absurd rfl (hns [] (hseg ▸ List.mem_cons_self)).1

theorem steps_root (cs : List Component) : (ofComponents (.root :: cs)).steps = (ofComponents cs).steps := by
  have hbytes : (ofComponents (.root :: cs)).bytes = [] ++ slash :: (ofComponents cs).bytes := rfl
  unfold steps
  rw [hbytes, segments_append]
  rfl

theorem steps_here (h : p.bytes = dot :: slash :: q.bytes) : p.steps = [dot] :: q.steps := by
  have hbytes : p.bytes = [dot] ++ slash :: q.bytes := h
  unfold steps
  rw [hbytes, segments_append]
  rfl

/-- **The spelling of the steps of a path has these steps.** -/
theorem components_ofComponents (p : Path) : (ofComponents p.components).components = p.components := by
  obtain ⟨ns, hns⟩ : ∃ ns, ns = p.steps.filter (· ≠ [dot]) := ⟨_, rfl⟩
  have hnamed : ∀ n ∈ ns, n ≠ [] ∧ slash ∉ n ∧ n ≠ [dot] := fun n hn => mem_named (hns ▸ hn)
  have hsteps : (ofComponents (ns.map componentOf)).steps = ns :=
    steps_ofComponents fun n hn => ⟨(hnamed n hn).1, (hnamed n hn).2.1⟩
  have hrel : (ofComponents (ns.map componentOf)).isAbsolute = false :=
    head_ofComponents fun n hn => ⟨(hnamed n hn).1, (hnamed n hn).2.1⟩
  have hkeep : ns.filter (· ≠ [dot]) = ns :=
    List.filter_eq_self.2 fun n hn => by simpa using (hnamed n hn).2.2
  have hp : p.components = if p.isAbsolute then .root :: ns.map componentOf
      else if p.steps.head? = some [dot] then .here :: ns.map componentOf else ns.map componentOf := by
    rw [hns]
    rfl
  rw [hp]
  split
  · have habs : (ofComponents (.root :: ns.map componentOf)).isAbsolute = true := rfl
    unfold components
    rw [habs, if_pos rfl, steps_root, hsteps, hkeep]
  · split
    · cases ns with
      | nil => rfl
      | cons n ns =>
        have hbytes : (ofComponents (.here :: (n :: ns).map componentOf)).bytes =
            dot :: slash :: (ofComponents ((n :: ns).map componentOf)).bytes := rfl
        have habs : (ofComponents (.here :: (n :: ns).map componentOf)).isAbsolute = false := rfl
        unfold components
        rw [habs, if_neg Bool.false_ne_true, steps_here hbytes, hsteps, List.head?_cons, if_pos rfl,
          List.filter_cons_of_neg (by simp), hkeep]
    · -- no step is a dot, so none is taken for a leading one
      have hhead : ns.head? ≠ some [dot] := fun h => (hnamed _ (List.mem_of_head? h)).2.2 rfl
      unfold components
      rw [hrel, if_neg Bool.false_ne_true, hsteps, if_neg hhead, hkeep]

/-- **Going up from an object in a directory leads to the directory.** -/
theorem parent?_child (hp : p.bytes ≠ []) (hn : Name.Valid n) :
    ∃ q, (p.child n).parent? = some q ∧ q.components = p.components := by
  refine ⟨ofComponents p.components, ?_, components_ofComponents p⟩
  unfold parent?
  rw [components_child hp hn, List.getLast?_concat, List.dropLast_concat]

end Path

end Casefile
