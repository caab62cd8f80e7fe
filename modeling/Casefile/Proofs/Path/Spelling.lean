import Casefile.Proofs.Path
import Mathlib.Logic.Relation

/-!
# Spellings of a path

* `Path.Shortens` — one way to spell a path with fewer bytes: a slash behind a slash goes, a `.` behind a
  slash, and a slash at the end.
* `Path.Idle` — a stretch between slashes that is no step.

Principal results: `Shortens.components_eq` — a shorter spelling has the same steps.
`shortens_ofComponents` — every path can be shortened to the spelling of its steps.  So
`same_iff_shortens` — two paths have the same steps exactly if one can be turned into the other by shortening
and lengthening; a leading `./` makes a difference (`same_here_iff`).
-/

set_option autoImplicit false

namespace Casefile.Path

open Relation

variable {p q : Path}

/-- One spelling with fewer bytes. -/
inductive Shortens : List UInt8 → List UInt8 → Prop where
  | repeated (xs ys : List UInt8) : Shortens (xs ++ slash :: slash :: ys) (xs ++ slash :: ys)
  | inner (xs ys : List UInt8) : Shortens (xs ++ slash :: dot :: slash :: ys) (xs ++ slash :: ys)
  | lastDot (xs : List UInt8) : Shortens (xs ++ [slash, dot]) (xs ++ [slash])
  /-- The slash of the root directory stays. -/
  | lastSlash (xs : List UInt8) (hne : xs ≠ []) : Shortens (xs ++ [slash]) xs

/-! ## Shorter spellings have the same steps -/

theorem same_iff : p.same q ↔ p.components = q.components :=
  decide_eq_true_iff

/-- A leading `.` counts only in a path that does not start from the root directory. -/
theorem components_congr (habs : p.isAbsolute = q.isAbsolute)
    (hsteps : p.steps.filter (· ≠ [dot]) = q.steps.filter (· ≠ [dot]))
    (hhead : p.isAbsolute = false → p.steps.head? = q.steps.head?) : p.components = q.components := by
  unfold components
  rw [hsteps, ← habs]
  cases h : p.isAbsolute with
  | true => rfl
  | false => rw [hhead h]

theorem steps_append_slash (xs ys : List UInt8) :
    steps ⟨xs ++ slash :: ys⟩ = steps ⟨xs⟩ ++ steps ⟨ys⟩ := by
  unfold steps
  rw [segments_append, List.filter_append]

theorem isAbsolute_append_slash (xs ys ys' : List UInt8) :
    isAbsolute ⟨xs ++ slash :: ys⟩ = isAbsolute ⟨xs ++ slash :: ys'⟩ := by
  cases xs <;> rfl

/-- Behind a slash only the steps that are no `.` count. -/
theorem components_append_slash {xs ys ys' : List UInt8}
    (hsteps : (steps ⟨ys⟩).filter (· ≠ [dot]) = (steps ⟨ys'⟩).filter (· ≠ [dot])) :
    components ⟨xs ++ slash :: ys⟩ = components ⟨xs ++ slash :: ys'⟩ := by
  refine components_congr (isAbsolute_append_slash xs ys ys') ?_ fun hrel => ?_
  · rw [steps_append_slash, steps_append_slash, List.filter_append, List.filter_append, hsteps]
  · -- there is something in front of the slash, so the first step stands there
    have hne : xs ≠ [] := by
      rintro rfl
      cases hrel
    have hrel' : isAbsolute ⟨xs⟩ = false := by
      obtain ⟨b, bs, rfl⟩ := List.exists_cons_of_ne_nil hne
      exact hrel
    obtain ⟨s, ss, hs⟩ := List.exists_cons_of_ne_nil (steps_ne_nil hne hrel')
    rw [steps_append_slash, steps_append_slash, hs]
    rfl

theorem components_concat_slash {xs : List UInt8} (hne : xs ≠ []) :
    components ⟨xs ++ [slash]⟩ = components ⟨xs⟩ := by
  have hsteps : steps ⟨xs ++ [slash]⟩ = steps ⟨xs⟩ := by
    rw [steps_append_slash]
    exact List.append_nil _
  refine components_congr ?_ (by rw [hsteps]) fun _ => by rw [hsteps]
  obtain ⟨b, bs, rfl⟩ := List.exists_cons_of_ne_nil hne
  rfl

/-- **A shorter spelling has the same steps.** -/
theorem Shortens.components_eq {bs bs' : List UInt8} (h : Shortens bs bs') :
    components ⟨bs⟩ = components ⟨bs'⟩ := by
  cases h with
  | repeated xs ys =>
    have hsteps : steps ⟨slash :: ys⟩ = steps ⟨ys⟩ := steps_append_slash [] ys
    exact components_append_slash (by rw [hsteps])
  | inner xs ys =>
    have hsteps : steps ⟨dot :: slash :: ys⟩ = [dot] :: steps ⟨ys⟩ := steps_here rfl
    exact components_append_slash (by rw [hsteps, List.filter_cons_of_neg (by simp)])
  | lastDot xs => exact components_append_slash rfl
  | lastSlash _ hne => exact components_concat_slash hne

/-! ## Every path can be shortened to the spelling of its steps -/

/-- A stretch between slashes that is no step. -/
def Idle (s : Name) : Prop :=
  s = [] ∨ s = [dot]

/-- Stretches, each behind a slash. -/
def behindSlashes (ss : List Name) : List UInt8 :=
  ss.flatMap (slash :: ·)

/-- The stretches that are steps other than `.`. -/
def busy (ss : List Name) : List Name :=
  (ss.filter (· ≠ [])).filter (· ≠ [dot])

theorem behindSlashes_cons (s : Name) (ss : List Name) :
    behindSlashes (s :: ss) = slash :: s ++ behindSlashes ss :=
  List.flatMap_cons

theorem busy_of_idle {s : Name} (h : Idle s) (ss : List Name) : busy (s :: ss) = busy ss := by
  rcases h with rfl | rfl <;> rfl

theorem busy_of_not_idle {s : Name} (h : ¬ Idle s) (ss : List Name) : busy (s :: ss) = s :: busy ss := by
  obtain ⟨hnil, hdot⟩ := not_or.1 h
  simp [busy, hnil, hdot]

theorem segments_spelled {bs : List UInt8} {s : Name} {ss : List Name} (h : segments bs = s :: ss) :
    bs = s ++ behindSlashes ss := by
  induction bs generalizing s ss with
  | nil =>
    cases h
    rfl
  | cons b bs ih =>
    unfold segments at h
    split at h
    · rename_i hb
      cases hs : segments bs with
      | nil => exact absurd hs (segments_ne_nil bs)
      | cons s' ss' =>
        rw [hs] at h
        cases h
        rw [List.nil_append, behindSlashes_cons, hb, ih hs]
        rfl
    · split at h
      · rename_i hnil
        exact absurd hnil (segments_ne_nil bs)
      · rename_i first rest hs
        cases h
        rw [ih hs]
        rfl

/-- An idle stretch goes if there is another behind it. -/
theorem shortens_skip {s : Name} (h : Idle s) (xs : List UInt8) (s' : Name) (ss : List Name) :
    Shortens (xs ++ behindSlashes (s :: s' :: ss)) (xs ++ behindSlashes (s' :: ss)) := by
  rcases h with rfl | rfl
  · exact .repeated xs _
  · exact .inner xs _

/-- An idle stretch at the end goes, but for the slash. -/
theorem shortens_last {s : Name} (h : Idle s) (xs : List UInt8) :
    ReflTransGen Shortens (xs ++ behindSlashes [s]) (xs ++ [slash]) := by
  rcases h with rfl | rfl
  · exact .refl
  · exact .single (.lastDot xs)

/-- Behind anything else, all idle stretches go. -/
theorem shortens_busy {xs : List UInt8} (hne : xs ≠ []) (ss : List Name) :
    ReflTransGen Shortens (xs ++ behindSlashes ss) (xs ++ behindSlashes (busy ss)) := by
  induction ss generalizing xs with
  | nil => exact .refl
  | cons s ss ih =>
    by_cases hs : Idle s
    · rw [busy_of_idle hs]
      cases ss with
      | nil =>
        refine (shortens_last hs xs).tail ?_
        rw [show behindSlashes (busy []) = [] from rfl, List.append_nil]
        exact .lastSlash xs hne
      | cons s' ss => exact (ih hne).head (shortens_skip hs xs s' ss)
    · have hxs : xs ++ slash :: s ≠ [] := List.append_ne_nil_of_left_ne_nil hne _
      rw [busy_of_not_idle hs, behindSlashes_cons, behindSlashes_cons, ← List.append_assoc,
        ← List.append_assoc]
      exact ih hxs

/-- So they do at the root directory, of which a slash is left. -/
theorem shortens_root {ss : List Name} (hne : ss ≠ []) :
    ReflTransGen Shortens (behindSlashes ss)
      (if busy ss = [] then [slash] else behindSlashes (busy ss)) := by
  induction ss with
  | nil => exact absurd rfl hne
  | cons s ss ih =>
    by_cases hs : Idle s
    · rw [busy_of_idle hs]
      cases ss with
      | nil => exact shortens_last hs []
      | cons s' ss => exact (ih (List.cons_ne_nil s' ss)).head (shortens_skip hs [] s' ss)
    · rw [busy_of_not_idle hs, if_neg (List.cons_ne_nil _ _), behindSlashes_cons, behindSlashes_cons]
      exact shortens_busy (List.cons_ne_nil slash s) ss

theorem ofComponents_names (n : Name) (ns : List Name) :
    (ofComponents ((n :: ns).map componentOf)).bytes = n ++ behindSlashes ns := by
  induction ns generalizing n with
  | nil => rw [List.map_singleton, ofComponents_singleton, behindSlashes, List.flatMap_nil, List.append_nil]
  | cons n' ns ih =>
    rw [ofComponents_cons, ih, behindSlashes_cons]
    rfl

theorem ofComponents_root (ns : List Name) :
    (ofComponents (.root :: ns.map componentOf)).bytes =
      if ns = [] then [slash] else behindSlashes ns := by
  cases ns with
  | nil => rfl
  | cons n ns =>
    rw [if_neg (List.cons_ne_nil n ns), behindSlashes_cons]
    exact congrArg (slash :: ·) (ofComponents_names n ns)

theorem ofComponents_here (ns : List Name) :
    (ofComponents (.here :: ns.map componentOf)).bytes = dot :: behindSlashes ns := by
  cases ns with
  | nil => rfl
  | cons n ns =>
    rw [behindSlashes_cons]
    exact congrArg (dot :: slash :: ·) (ofComponents_names n ns)

/-- **Every path can be shortened to the spelling of its steps.** -/
theorem shortens_ofComponents (p : Path) :
    ReflTransGen Shortens p.bytes (ofComponents p.components).bytes := by
  obtain ⟨s, ss, hseg⟩ := List.exists_cons_of_ne_nil (segments_ne_nil p.bytes)
  have hbytes : p.bytes = s ++ behindSlashes ss := segments_spelled hseg
  have hbusy : p.steps.filter (· ≠ [dot]) = busy (s :: ss) := by
    rw [busy, ← hseg]
    rfl
  by_cases hs : s = []
  · subst hs
    rw [List.nil_append] at hbytes
    rw [hbytes]
    cases ss with
    | nil =>
      have hp : p = ⟨[]⟩ := congrArg Path.mk hbytes
      subst hp
      exact .refl
    | cons s' ss =>
      have habs : p.isAbsolute = true := by
        rw [isAbsolute, hbytes]
        rfl
      have hcomponents : p.components = .root :: (busy (s' :: ss)).map componentOf := by
        unfold components
        rw [hbusy, habs]
        rfl
      rw [hcomponents, ofComponents_root]
      exact shortens_root (List.cons_ne_nil s' ss)
  · have hrel : p.isAbsolute = false := by
      obtain ⟨b, bs, rfl⟩ := List.exists_cons_of_ne_nil hs
      have hslash : slash ∉ b :: bs := not_mem_of_mem_segments (hseg ▸ List.mem_cons_self)
      rw [isAbsolute, hbytes]
      simpa using fun h : b = slash => hslash (h ▸ List.mem_cons_self)
    have hhead : p.steps.head? = some s := by
      rw [steps, hseg, List.filter_cons_of_pos (by simpa using hs)]
      rfl
    rw [hbytes]
    by_cases hdot : s = [dot]
    · have hcomponents : p.components = .here :: (busy ss).map componentOf := by
        unfold components
        rw [hbusy, hrel, hhead, busy_of_idle (Or.inr hdot), hdot]
        rfl
      rw [hcomponents, ofComponents_here, hdot]
      exact shortens_busy (List.cons_ne_nil dot []) ss
    · have hcomponents : p.components = (s :: busy ss).map componentOf := by
        unfold components
        rw [hbusy, hrel, hhead, busy_of_not_idle (not_or.2 ⟨hs, hdot⟩)]
        simp [hdot]
      rw [hcomponents, ofComponents_names]
      exact shortens_busy hs ss

theorem components_eq_of_shortens {bs bs' : List UInt8} (h : ReflTransGen Shortens bs bs') :
    components ⟨bs⟩ = components ⟨bs'⟩ := by
  induction h with
  | refl => rfl
  | tail _ hstep ih => exact ih.trans hstep.components_eq

/-- **Two paths have the same steps exactly if both can be shortened to one spelling.** -/
theorem same_iff_shortens (p q : Path) :
    p.same q ↔ ∃ bs, ReflTransGen Shortens p.bytes bs ∧ ReflTransGen Shortens q.bytes bs := by
  rw [same_iff]
  constructor
  · intro h
    exact ⟨_, shortens_ofComponents p, h ▸ shortens_ofComponents q⟩
  · rintro ⟨bs, hp, hq⟩
    exact (components_eq_of_shortens hp).trans (components_eq_of_shortens hq).symm

theorem componentOf_ne_here (n : Name) : componentOf n ≠ .here := by
  unfold componentOf
  split <;> exact fun h => by cases h

/-- **A leading `./` makes a difference**, unless there is one. -/
theorem same_here_iff (p : Path) :
    p.same ⟨dot :: slash :: p.bytes⟩ ↔ p.components.head? = some .here := by
  have hsteps : steps ⟨dot :: slash :: p.bytes⟩ = [dot] :: p.steps := steps_here rfl
  have hcomponents : components ⟨dot :: slash :: p.bytes⟩ =
      .here :: (p.steps.filter (· ≠ [dot])).map componentOf := by
    unfold components
    rw [hsteps, List.filter_cons_of_neg (by simp)]
    rfl
  rw [same_iff, hcomponents]
  constructor
  · intro h
    rw [h]
    rfl
  · intro h
    unfold components at h
    split at h
    · cases h
    · rename_i hrel
      split at h
      · rename_i hhead
        unfold components
        rw [if_neg hrel, if_pos hhead]
      · obtain ⟨n, _, hn⟩ := List.mem_map.1 (List.mem_of_head? h)
        exact absurd hn (componentOf_ne_here n)

end Casefile.Path
