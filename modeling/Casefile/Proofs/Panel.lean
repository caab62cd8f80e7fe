import Casefile.Panel
import Mathlib.Data.List.DropRight
import Mathlib.Data.List.TakeWhile

/-!
# What the panel makes of paths

* `Text.pieces_joined` — cutting joined texts cuts each of them.
* `Text.trimChars_trimChars` — what has been trimmed stays as it is.
* `Pathless` — a text with nothing but blanks between its separators.
* `Path.usable` — the paths that the panel makes of one: the pieces of its text.
* `Path.Plain` — a path that is text, not blank at its ends, and without the separator.

Principal results: `Panel.setPaths_paths` — the panel asks for what it makes of each path on its own.
`plain_of_mem_splitPaths` — it asks for plain paths only.  `flatMap_usable_eq_iff` — so it asks for what it was
given if and only if all of that is plain.
-/

set_option autoImplicit false

namespace Casefile

namespace Text

variable {sep : Char} {cs : List Char}

/-! ## Pieces -/

/-- A text without the separator is one piece. -/
theorem pieces_of_not_mem (h : sep ∉ cs) : pieces sep cs = [cs] := by
  induction cs with
  | nil => rfl
  | cons c cs ih =>
    have hc : c ≠ sep := fun heq => h (heq ▸ List.mem_cons_self)
    have hrest : sep ∉ cs := fun hmem => h (List.mem_cons_of_mem c hmem)
    rw [pieces, if_neg hc, ih hrest]

/-- No piece has the separator in it. -/
theorem not_mem_of_mem_pieces {piece : List Char} (h : piece ∈ pieces sep cs) : sep ∉ piece := by
  induction cs generalizing piece with
  | nil =>
    rw [List.mem_singleton.1 h]
    exact List.not_mem_nil
  | cons c cs ih =>
    unfold pieces at h
    split at h
    · rcases List.mem_cons.1 h with rfl | h
      · exact List.not_mem_nil
      · exact ih h
    · rename_i hc
      split at h
      · rename_i hnil
        exact absurd hnil (pieces_ne_nil sep cs)
      · rename_i first rest hpieces
        have hrest : ∀ q ∈ first :: rest, sep ∉ q := by
          intro q hq
          rw [← hpieces] at hq
          exact ih hq
        rcases List.mem_cons.1 h with rfl | h
        · intro hmem
          rcases List.mem_cons.1 hmem with rfl | hmem
          · exact hc rfl
          · exact hrest first List.mem_cons_self hmem
        · exact hrest piece (List.mem_cons_of_mem _ h)

/-- **Cutting joined texts cuts each of them.** -/
theorem pieces_joined (sep : Char) :
    ∀ {ps : List (List Char)}, ps ≠ [] → pieces sep (joined sep ps) = ps.flatMap (pieces sep)
  | [], h => absurd rfl h
  | [p], _ => by simp [joined]
  | p :: q :: ps, _ => by
    have hrest : pieces sep (joined sep (q :: ps)) = (q :: ps).flatMap (pieces sep) :=
      pieces_joined sep (List.cons_ne_nil q ps)
    rw [joined, pieces_append, hrest]
    rfl

/-! ## Trimming -/

/-- What has been trimmed does not begin with a blank, and does not end with one. -/
theorem trimChars_trimChars (cs : List Char) : trimChars (trimChars cs) = trimChars cs := by
  have hends : trimChars cs = (cs.dropWhile isBlank).rdropWhile isBlank := rfl
  have hstart : (trimChars cs).dropWhile isBlank = trimChars cs := by
    rw [List.dropWhile_eq_self_iff]
    intro hpos
    obtain ⟨rest, hrest⟩ : trimChars cs <+: cs.dropWhile isBlank :=
      hends ▸ List.rdropWhile_prefix isBlank (cs.dropWhile isBlank)
    -- the first character is the one that the dropping of blanks stopped at
    have hpos' : 0 < (cs.dropWhile isBlank).length := by
      rw [← hrest, List.length_append]
      omega
    have hsame : (trimChars cs)[0] = (cs.dropWhile isBlank)[0] := by
      simp only [← hrest, List.getElem_append_left hpos]
    rw [hsame]
    exact List.dropWhile_get_zero_not isBlank cs hpos'
  have hagain : trimChars (trimChars cs) = ((trimChars cs).dropWhile isBlank).rdropWhile isBlank := rfl
  rw [hagain, hstart, hends, List.rdropWhile_idempotent]

theorem mem_of_mem_trimChars {c : Char} (h : c ∈ trimChars cs) : c ∈ cs := by
  have hinit : trimChars cs <+: cs.dropWhile isBlank :=
    List.rdropWhile_prefix isBlank (cs.dropWhile isBlank)
  exact (List.dropWhile_suffix isBlank).subset (hinit.subset h)

/-- Nothing is left of a text if and only if all of it is blank. -/
theorem trimChars_eq_nil_iff : trimChars cs = [] ↔ ∀ c ∈ cs, isBlank c = true := by
  unfold trimChars dropEndWhile
  rw [List.reverse_eq_nil_iff, List.dropWhile_eq_nil_iff]
  constructor
  · intro hend c hc
    rw [← List.takeWhile_append_dropWhile (p := isBlank) (l := cs)] at hc
    rcases List.mem_append.1 hc with hc | hc
    · exact List.mem_takeWhile_imp hc
    · exact hend c (List.mem_reverse.2 hc)
  · intro hall c hc
    exact hall c ((List.dropWhile_suffix isBlank).subset (List.mem_reverse.1 hc))

end Text

/-! ## The paths in a text -/

/-- All that stands between the separators of a text is blank. -/
def Pathless (text : String) : Prop :=
  ∀ piece ∈ Text.pieces pathSeparator text.toList, ∀ c ∈ piece, Text.isBlank c = true

/-- **There are no paths in a text if and only if all between its separators is blank.** -/
theorem splitPaths_eq_nil_iff (text : String) : splitPaths text = [] ↔ Pathless text := by
  simp only [splitPaths, splitTexts, Pathless, List.map_eq_nil_iff, List.filter_eq_nil_iff,
    List.forall_mem_map, ← Text.trimChars_eq_nil_iff]
  refine forall₂_congr fun piece _ => ?_
  simp

/-- **The texts in joined texts are those in each of them.** -/
theorem splitTexts_joined (ps : List (List Char)) :
    splitTexts (String.ofList (Text.joined pathSeparator ps)) =
      ps.flatMap fun p => splitTexts (String.ofList p) := by
  by_cases hne : ps = []
  · subst hne
    decide
  · unfold splitTexts
    simp only [String.toList_ofList, Text.pieces_joined pathSeparator hne, List.map_flatMap,
      List.filter_flatMap]

/-- A path that the panel leaves as it is: text, not blank at its ends, and without the separator. -/
def Path.Plain (p : Path) : Prop :=
  ∃ s, p = Path.ofString s ∧ s ≠ "" ∧ pathSeparator ∉ s.toList ∧ Text.trim s = s

/-- The paths that the panel makes of one. -/
def Path.usable (p : Path) : List Path :=
  splitPaths p.display

/-- **The paths in a text are plain.** -/
theorem plain_of_mem_splitPaths {text : String} {q : Path} (h : q ∈ splitPaths text) : q.Plain := by
  obtain ⟨s, hs, rfl⟩ := List.mem_map.1 h
  obtain ⟨hmem, hne⟩ := List.mem_filter.1 hs
  obtain ⟨piece, hpiece, rfl⟩ := List.mem_map.1 hmem
  refine ⟨String.ofList (Text.trimChars piece), rfl, by simpa using hne, ?_, ?_⟩
  · rw [String.toList_ofList]
    intro hsep
    exact Text.not_mem_of_mem_pieces hpiece (Text.mem_of_mem_trimChars hsep)
  · unfold Text.trim
    rw [String.toList_ofList, Text.trimChars_trimChars]

theorem Path.Plain.usable_eq {p : Path} (h : p.Plain) : p.usable = [p] := by
  obtain ⟨s, rfl, hne, hsep, htrim⟩ := h
  have htext : String.ofList (Text.trimChars s.toList) = s := htrim
  unfold Path.usable splitPaths splitTexts
  rw [Path.display_ofString, Text.pieces_of_not_mem hsep, List.map_singleton, htext]
  simp [hne]

/-- **The panel leaves paths as they are if and only if they are plain.** -/
theorem flatMap_usable_eq_iff (ps : List Path) :
    ps.flatMap Path.usable = ps ↔ ∀ p ∈ ps, p.Plain := by
  constructor
  · intro heq p hp
    rw [← heq] at hp
    obtain ⟨q, _, hmem⟩ := List.mem_flatMap.1 hp
    exact plain_of_mem_splitPaths hmem
  · intro hplain
    induction ps with
    | nil => rfl
    | cons p ps ih =>
      obtain ⟨hp, hps⟩ := List.forall_mem_cons.1 hplain
      rw [List.flatMap_cons, hp.usable_eq, ih hps]
      rfl

/-- **The panel asks for what it makes of each path on its own.** -/
theorem Panel.setPaths_paths (ps : List Path) (p : Panel) :
    (p.setPaths ps).paths = ps.flatMap Path.usable := by
  show splitPaths (String.ofList (Text.joined pathSeparator _)) = _
  unfold splitPaths
  rw [splitTexts_joined, List.flatMap_map, List.map_flatMap]
  simp only [String.ofList_toList]
  rfl

end Casefile
