import Casefile.DataSource
import Mathlib.Data.List.DropRight
import Mathlib.Data.List.TakeWhile

/-!
# The last segment of an image's path

* `Segmented` — characters cut into what is before their last segment, that segment, and the separators
  behind it.
* `LastSegment` — the same of texts.

Principal results: `segmented_shortNameChars` — what is computed is such a segment.
`Segmented.shortNameChars_eq` — and the only one that is not empty.  `shortName_lastSegment` — so a short name is
the last segment of its path, whatever stands in front of that.
-/

set_option autoImplicit false

namespace Casefile

theorem isImageSeparator_iff {c : Char} : isImageSeparator c = true ↔ c = '/' ∨ c = '\\' := by
  simp [isImageSeparator]

/-! ## Characters -/

/-- Characters cut in three: before their last segment, the segment, and the separators behind it. -/
structure Segmented (path before name after : List Char) : Prop where
  eq : path = before ++ name ++ after
  /-- The segment begins at the start or behind a separator. -/
  boundary : before = [] ∨ ∃ c, before.getLast? = some c ∧ isImageSeparator c = true
  plain : ∀ c ∈ name, isImageSeparator c = false
  trailing : ∀ c ∈ after, isImageSeparator c = true

section Characters

variable {path before name after : List Char}

/-- From the right, the separators at the end are passed over, and then all up to the next one is taken. -/
theorem shortNameChars_eq_rtakeWhile (path : List Char) :
    shortNameChars path = (path.rdropWhile isImageSeparator).rtakeWhile (!isImageSeparator ·) := by
  simp [shortNameChars, List.rtakeWhile, List.rdropWhile]

/-- **What is computed is a last segment.** -/
theorem segmented_shortNameChars (path : List Char) :
    ∃ before after, Segmented path before (shortNameChars path) after := by
  let body := path.rdropWhile isImageSeparator
  have hname : shortNameChars path = body.rtakeWhile (!isImageSeparator ·) :=
    shortNameChars_eq_rtakeWhile path
  refine ⟨body.rdropWhile (!isImageSeparator ·), path.rtakeWhile isImageSeparator, ?_, ?_, ?_, ?_⟩
  · rw [hname, List.rdropWhile_append_rtakeWhile, List.rdropWhile_append_rtakeWhile]
  · by_cases hnil : body.rdropWhile (!isImageSeparator ·) = []
    · exact Or.inl hnil
    · right
      refine ⟨_, List.getLast?_eq_some_getLast hnil, ?_⟩
      simpa using List.rdropWhile_last_not (!isImageSeparator ·) body hnil
  · intro c hc
    rw [hname] at hc
    simpa using List.mem_rtakeWhile_imp hc
  · intro c hc
    exact List.mem_rtakeWhile_imp hc

/-- **A last segment that is not empty is the one that is computed.** -/
theorem Segmented.shortNameChars_eq (h : Segmented path before name after) (hne : name ≠ []) :
    shortNameChars path = name := by
  obtain ⟨rfl, hboundary, hplain, htrailing⟩ := h
  -- from the right: the separators at the end are dropped, and nothing of what is before them
  have hdrop : (before ++ name ++ after).reverse.dropWhile isImageSeparator =
      name.reverse ++ before.reverse := by
    rw [List.reverse_append, List.reverse_append,
      List.dropWhile_append_of_pos fun c hc => htrailing c (List.mem_reverse.1 hc)]
    obtain ⟨init, c, rfl⟩ := List.eq_nil_or_concat' name |>.resolve_left hne
    have hc : isImageSeparator c = false := hplain c (List.mem_append_right _ List.mem_cons_self)
    rw [List.reverse_append, List.reverse_singleton, List.singleton_append, List.cons_append,
      List.dropWhile_cons_of_neg (by simp [hc])]
  -- then the segment is taken, up to the separator in front of it
  have hstop : before.reverse.takeWhile (!isImageSeparator ·) = [] := by
    rcases hboundary with rfl | ⟨c, hlast, hc⟩
    · rfl
    · obtain ⟨init, rfl⟩ := List.getLast?_eq_some_iff.1 hlast
      rw [List.reverse_append, List.reverse_singleton, List.singleton_append,
        List.takeWhile_cons_of_neg (by simp [hc])]
  have htake : (name.reverse ++ before.reverse).takeWhile (!isImageSeparator ·) = name.reverse := by
    rw [List.takeWhile_append_of_pos, hstop, List.append_nil]
    intro c hc
    simp [hplain c (List.mem_reverse.1 hc)]
  rw [shortNameChars, hdrop, htake, List.reverse_reverse]

/-- Nothing is computed if and only if there are only separators. -/
theorem shortNameChars_eq_nil_iff :
    shortNameChars path = [] ↔ ∀ c ∈ path, isImageSeparator c = true := by
  obtain ⟨before, after, heq, hboundary, hplain, htrailing⟩ := segmented_shortNameChars path
  constructor
  · intro hnil
    rw [shortNameChars_eq_rtakeWhile, List.rtakeWhile_eq_nil_iff] at hnil
    rw [← List.rdropWhile_eq_nil_iff (p := isImageSeparator)]
    by_contra hbody
    -- what is left without the separators at the end does not end with one
    have hlast := List.rdropWhile_last_not isImageSeparator path hbody
    exact hnil hbody (by simpa using hlast)
  · intro hall
    rw [List.eq_nil_iff_forall_not_mem]
    intro c hc
    have hmem : c ∈ path := by
      rw [heq]
      exact List.mem_append_left _ (List.mem_append_right _ hc)
    exact Bool.false_ne_true ((hplain c hc).symm.trans (hall c hmem))

/-- A text without separators is its own last segment. -/
theorem Segmented.of_plain (h : ∀ c ∈ name, isImageSeparator c = false) : Segmented name [] name [] :=
  ⟨by simp, Or.inl rfl, h, fun _ hc => by cases hc⟩

/-- What stands in front of a separator does not matter to the last segment behind it. -/
theorem Segmented.behind (h : Segmented path before name after) (front : List Char) {c : Char}
    (hc : isImageSeparator c = true) :
    Segmented (front ++ c :: path) (front ++ c :: before) name after := by
  refine ⟨?_, ?_, h.plain, h.trailing⟩
  · rw [h.eq]
    simp
  · right
    rcases h.boundary with rfl | ⟨last, hlast, hsep⟩
    · exact ⟨c, by simp, hc⟩
    · exact ⟨last, by simp [List.getLast?_cons, hlast], hsep⟩

/-- **The last segment of a last segment is itself.** -/
theorem shortNameChars_shortNameChars (path : List Char) :
    shortNameChars (shortNameChars path) = shortNameChars path := by
  by_cases hnil : shortNameChars path = []
  · rw [hnil]
    rfl
  · obtain ⟨_, _, hseg⟩ := segmented_shortNameChars path
    exact (Segmented.of_plain hseg.plain).shortNameChars_eq hnil

/-- **It stays the same behind anything that ends with a separator.** -/
theorem shortNameChars_behind (hne : shortNameChars path ≠ []) (front : List Char) {c : Char}
    (hc : isImageSeparator c = true) : shortNameChars (front ++ c :: path) = shortNameChars path := by
  obtain ⟨_, _, hseg⟩ := segmented_shortNameChars path
  exact (hseg.behind front hc).shortNameChars_eq hne

end Characters

/-! ## Texts -/

/-- Behind a part that is empty or ends with a separator, and in front of nothing but separators, a path has
this text, in which there are none. -/
def LastSegment (path name : String) : Prop :=
  ∃ before after, path = before ++ name ++ after ∧
    (before = "" ∨ ∃ c, before.toList.getLast? = some c ∧ isImageSeparator c = true) ∧
    (∀ c ∈ name.toList, isImageSeparator c = false) ∧ ∀ c ∈ after.toList, isImageSeparator c = true

theorem lastSegment_iff {path name : String} :
    LastSegment path name ↔ ∃ before after, Segmented path.toList before name.toList after := by
  constructor
  · rintro ⟨before, after, rfl, hboundary, hplain, htrailing⟩
    refine ⟨before.toList, after.toList, by simp, ?_, hplain, htrailing⟩
    exact hboundary.imp_left fun h => by rw [h]; rfl
  · rintro ⟨before, after, heq, hboundary, hplain, htrailing⟩
    refine ⟨.ofList before, .ofList after, ?_, ?_, hplain, ?_⟩
    · apply String.toList_injective
      simpa using heq
    · rw [String.toList_ofList]
      exact hboundary.imp_left fun h => by rw [h]
    · rwa [String.toList_ofList]

theorem toList_shortName (path : String) : (shortName path).toList = shortNameChars path.toList :=
  String.toList_ofList

theorem shortName_eq_empty_iff_toList {path : String} :
    shortName path = "" ↔ shortNameChars path.toList = [] := by
  rw [← toList_shortName]
  exact String.toList_eq_nil_iff.symm

/-- **A short name is the last segment of its path.**  It is empty if and only if the path consists of
separators, which are the slash and the backslash; and no other text that is not empty is a last segment of the
path.  So the short name of a short name is itself, and nothing in front of a separator changes it. -/
theorem shortName_lastSegment (path : String) :
    (∀ c, isImageSeparator c = true ↔ c = '/' ∨ c = '\\') ∧
      LastSegment path (shortName path) ∧
      (shortName path = "" ↔ ∀ c ∈ path.toList, isImageSeparator c = true) ∧
      (∀ name, name ≠ "" → (LastSegment path name ↔ name = shortName path)) ∧
      shortName (shortName path) = shortName path ∧
      ∀ (front : String) (c : Char), isImageSeparator c = true → shortName path ≠ "" →
        shortName (front ++ String.singleton c ++ path) = shortName path := by
  have hsegment : LastSegment path (shortName path) := by
    rw [lastSegment_iff, toList_shortName]
    exact segmented_shortNameChars path.toList
  refine ⟨fun c => isImageSeparator_iff, hsegment, ?_, ?_, ?_, ?_⟩
  · rw [shortName_eq_empty_iff_toList]
    exact shortNameChars_eq_nil_iff
  · intro name hne
    constructor
    · intro hname
      obtain ⟨before, after, hseg⟩ := lastSegment_iff.1 hname
      apply String.toList_injective
      rw [toList_shortName]
      exact (hseg.shortNameChars_eq (mt String.toList_eq_nil_iff.1 hne)).symm
    · rintro rfl
      exact hsegment
  · apply String.toList_injective
    rw [toList_shortName, toList_shortName]
    exact shortNameChars_shortNameChars path.toList
  · intro front c hc hne
    apply String.toList_injective
    rw [toList_shortName, toList_shortName, String.toList_append, String.toList_append,
      String.toList_singleton, List.append_assoc, List.singleton_append]
    exact shortNameChars_behind (mt shortName_eq_empty_iff_toList.2 hne) front.toList hc

theorem shortName_lastSegment_mixed :
    let path := "C:\\evidence/disk.E01/\\"
    LastSegment path "disk.E01" ∧
      shortName ("/mnt" ++ String.singleton '\\' ++ path) = "disk.E01" := by
  intro path
  have hname : "disk.E01" = shortName path := by decide
  obtain ⟨_, _, _, hunique, _, hbehind⟩ := shortName_lastSegment path
  refine ⟨(hunique "disk.E01" (by decide)).2 hname, ?_⟩
  rw [hbehind "/mnt" '\\' (by decide) (by rw [← hname]; decide)]
  exact hname.symm

end Casefile
