import Casefile.Proofs.Processor
import Mathlib

/-!
# The paths that a panel reports

* `Text.IsPiece` — a stretch of a text from one separator, or from the start, up to the next one or the end.
* `NamesPath` — a text with a piece that is not blank.

Principal results: `Text.mem_pieces_iff` — cutting a text gives these stretches.
`panel_splits_what_it_joins` — the panel reports what it makes of each text on its own, which is the text itself
if and only if that is plain; and it asks for something if and only if its text names a path.
-/

set_option autoImplicit false

namespace Casefile

namespace Text

variable {sep : Char} {cs piece : List Char}

/-! ## Pieces -/

/-- A stretch without separators that begins at the start or behind a separator, and ends in front of one or at
the end. -/
def IsPiece (sep : Char) (cs piece : List Char) : Prop :=
  sep ∉ piece ∧ ∃ before after, cs = before ++ piece ++ after ∧
    (before = [] ∨ before.getLast? = some sep) ∧ (after = [] ∨ after.head? = some sep)

/-- Joining the pieces of a text gives it back. -/
theorem joined_pieces (sep : Char) (cs : List Char) : joined sep (pieces sep cs) = cs := by
  induction cs with
  | nil => rfl
  | cons c cs ih =>
    rw [pieces]
    split
    · rename_i hc
      obtain ⟨p, ps, hpieces⟩ := List.exists_cons_of_ne_nil (pieces_ne_nil sep cs)
      rw [hpieces] at ih ⊢
      rw [joined, ih, hc, List.nil_append]
    · obtain ⟨p, ps, hpieces⟩ := List.exists_cons_of_ne_nil (pieces_ne_nil sep cs)
      rw [hpieces] at ih ⊢
      cases ps with
      | nil => exact congrArg (c :: ·) ih
      | cons q ps => exact congrArg (c :: ·) ih

/-- One of several texts that are joined is between separators. -/
theorem between_of_mem (sep : Char) :
    ∀ {ps : List (List Char)}, piece ∈ ps → ∃ before after, joined sep ps = before ++ piece ++ after ∧
      (before = [] ∨ before.getLast? = some sep) ∧ (after = [] ∨ after.head? = some sep)
  | [p], h => by
    obtain rfl := List.mem_singleton.1 h
    exact ⟨[], [], by simp [joined], Or.inl rfl, Or.inl rfl⟩
  | p :: q :: ps, h => by
    rw [joined]
    rcases List.mem_cons.1 h with rfl | h
    · exact ⟨[], sep :: joined sep (q :: ps), by simp, Or.inl rfl, Or.inr rfl⟩
    · obtain ⟨before, after, heq, hbefore, hafter⟩ := between_of_mem sep h
      refine ⟨p ++ sep :: before, after, by simp [heq], Or.inr ?_, hafter⟩
      rcases hbefore with rfl | hlast
      · simp
      · simp [List.getLast?_cons, hlast]

/-- A stretch at the start that ends in front of a separator or at the end is a piece. -/
theorem mem_pieces_append (hsep : sep ∉ piece) {after : List Char}
    (hafter : after = [] ∨ after.head? = some sep) : piece ∈ pieces sep (piece ++ after) := by
  rcases hafter with rfl | hhead
  · rw [List.append_nil, pieces_of_not_mem hsep]
    exact List.mem_cons_self
  · obtain ⟨rest, rfl⟩ := List.head?_eq_some_iff.1 hhead
    rw [pieces_append, pieces_of_not_mem hsep]
    exact List.mem_cons_self

/-- **Cutting a text gives the stretches between its separators**, and nothing else. -/
theorem mem_pieces_iff : piece ∈ pieces sep cs ↔ IsPiece sep cs piece := by
  constructor
  · intro h
    obtain ⟨before, after, heq, hends⟩ := between_of_mem sep h
    rw [joined_pieces] at heq
    exact ⟨not_mem_of_mem_pieces h, before, after, heq, hends⟩
  · rintro ⟨hsep, before, after, rfl, hbefore, hafter⟩
    have hmem : piece ∈ pieces sep (piece ++ after) := mem_pieces_append hsep hafter
    rcases hbefore with rfl | hlast
    · exact hmem
    · obtain ⟨init, rfl⟩ := List.getLast?_eq_some_iff.1 hlast
      rw [List.append_assoc, List.append_assoc, List.singleton_append, pieces_append]
      exact List.mem_append_right _ hmem

end Text

/-! ## What is reported -/

/-- Some piece of a text is not blank. -/
def NamesPath (text : String) : Prop :=
  ∃ piece, Text.IsPiece ',' text.toList piece ∧ ∃ c ∈ piece, Text.isBlank c = false

theorem splitPaths_ne_nil_iff (text : String) : splitPaths text ≠ [] ↔ NamesPath text := by
  rw [Ne, splitPaths_eq_nil_iff]
  simp only [Pathless, NamesPath, Text.mem_pieces_iff, not_forall, exists_prop, Bool.not_eq_true]
  rfl

theorem Path.ofString_injective : Function.Injective Path.ofString := by
  intro s s' h
  rw [← Path.display_ofString s, h, Path.display_ofString]

theorem Path.plain_ofString_iff {s : String} :
    (Path.ofString s).Plain ↔ s ≠ "" ∧ Text.trim s = s ∧ ',' ∉ s.toList := by
  constructor
  · rintro ⟨s', heq, hne, hsep, htrim⟩
    obtain rfl := Path.ofString_injective heq
    exact ⟨hne, htrim, hsep⟩
  · rintro ⟨hne, htrim, hsep⟩
    exact ⟨s, rfl, hne, hsep, htrim⟩

namespace Processor

variable {ids : DeviceIds} {q : Processor} {device : DeviceId}

/-- **A configuration can be settled for a text** if and only if it names a path, and then for all its paths. -/
theorem setOptions_eq_ok_iff (hdevice : DeviceId.ofString (ids q.drawn) = .ok device) (text : String)
    (config : SourceConfig) :
    (q.setOptions ids text).1 = .ok config ↔ NamesPath text ∧ config = ⟨device, "", splitPaths text⟩ := by
  rw [← splitPaths_ne_nil_iff, setOptions, configure_eq hdevice]
  split
  · rename_i hnone
    simp [hnone]
  · rename_i hsome
    simp [hsome, eq_comm]

/-- **So can one for the panel**, and it has the name of the panel, too. -/
theorem configForRun_eq_ok_iff (hdevice : DeviceId.ofString (ids q.drawn) = .ok device)
    (hunsettled : q.configured? = none) (config : SourceConfig) :
    (q.configForRun ids).1 = .ok config ↔
      NamesPath q.panel.contentPaths ∧ config = ⟨device, q.panel.fileSetName, q.panel.paths⟩ := by
  rw [← splitPaths_ne_nil_iff, configForRun_eq hdevice, hunsettled]
  simp only
  split
  · rename_i hnone
    simp [show splitPaths q.panel.contentPaths = [] from hnone]
  · rename_i hsome
    simp [show splitPaths q.panel.contentPaths ≠ [] from hsome, eq_comm]

end Processor

/-- **Splitting undoes joining exactly where it can.**  Given some texts, a panel reports the paths of each of
them on its own, one behind the other.  These are the texts themselves if and only if none is empty, begins or
ends with a blank, or has a comma in it; so the paths that a panel reports stay as they are when it is given them.
It is valid if and only if some piece of its text is not blank; and under a valid device id exactly then a
configuration can be made of it, which asks for the paths that it reports. -/
theorem panel_splits_what_it_joins (p : Panel) :
    (∀ texts : List String,
      (p.setPaths (texts.map .ofString)).paths = texts.flatMap splitPaths ∧
      ((p.setPaths (texts.map .ofString)).paths = texts.map .ofString ↔
        ∀ s ∈ texts, s ≠ "" ∧ Text.trim s = s ∧ ',' ∉ s.toList)) ∧
    (p.setPaths p.paths).paths = p.paths ∧
    (p.isValid = true ↔ NamesPath p.contentPaths) ∧
    ∀ (ids : DeviceIds) (q : Processor) (device : DeviceId), DeviceId.ofString (ids q.drawn) = .ok device →
      (∀ config, (q.setOptions ids p.contentPaths).1 = .ok config ↔
        NamesPath p.contentPaths ∧ config = ⟨device, "", p.paths⟩) ∧
      (q.panel = p → q.configured? = none → ∀ config, (q.configForRun ids).1 = .ok config ↔
        NamesPath p.contentPaths ∧ config = ⟨device, p.fileSetName, p.paths⟩) := by
  refine ⟨fun texts => ⟨?_, ?_⟩, ?_, ?_, fun ids q device hdevice => ⟨?_, ?_⟩⟩
  · rw [Panel.setPaths_paths, List.flatMap_map]
    simp only [Path.usable, Path.display_ofString]
  · rw [Panel.setPaths_paths, flatMap_usable_eq_iff, List.forall_mem_map]
    exact forall₂_congr fun s _ => Path.plain_ofString_iff
  · rw [Panel.setPaths_paths, flatMap_usable_eq_iff]
    intro q hq
    exact plain_of_mem_splitPaths hq
  · rw [← splitPaths_ne_nil_iff, Panel.isValid, Panel.paths]
    simp
  · exact Processor.setOptions_eq_ok_iff hdevice p.contentPaths
  · rintro rfl hunsettled
    exact Processor.configForRun_eq_ok_iff hdevice hunsettled

theorem panel_splits_what_it_joins_spaced :
    let p : Panel := ⟨" /a ,\u3000,/b", "Set"⟩
    ((Processor.mk p none 0).configForRun .numbered).1 =
        .ok ⟨⟨"device-1"⟩, "Set", [.ofString "/a", .ofString "/b"]⟩ ∧
      (Processor.start.setOptions .numbered p.contentPaths).1 =
        .ok ⟨⟨"device-1"⟩, "", [.ofString "/a", .ofString "/b"]⟩ := by
  intro p
  have hdevice : DeviceId.ofString (DeviceIds.numbered 0) = .ok ⟨"device-1"⟩ := by decide
  have hpaths : p.paths = [.ofString "/a", .ofString "/b"] := by decide
  have hnames : NamesPath p.contentPaths :=
    ⟨" /a ".toList, ⟨by decide, [], ",\u3000,/b".toList, by decide, Or.inl rfl, Or.inr (by decide)⟩,
      '/', by decide, by decide⟩
  obtain ⟨_, _, _, hconfig⟩ := panel_splits_what_it_joins p
  obtain ⟨_, hpanel⟩ := hconfig .numbered ⟨p, none, 0⟩ ⟨"device-1"⟩ hdevice
  obtain ⟨htext, _⟩ := hconfig .numbered .start ⟨"device-1"⟩ hdevice
  rw [hpaths] at hpanel htext
  exact ⟨(hpanel rfl rfl _).2 ⟨hnames, rfl⟩, (htext _).2 ⟨hnames, rfl⟩⟩

end Casefile
