import Casefile.Tables.Edit
import Casefile.Tables.Listing

/-!
# The values in rows

* `Cell.Spells` — a cell holds a text, as such or by the bytes of it; `Cell.Legible` — it holds some text.
* `Cell.le_iff` — the order of values is that of their kinds, then of numbers, then of bytes.

Principal results: `readText_eq_ok_iff` — the text that is read from a cell is the one that it spells.
`le_trans` and `le_total` — the order of values is one, and so is that of segments.  `Affinity.apply_apply` — what a
column has made of a value, it leaves as it is.
-/

set_option autoImplicit false

namespace Casefile

namespace Text.Utf8

variable {bs : List UInt8} {s : String}

theorem text?_eq_some_iff : text? bs = some s ↔ bs = bytes s := by
  constructor
  · intro h
    unfold text? String.fromUTF8? at h
    split at h
    · cases h
      rfl
    · cases h
  · rintro rfl
    exact text?_bytes s

theorem read_eq_ok_iff : read bs = .ok s ↔ bs = bytes s := by
  rw [← text?_eq_some_iff]
  unfold read
  cases text? bs <;> simp

end Text.Utf8

namespace Cell

variable {a b c : Cell} {s : String}

/-! ## Text -/

/-- The cell holds this text. -/
def Spells (c : Cell) (s : String) : Prop :=
  c = .text s ∨ c = .illText (Text.Utf8.bytes s)

/-- The cell holds some text. -/
def Legible (c : Cell) : Prop :=
  ∃ s, c.Spells s

/-- The text that is read from a cell is the one that it spells. -/
theorem readText_eq_ok_iff : c.readText = .ok s ↔ c.Spells s := by
  cases c with
  | null => simp [readText, Spells]
  | int i => simp [readText, Spells]
  | real x => simp [readText, Spells]
  | text s' => simp [readText, Spells]
  | blob bs => simp [readText, Spells]
  | illText bs =>
    have hread : Text.Utf8.read bs = .ok s ↔ bs = Text.Utf8.bytes s := Text.Utf8.read_eq_ok_iff
    unfold readText Spells
    cases h : Text.Utf8.read bs with
    | ok s' => simpa [h] using hread
    | error fault => simpa [h] using hread

/-! ## Order -/

/-- The number in a cell, as a multiple of the smallest positive double; 0 if there is none. -/
def number : Cell → Int
  | .int i => i * Double.perOne
  | .real x => x.units
  | _ => 0

theorem mul_perOne_le_iff {i j : Int} : i * Double.perOne ≤ j * Double.perOne ↔ i ≤ j :=
  Int.mul_le_mul_right (Int.natCast_pos.2 Double.perOne_pos)

theorem bytes_of_number (ha : a.rank = 1) : a.bytes = [] := by
  cases a <;> first | rfl | cases ha

theorem number_of_other (ha : a.rank ≠ 1) : a.number = 0 := by
  cases a <;> first | rfl | exact absurd rfl ha

/-- Two numbers are in order if their multiples are, whichever kinds of numbers they are. -/
theorem le_iff_of_numbers (ha : a.rank = 1) (hb : b.rank = 1) : a.le b = true ↔ a.number ≤ b.number := by
  cases a with
  | int i =>
    cases b with
    | int j => exact decide_eq_true_iff.trans mul_perOne_le_iff.symm
    | real y => exact decide_eq_true_iff
    | _ => cases hb
  | real x =>
    cases b with
    | int j => exact decide_eq_true_iff
    | real y => exact decide_eq_true_iff
    | _ => cases hb
  | _ => cases ha

theorem le_of_others (h : ¬ (a.rank = 1 ∧ b.rank = 1)) :
    a.le b = (a.rank < b.rank || (a.rank == b.rank && a.bytes ≤ b.bytes)) := by
  cases a <;> cases b <;> first | rfl | exact absurd ⟨rfl, rfl⟩ h

/-- Values go by their kinds, then by numbers, then by bytes. -/
theorem le_iff : a.le b = true ↔ a.rank < b.rank ∨
    a.rank = b.rank ∧ (a.number < b.number ∨ a.number = b.number ∧ a.bytes ≤ b.bytes) := by
  by_cases hnumbers : a.rank = 1 ∧ b.rank = 1
  · obtain ⟨ha, hb⟩ := hnumbers
    rw [le_iff_of_numbers ha hb, bytes_of_number ha, bytes_of_number hb, ha, hb, Int.le_iff_lt_or_eq]
    simp
  · rw [le_of_others hnumbers]
    simp only [Bool.or_eq_true, Bool.and_eq_true, decide_eq_true_eq, beq_iff_eq]
    refine or_congr_right (and_congr_right fun hrank => ?_)
    -- cells of one kind that are no numbers have the same one in the place of a number
    have hb : b.rank ≠ 1 := fun hb => hnumbers ⟨hrank.trans hb, hb⟩
    have ha : a.rank ≠ 1 := fun ha => hb (hrank.symm.trans ha)
    simp [number_of_other ha, number_of_other hb]

theorem le_trans (h : a.le b = true) (h' : b.le c = true) : a.le c = true := by
  rw [le_iff] at h h' ⊢
  rcases h with h | ⟨hrank, h | ⟨hnumber, h⟩⟩
  · left
    omega
  · rcases h' with h' | ⟨hrank', h' | ⟨hnumber', _⟩⟩ <;> omega
  · rcases h' with h' | ⟨hrank', h' | ⟨hnumber', h'⟩⟩
    · left
      omega
    · right
      omega
    · exact .inr ⟨hrank.trans hrank', .inr ⟨hnumber.trans hnumber', List.le_trans h h'⟩⟩

theorem le_total (a b : Cell) : (a.le b || b.le a) = true := by
  rw [Bool.or_eq_true, le_iff, le_iff]
  rcases Nat.lt_trichotomy a.rank b.rank with hrank | hrank | hrank
  · exact .inl (.inl hrank)
  · rcases Int.lt_trichotomy a.number b.number with hnumber | hnumber | hnumber
    · exact .inl (.inr ⟨hrank, .inl hnumber⟩)
    · rcases List.le_total a.bytes b.bytes with hbytes | hbytes
      · exact .inl (.inr ⟨hrank, .inr ⟨hnumber, hbytes⟩⟩)
      · exact .inr (.inr ⟨hrank.symm, .inr ⟨hnumber.symm, hbytes⟩⟩)
    · exact .inr (.inr ⟨hrank.symm, .inl hnumber⟩)
  · exact .inr (.inl hrank)

end Cell

/-! ## Columns -/

namespace Affinity

theorem apply_ofDouble (x : Double) : integer.apply (.ofDouble x) = .ofDouble x := by
  cases hwhole : x.whole? with
  | some i => simp [Cell.ofDouble, hwhole, apply]
  | none => simp [Cell.ofDouble, hwhole, apply]

theorem apply_ofNumeral (n : Numeral) : integer.apply (.ofNumeral n) = .ofNumeral n := by
  unfold Cell.ofNumeral
  split
  · rfl
  · exact apply_ofDouble _

/-- **What a column has made of a value, it leaves as it is.** -/
theorem apply_apply (a : Affinity) (c : Cell) : a.apply (a.apply c) = a.apply c := by
  cases a with
  | text => cases c <;> rfl
  | integer =>
    cases c with
    | real x => exact apply_ofDouble x
    | text s =>
      cases hread : Numeral.read? s with
      | none => simp [apply, hread]
      | some n =>
        have hmade : integer.apply (.text s) = .ofNumeral n := by simp [apply, hread]
        rw [hmade, apply_ofNumeral]
    | null => rfl
    | int i => rfl
    | illText bytes => rfl
    | blob bytes => rfl

example : ["1e0", "1.5", "2.0"].map (fun s => integer.apply (.text s)) =
    [.int 1, .real (.nearest false 3 2), .int 2] := by
  decide +kernel

end Affinity

namespace Tables

variable {a b c : ObjectId × ImageNameRow}

theorem segmentLe_iff : segmentLe a b = true ↔
    a.1 < b.1 ∨ a.1 = b.1 ∧ a.2.sequence.le b.2.sequence = true := by
  simp [segmentLe]

theorem segmentLe_trans (h : segmentLe a b = true) (h' : segmentLe b c = true) :
    segmentLe a c = true := by
  rw [segmentLe_iff] at h h' ⊢
  rcases h with h | ⟨hid, h⟩
  · left
    rcases h' with h' | ⟨hid', _⟩ <;> lia
  · rcases h' with h' | ⟨hid', h'⟩
    · left
      lia
    · exact .inr ⟨hid.trans hid', Cell.le_trans h h'⟩

theorem segmentLe_total (a b : ObjectId × ImageNameRow) : (segmentLe a b || segmentLe b a) = true := by
  rw [Bool.or_eq_true, segmentLe_iff, segmentLe_iff]
  rcases Int.lt_trichotomy a.1 b.1 with hid | hid | hid
  · exact .inl (.inl hid)
  · rcases Bool.or_eq_true_iff.1 (Cell.le_total a.2.sequence b.2.sequence) with hle | hle
    · exact .inl (.inr ⟨hid, hle⟩)
    · exact .inr (.inr ⟨hid.symm, hle⟩)
  · exact .inr (.inl hid)

end Tables

end Casefile
