import Casefile.Proofs.Tables.Values
import Mathlib

/-!
# Reading bytes that may not be UTF-8

* `encode_one`, `encode_two`, `encode_three`, `encode_four` — the bytes of the character whose number is made
  of some bytes are these.
* `Pending.Sound` — a sequence that has begun: however it is continued, the character that it makes is encoded
  by its bytes.

Principal results: `sound_of_lead` — every byte that begins a sequence begins such a one.
`encoded_of_clean` — so characters among which there is no U+FFFD are encoded by the bytes that they were read
from.  `bytes_of_clean` — and a text without U+FFFD tells these bytes.
-/

set_option autoImplicit false

namespace Casefile.Text.Utf8

/-! ## One character -/

theorem val_ofNat {v : Nat} (hv : v.isValidChar) : (Char.ofNat v).val.toNat = v := by
  have h := Char.toNat_ofNat v
  rw [if_pos hv] at h
  exact h

theorem eq_ofNat {a : UInt8} {n : Nat} (h : a.toNat = n) : UInt8.ofNat n = a := by
  rw [← h, UInt8.ofNat_toNat]

variable {a b c d : UInt8}

theorem encode_one (ha : a.toNat < 0x80) : String.utf8EncodeChar (Char.ofNat a.toNat) = [a] := by
  have hval := val_ofNat (v := a.toNat) (Or.inl (by omega))
  unfold String.utf8EncodeChar
  simp only [hval]
  rw [if_pos (by omega), UInt8.ofNat_toNat]

theorem encode_two (ha : 0xC2 ≤ a.toNat ∧ a.toNat < 0xE0) (hb : 0x80 ≤ b.toNat ∧ b.toNat ≤ 0xBF) :
    String.utf8EncodeChar (Char.ofNat ((a.toNat - 0xC0) * 64 + (b.toNat - 0x80))) = [a, b] := by
  generalize hv : (a.toNat - 0xC0) * 64 + (b.toNat - 0x80) = v
  have hval := val_ofNat (v := v) (Or.inl (by omega))
  unfold String.utf8EncodeChar
  simp only [hval]
  rw [if_neg (by omega), if_pos (by omega), eq_ofNat (a := a) (by omega), eq_ofNat (a := b) (by omega)]

theorem encode_three (ha : 0xE0 ≤ a.toNat ∧ a.toNat < 0xF0) (hb : 0x80 ≤ b.toNat ∧ b.toNat ≤ 0xBF)
    (hlong : a.toNat = 0xE0 → 0xA0 ≤ b.toNat) (hsurrogate : a.toNat = 0xED → b.toNat ≤ 0x9F)
    (hc : 0x80 ≤ c.toNat ∧ c.toNat ≤ 0xBF) :
    String.utf8EncodeChar
        (Char.ofNat (((a.toNat - 0xE0) * 64 + (b.toNat - 0x80)) * 64 + (c.toNat - 0x80))) = [a, b, c] := by
  generalize hv : ((a.toNat - 0xE0) * 64 + (b.toNat - 0x80)) * 64 + (c.toNat - 0x80) = v
  have hval : (Char.ofNat v).val.toNat = v := by
    apply val_ofNat
    unfold Nat.isValidChar
    omega
  unfold String.utf8EncodeChar
  simp only [hval]
  rw [if_neg (by omega), if_neg (by omega), if_pos (by omega), eq_ofNat (a := a) (by omega),
    eq_ofNat (a := b) (by omega), eq_ofNat (a := c) (by omega)]

theorem encode_four (ha : 0xF0 ≤ a.toNat ∧ a.toNat < 0xF5) (hb : 0x80 ≤ b.toNat ∧ b.toNat ≤ 0xBF)
    (hlong : a.toNat = 0xF0 → 0x90 ≤ b.toNat) (hlarge : a.toNat = 0xF4 → b.toNat ≤ 0x8F)
    (hc : 0x80 ≤ c.toNat ∧ c.toNat ≤ 0xBF) (hd : 0x80 ≤ d.toNat ∧ d.toNat ≤ 0xBF) :
    String.utf8EncodeChar
        (Char.ofNat ((((a.toNat - 0xF0) * 64 + (b.toNat - 0x80)) * 64 + (c.toNat - 0x80)) * 64 +
          (d.toNat - 0x80))) = [a, b, c, d] := by
  generalize hv : (((a.toNat - 0xF0) * 64 + (b.toNat - 0x80)) * 64 + (c.toNat - 0x80)) * 64 +
    (d.toNat - 0x80) = v
  have hval : (Char.ofNat v).val.toNat = v := by
    apply val_ofNat
    unfold Nat.isValidChar
    omega
  unfold String.utf8EncodeChar
  simp only [hval]
  rw [if_neg (by omega), if_neg (by omega), if_neg (by omega), eq_ofNat (a := a) (by omega),
    eq_ofNat (a := b) (by omega), eq_ofNat (a := c) (by omega), eq_ofNat (a := d) (by omega)]

/-! ## Sequences that have begun -/

theorem Pending.accepts_iff {p : Pending} : p.accepts b = true ↔ p.least ≤ b.toNat ∧ b.toNat ≤ p.greatest := by
  simp [accepts]

/-- However a sequence is continued by the `n` bytes that are to come, the character that it makes is encoded by
its bytes; those in `taken` were read before. -/
def Pending.Sound : Nat → List UInt8 → Pending → Prop
  | 0, _, _ => False
  | 1, taken, p => p.missing = 1 ∧
    ∀ b, p.accepts b = true → String.utf8EncodeChar (Char.ofNat (p.push b).value) = taken ++ [b]
  | n + 2, taken, p => p.missing = n + 2 ∧
    ∀ b, p.accepts b = true → Sound (n + 1) (taken ++ [b]) (p.push b)

/-- **A byte that begins a sequence begins a sound one.** -/
theorem sound_of_lead {p : Pending} (h : lead a = .begun p) : ∃ n, p.Sound n [a] := by
  unfold lead at h
  simp only at h
  split at h
  · simp only [reduceCtorEq] at h
  split at h
  · simp only [reduceCtorEq] at h
  split at h
  · obtain rfl := Lead.begun.inj h
    exact ⟨1, rfl, fun b hb => encode_two (by omega) (Pending.accepts_iff.1 hb)⟩
  split at h
  · obtain rfl := Lead.begun.inj h
    refine ⟨2, rfl, fun b hb => ⟨rfl, fun c hc => ?_⟩⟩
    obtain ⟨hleast, hgreatest⟩ := Pending.accepts_iff.1 hb
    simp only at hleast hgreatest
    exact encode_three (by omega) (by split at hleast <;> split at hgreatest <;> omega)
      (fun ha => by rwa [if_pos ha] at hleast) (fun ha => by rwa [if_pos ha] at hgreatest)
      (Pending.accepts_iff.1 hc)
  split at h
  · obtain rfl := Lead.begun.inj h
    refine ⟨3, rfl, fun b hb => ⟨rfl, fun c hc => ⟨rfl, fun d hd => ?_⟩⟩⟩
    obtain ⟨hleast, hgreatest⟩ := Pending.accepts_iff.1 hb
    simp only at hleast hgreatest
    exact encode_four (by omega) (by split at hleast <;> split at hgreatest <;> omega)
      (fun ha => by rwa [if_pos ha] at hleast) (fun ha => by rwa [if_pos ha] at hgreatest)
      (Pending.accepts_iff.1 hc) (Pending.accepts_iff.1 hd)
  · simp only [reduceCtorEq] at h

theorem encode_of_lead {c : Char} (h : lead a = .whole c) : String.utf8EncodeChar c = [a] := by
  unfold lead at h
  simp only at h
  split at h
  · obtain rfl := Lead.whole.inj h
    exact encode_one (by omega)
  · split at h
    · simp only [reduceCtorEq] at h
    split at h
    · simp only [reduceCtorEq] at h
    split at h
    · simp only [reduceCtorEq] at h
    split at h <;> simp only [reduceCtorEq] at h

/-! ## All characters -/

/-- **Characters among which there is no U+FFFD are encoded by the bytes that they were read from**, those of a
sequence that had begun before them included. -/
theorem encoded_of_clean :
    ∀ bs : List UInt8,
      ('\uFFFD' ∉ replaceFaults none bs → (replaceFaults none bs).flatMap String.utf8EncodeChar = bs) ∧
      ∀ (n : Nat) (taken : List UInt8) (p : Pending), p.Sound n taken → '\uFFFD' ∉ replaceFaults (some p) bs →
        (replaceFaults (some p) bs).flatMap String.utf8EncodeChar = taken ++ bs
  | [] => by
    refine ⟨fun _ => rfl, fun n taken p _ hclean => absurd ?_ hclean⟩
    simp [replaceFaults]
  | b :: bs => by
    obtain ⟨hnone, hsome⟩ := encoded_of_clean bs
    refine ⟨fun hclean => ?_, fun n taken p hsound hclean => ?_⟩
    · -- a character, or the first byte of one
      unfold replaceFaults at hclean ⊢
      cases hlead : lead b with
      | whole c =>
        simp only [hlead, List.mem_cons, not_or] at hclean ⊢
        rw [List.flatMap_cons, encode_of_lead hlead, hnone hclean.2]
        rfl
      | begun p =>
        simp only [hlead] at hclean ⊢
        obtain ⟨n, hsound⟩ := sound_of_lead hlead
        exact hsome n [b] p hsound hclean
      | stray => simp [hlead] at hclean
    · -- one more byte of a character; the last one if no more are to come
      unfold replaceFaults at hclean ⊢
      by_cases haccepts : p.accepts b = true
      · simp only [haccepts, if_true] at hclean ⊢
        match n, hsound with
        | 1, ⟨hmissing, hlast⟩ =>
          simp only [hmissing, if_true, List.mem_cons, not_or] at hclean ⊢
          rw [List.flatMap_cons, hlast b haccepts, hnone hclean.2, List.append_assoc]
          rfl
        | n + 2, ⟨hmissing, hnext⟩ =>
          have hne : p.missing ≠ 1 := by omega
          simp only [hne, if_false] at hclean ⊢
          rw [hsome (n + 1) (taken ++ [b]) (p.push b) (hnext b haccepts) hclean, List.append_assoc]
          rfl
      · simp [haccepts] at hclean

theorem bytes_ofList (l : List Char) : bytes (String.ofList l) = l.flatMap String.utf8EncodeChar := by
  unfold bytes
  rw [String.toUTF8_eq_toByteArray, String.toByteArray_ofList, List.utf8Encode, List.toList_data_toByteArray]

/-- **A text without U+FFFD tells which bytes it was read from.** -/
theorem bytes_of_clean {bs : List UInt8} (hclean : '\uFFFD' ∉ (lossy bs).toList) : bs = bytes (lossy bs) := by
  unfold lossy at hclean ⊢
  cases htext : text? bs with
  | some s => exact text?_eq_some_iff.1 htext
  | none =>
    simp only [htext, String.toList_ofList] at hclean ⊢
    rw [bytes_ofList]
    exact ((encoded_of_clean bs).1 hclean).symm

end Casefile.Text.Utf8
