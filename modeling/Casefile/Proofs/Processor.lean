import Casefile.Proofs.Panel
import Casefile.Workbench
import Mathlib

/-!
# The configuration of a processor

* `DeviceIds.Valid` — every draw out of a supply gives an id that is one, as those of `numbered` do.
* `Processor.SettledSince` — the configuration, if there is one, was settled after some draws.
* `Processor.Turn` — what a call can do to a processor: keep its configuration, or settle it anew.

Principal results: `configure_eq`, `configForRun_eq` — when a configuration is settled, and which.
`Turn.settledSince` — what was settled after some draws stays so, or is settled after more.
-/

set_option autoImplicit false

namespace Casefile

/-- Every draw gives an id that is one. -/
def DeviceIds.Valid (ids : DeviceIds) : Prop :=
  ∀ n, DeviceId.ofString (ids n) = .ok ⟨ids n⟩

theorem DeviceId.isAdmissible_of_isDigit {c : Char} (h : c.isDigit = true) : isAdmissible c = true := by
  have hdigit : 48 ≤ c.toNat ∧ c.toNat ≤ 57 := by
    simp only [Char.isDigit, ge_iff_le, Bool.and_eq_true, decide_eq_true_eq, UInt32.le_iff_toNat_le] at h
    exact h
  simp only [isAdmissible, Bool.and_eq_true, decide_eq_true_eq]
  omega

/-- Numbered ids are ids. -/
theorem DeviceIds.numbered_valid : numbered.Valid := by
  intro n
  have htext : (numbered n).toList = "device-".toList ++ Nat.toDigits 10 (n + 1) := by
    show ("device-" ++ (n + 1).repr).toList = _
    simp [Nat.repr]
  unfold DeviceId.ofString
  refine if_pos ⟨by simp [htext], ?_⟩
  rw [htext, List.all_append, Bool.and_eq_true]
  refine ⟨by decide, List.all_eq_true.2 fun c hc => ?_⟩
  exact DeviceId.isAdmissible_of_isDigit (Nat.isDigit_of_mem_toDigits (by decide) (by decide) hc)

/-- No number is drawn twice. -/
theorem DeviceIds.numbered_injective : Function.Injective numbered := by
  intro m n h
  have hnumber : (m + 1).repr = (n + 1).repr := (String.append_right_inj "device-").1 h
  exact Nat.succ.inj (Nat.repr_inj.1 hnumber)

namespace Processor

variable {ids : DeviceIds} {p p' : Processor}

/-! ## Settling a configuration -/

/-- The processor with a configuration under the id that is drawn next. -/
def settle (config : SourceConfig) (p : Processor) : Processor :=
  { p with configured? := some config, drawn := p.drawn + 1 }

/-- **A configuration is settled under a new id**, unless there are no paths; the id is drawn all the same. -/
theorem configure_eq {device : DeviceId} (hdevice : DeviceId.ofString (ids p.drawn) = .ok device)
    (rootName : String) (paths : List Path) :
    p.configure ids rootName paths =
      if paths = [] then (.error (.domain .noPaths), { p with drawn := p.drawn + 1 })
      else (.ok ⟨device, rootName, paths⟩, p.settle ⟨device, rootName, paths⟩) := by
  unfold configure newDevice SourceConfig.create
  rw [hdevice]
  by_cases hpaths : paths = []
  · simp [hpaths]
  · simp [hpaths, settle]

/-- **A run goes by what has been settled**, and otherwise settles what the panel asks for. -/
theorem configForRun_eq {device : DeviceId} (hdevice : DeviceId.ofString (ids p.drawn) = .ok device) :
    p.configForRun ids =
      match p.configured? with
      | some config => (.ok config, p)
      | none =>
        if p.panel.paths = [] then (.error (.validation "Local files panel has no paths"), p)
        else (.ok ⟨device, p.panel.fileSetName, p.panel.paths⟩,
          p.settle ⟨device, p.panel.fileSetName, p.panel.paths⟩) := by
  unfold configForRun
  cases p.configured? with
  | some config => rfl
  | none =>
    by_cases hpaths : p.panel.paths = []
    · simp [Panel.isValid, hpaths]
    · simp [Panel.isValid, hpaths, configure_eq hdevice]

/-! ## What a call can do -/

/-- If there is a configuration, it was settled under an id that was drawn after the first `m`. -/
structure SettledSince (ids : DeviceIds) (m : Nat) (p : Processor) : Prop where
  drawn : m ≤ p.drawn
  device : ∀ config, p.configured? = some config →
    ∃ k, m ≤ k ∧ k < p.drawn ∧ config.device = ⟨ids k⟩

theorem settledSince_start (ids : DeviceIds) : SettledSince ids 0 start :=
  ⟨Nat.le_refl 0, fun _ h => nomatch h⟩

theorem SettledSince.of_le {m m' : Nat} (h : SettledSince ids m' p) (hle : m ≤ m') : SettledSince ids m p :=
  ⟨hle.trans h.drawn, fun config hconfig =>
    let ⟨k, hk, hlt, hdevice⟩ := h.device config hconfig
    ⟨k, hle.trans hk, hlt, hdevice⟩⟩

/-- What a call can do to a processor: keep its configuration, or see to it that there is none but one under an
id drawn by this call or later. -/
inductive Turn (ids : DeviceIds) (p p' : Processor) : Prop
  | keeps (latch : p'.configured? = p.configured?) (drawn : p.drawn ≤ p'.drawn)
  | renews (settled : SettledSince ids p.drawn p')

theorem Turn.drawn_le (h : Turn ids p p') : p.drawn ≤ p'.drawn := by
  cases h with
  | keeps latch drawn => exact drawn
  | renews settled => exact settled.drawn

/-- **What was settled after some draws stays so**, whatever the call. -/
theorem Turn.settledSince (h : Turn ids p p') {m : Nat} (hp : SettledSince ids m p) :
    SettledSince ids m p' := by
  cases h with
  | keeps latch drawn =>
    refine ⟨hp.drawn.trans drawn, fun config hconfig => ?_⟩
    obtain ⟨k, hle, hlt, hdevice⟩ := hp.device config (latch ▸ hconfig)
    exact ⟨k, hle, Nat.lt_of_lt_of_le hlt drawn, hdevice⟩
  | renews settled => exact settled.of_le hp.drawn

theorem settledSince_settle {config : SourceConfig} (p : Processor) (h : config.device = ⟨ids p.drawn⟩) :
    SettledSince ids p.drawn (p.settle config) := by
  refine ⟨Nat.le_succ _, fun config' hconfig => ⟨p.drawn, Nat.le_refl _, Nat.lt_succ_self _, ?_⟩⟩
  rw [← Option.some.inj hconfig]
  exact h

/-- A processor that is reset has no configuration. -/
theorem settledSince_reset (ids : DeviceIds) (p : Processor) : SettledSince ids p.drawn p.reset :=
  ⟨Nat.le_refl _, fun _ h => nomatch h⟩

end Processor

end Casefile
