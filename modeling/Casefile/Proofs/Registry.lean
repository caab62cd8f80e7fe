import Casefile.Registry
import Mathlib.Data.List.Induction
import Mathlib.Data.List.Nodup

/-!
# What a registry holds

* `Registry.attempt`, `Registry.ofAttempts` — an attempt to register a processor, which may be refused, and
  the registry after attempts one after another.
* `Registry.FirstOf` — the invariant: the registry holds the first attempt of each type and nothing else.

Principal results: `FirstOf.attempt` — an attempt keeps the invariant.  `registry_keeps_first` — after
any attempts the types are those that were attempted, without the later repetitions; only a repetition is
refused, and the processor of a type is the one that came first.
-/

set_option autoImplicit false

namespace Casefile

/-- What has been seen before is dropped behind other things. -/
theorem eraseDups_concat {α : Type} [DecidableEq α] (xs : List α) (x : α) :
    (xs ++ [x]).eraseDups = if x ∈ xs then xs.eraseDups else xs.eraseDups ++ [x] := by
  rw [List.eraseDups_append]
  split
  · rename_i h
    simp [List.removeAll, h]
  · rename_i h
    simp [List.removeAll, h, List.eraseDups_cons]

namespace Registry

variable {ρ : Type}

/-- The registry after an attempt to register a processor under a type; as it was if that is refused. -/
def attempt (r : Registry ρ) (a : String × ρ) : Registry ρ :=
  match r.register a.1 a.2 with
  | .ok r' => r'
  | .error _ => r

/-- The registry after attempts one after another. -/
def ofAttempts (attempts : List (String × ρ)) : Registry ρ :=
  attempts.foldl attempt empty

variable {r : Registry ρ} {a : String × ρ} {attempts : List (String × ρ)} {type : String}

theorem attempt_of_mem (h : a.1 ∈ r.types) : r.attempt a = r := by
  rw [attempt, register, if_pos h]

theorem attempt_of_not_mem (h : a.1 ∉ r.types) : r.attempt a = ⟨r.entries ++ [a]⟩ := by
  rw [attempt, register, if_neg h]

theorem isSome_find?_iff : (r.find? type).isSome ↔ type ∈ r.types := by
  simp only [find?, List.lookup_isSome_iff, types, List.mem_map, beq_iff_eq, @eq_comm _ type]

/-- If no type is there twice, each is found where it stands. -/
theorem find?_of_getElem? (h : r.types.Nodup) {i : Nat} (hi : r.types[i]? = some type) :
    r.find? type = r.entries[i]?.map (·.2) := by
  rw [types, List.getElem?_map] at hi
  obtain ⟨⟨_, processor⟩, hentry, rfl⟩ := Option.map_eq_some_iff.1 hi
  rw [hentry]
  obtain ⟨before, after, hsplit⟩ := List.mem_iff_append.1 (List.mem_of_getElem? hentry)
  refine List.lookup_eq_some_iff.2 ⟨before, after, hsplit, fun other hother => ?_⟩
  rw [types, hsplit, List.map_append, List.nodup_append'] at h
  have hnot : other.1 ≠ _ := fun heq =>
    h.2.2 (List.mem_map_of_mem hother) (heq ▸ List.mem_cons_self)
  simpa using hnot.symm

/-- The registry holds the first attempt of each type and nothing else. -/
structure FirstOf (attempts : List (String × ρ)) (r : Registry ρ) : Prop where
  types : r.types = (attempts.map (·.1)).eraseDups
  distinct : r.types.Nodup
  find? : ∀ type, r.find? type = attempts.lookup type

namespace FirstOf

theorem empty : FirstOf [] (.empty : Registry ρ) :=
  ⟨rfl, List.nodup_nil, fun _ => rfl⟩

theorem mem_types (h : FirstOf attempts r) : type ∈ r.types ↔ type ∈ attempts.map (·.1) := by
  rw [h.types, List.mem_eraseDups]

/-- **An attempt keeps the invariant.** -/
theorem attempt (h : FirstOf attempts r) (a : String × ρ) :
    FirstOf (attempts ++ [a]) (r.attempt a) := by
  have htypes : ((attempts ++ [a]).map (·.1)).eraseDups =
      if a.1 ∈ r.types then r.types else r.types ++ [a.1] := by
    rw [List.map_append, List.map_singleton, eraseDups_concat, ← h.types]
    simp only [h.mem_types]
  have hlookup : ∀ type, (attempts ++ [a]).lookup type = (r.find? type).or ([a].lookup type) := by
    intro type
    rw [List.lookup_append, h.find?]
  by_cases hmem : a.1 ∈ r.types
  · rw [attempt_of_mem hmem]
    refine ⟨by rw [htypes, if_pos hmem], h.distinct, fun type => ?_⟩
    rw [hlookup]
    by_cases htype : type = a.1
    · obtain ⟨first, hfirst⟩ := Option.isSome_iff_exists.1 (isSome_find?_iff.2 (htype ▸ hmem))
      rw [hfirst, Option.some_or]
    · have hnone : [a].lookup type = none := by simp [htype]
      rw [hnone, Option.or_none]
  · rw [attempt_of_not_mem hmem]
    refine ⟨?_, ?_, fun type => ?_⟩
    · rw [htypes, if_neg hmem, Registry.types, List.map_append]
      rfl
    · rw [Registry.types, List.map_append]
      exact List.concat_eq_append ▸ h.distinct.concat hmem
    · rw [hlookup, Registry.find?, List.lookup_append]
      rfl

/-- **After attempts one after another the registry holds the first of each type.** -/
theorem after_attempts (attempts : List (String × ρ)) : FirstOf attempts (.ofAttempts attempts) := by
  induction attempts using List.reverseRecOn with
  | nil => exact .empty
  | append_singleton attempts a ih =>
    rw [Registry.ofAttempts, List.foldl_concat]
    exact ih.attempt a

end FirstOf

/-- **A registry keeps what was registered first**: after any attempts its types are those that were
attempted, without the later repetitions.  One more attempt is refused exactly if its type was attempted
before, and then changes nothing.  The processor found for a type is that of the first attempt, and it
stands where the type stands; none is found for a type that was not attempted. -/
theorem registry_keeps_first (attempts : List (String × ρ)) :
    let r : Registry ρ := ofAttempts attempts
    let attempted := attempts.map (·.1)
    r.types = attempted.eraseDups ∧
      (∀ type processor, type ∈ attempted →
        r.register type processor =
            .error (.conflict ("Data source processor already registered: " ++ type)) ∧
          ofAttempts (attempts ++ [(type, processor)]) = r) ∧
      (∀ type processor, type ∉ attempted →
        r.register type processor = .ok (ofAttempts (attempts ++ [(type, processor)]))) ∧
      (∀ type, r.find? type = attempts.lookup type) ∧
      (∀ type, r.find? type = none ↔ type ∉ attempted) ∧
      ∀ (i : Nat) type, r.types[i]? = some type → r.find? type = r.entries[i]?.map (·.2) := by
  intro r attempted
  have h : FirstOf attempts r := .after_attempts attempts
  have hmore : ∀ a, ofAttempts (attempts ++ [a]) = r.attempt a := fun a => List.foldl_concat ..
  refine ⟨h.types, fun type processor hmem => ?_, fun type processor hmem => ?_, h.find?,
    fun type => ?_, fun i type hi => find?_of_getElem? h.distinct hi⟩
  · have hmem' : type ∈ r.types := h.mem_types.2 hmem
    exact ⟨if_pos hmem', (hmore _).trans (attempt_of_mem hmem')⟩
  · have hmem' : type ∉ r.types := mt h.mem_types.1 hmem
    rw [hmore, attempt_of_not_mem hmem']
    exact if_neg hmem'
  · rw [← h.mem_types, ← isSome_find?_iff, Option.not_isSome_iff_eq_none]

/-- Two types, the first attempted again by another processor before the second and after it. -/
def repeatedAttempts : List (String × Nat) :=
  [("Logical Files", 1), ("Logical Files", 2), ("Disk Image", 3), ("Logical Files", 4)]

theorem registry_keeps_first_repeated :
    let r := ofAttempts repeatedAttempts
    r.types = ["Logical Files", "Disk Image"] ∧ r.find? "Logical Files" = some 1 ∧
      r.find? "Disk Image" = some 3 ∧ ofAttempts (repeatedAttempts ++ [("Disk Image", 5)]) = r ∧
      (r.register "disk image" 6).toOption.map (·.types) =
        some ["Logical Files", "Disk Image", "disk image"] := by
  intro r
  obtain ⟨htypes, hrefused, hdone, hfirst, _, hplace⟩ := registry_keeps_first repeatedAttempts
  have htypes' : r.types = ["Logical Files", "Disk Image"] := htypes.trans (by decide)
  refine ⟨htypes', hfirst "Logical Files", (hplace 1 "Disk Image" (by rw [htypes']; rfl)).trans rfl,
    (hrefused "Disk Image" 5 (by decide)).2, ?_⟩
  rw [hdone "disk image" 6 (by decide)]
  decide

end Registry

end Casefile
