/-
Module: EnvLayers.Lookup
Purpose: Association lists: what is found under a key stands in the list, and where no key repeats
  everything that stands in the list is found.
Main exports: mem_of_lookup, lookup_eq_some_iff_mem
-/

namespace EnvLayers

variable {α β : Type} [BEq α] [LawfulBEq α] {entries : List (α × β)} {key : α} {value : β}

theorem mem_of_lookup (h : entries.lookup key = some value) : (key, value) ∈ entries := by
  obtain ⟨before, after, rfl, _⟩ := List.lookup_eq_some_iff.mp h
  simp

/-- Under keys that are distinct, what stands in the list is what is found. -/
theorem lookup_eq_some_iff_mem (h : (entries.map (·.1)).Nodup) :
    entries.lookup key = some value ↔ (key, value) ∈ entries := by
  constructor
  · exact mem_of_lookup
  · intro hmem
    obtain ⟨before, after, rfl⟩ := List.append_of_mem hmem
    apply List.lookup_eq_some_iff.mpr
    refine ⟨before, after, rfl, fun entry hentry => bne_iff_ne.mpr fun hsame => ?_⟩
    rw [List.map_append, List.map_cons, List.nodup_append] at h
    exact h.2.2 _ (List.mem_map_of_mem hentry) _ List.mem_cons_self hsame.symm

end EnvLayers
