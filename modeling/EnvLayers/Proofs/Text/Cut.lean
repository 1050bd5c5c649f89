import EnvLayers.Text.Blank
import EnvLayers.Text.Cut
import Mathlib.Data.List.Basic
import Mathlib.Data.List.TakeWhile

/-
Module: EnvLayers.Proofs.Text.Cut
Purpose: Where a text is cut, and what trimming and cutting leave of it.
Main exports: Text.pieces_append, Text.length_pieces, Text.pieces_of_not_mem,
  Text.pieces_intercalate, Text.not_loose_of_pieces, Text.cutFirst_eq_some,
  Text.cutFirst_of_not_mem, Text.cutLast_eq_some, Text.cutLast_of_not_mem,
  Text.cutLast_eq_none_iff, Text.dropFinal_eq_some, Text.mem_of_mem_trim, Text.NoBlankStart,
  Text.NoBlankEnd, Text.trim_eq_self, Text.noBlankStart_trim, Text.noBlankEnd_trim
-/

namespace EnvLayers.Text

variable {sep c : Char} {cs before after : List Char}

theorem pieces_ne_nil (sep : Char) (cs : List Char) : pieces sep cs ≠ [] := by
  cases cs with
  | nil =>
      exact List.cons_ne_nil _ _
  | cons c cs =>
      unfold pieces
      split
      · exact List.cons_ne_nil _ _
      · split <;> exact List.cons_ne_nil _ _

/-- A text that is cut at one place is cut on either side of it. -/
theorem pieces_append (sep : Char) (before after : List Char) :
    pieces sep (before ++ sep :: after) = pieces sep before ++ pieces sep after := by
  induction before with
  | nil =>
      simp [pieces]
  | cons c cs ih =>
      by_cases hc : c = sep
      · simp [pieces, hc, ih]
      · obtain ⟨first, rest, hpieces⟩ := List.exists_cons_of_ne_nil (pieces_ne_nil sep cs)
        simp [pieces, hc, ih, hpieces]

/-- There is one part more than there are places to cut at. -/
theorem length_pieces (sep : Char) (cs : List Char) :
    (pieces sep cs).length = cs.count sep + 1 := by
  induction cs with
  | nil =>
      rfl
  | cons c cs ih =>
      by_cases hc : c = sep
      · simp [pieces, hc, ih]
      · obtain ⟨first, rest, hpieces⟩ := List.exists_cons_of_ne_nil (pieces_ne_nil sep cs)
        rw [hpieces] at ih
        simp [pieces, hc, hpieces, List.count_cons_of_ne hc, ← ih]

theorem pieces_of_not_mem (h : sep ∉ cs) : pieces sep cs = [cs] := by
  induction cs with
  | nil =>
      rfl
  | cons c cs ih =>
      have hc : c ≠ sep := fun heq => h (heq ▸ List.mem_cons_self)
      simp [pieces, hc, ih fun hmem => h (List.mem_cons_of_mem c hmem)]

/-- Cutting at a character undoes joining by it, where no part holds the character. -/
theorem pieces_intercalate {parts : List (List Char)} (hparts : parts ≠ [])
    (h : ∀ part ∈ parts, sep ∉ part) : pieces sep ([sep].intercalate parts) = parts := by
  induction parts with
  | nil =>
      exact absurd rfl hparts
  | cons part rest ih =>
      obtain ⟨hpart, hrest⟩ := List.forall_mem_cons.mp h
      cases rest with
      | nil =>
          rw [List.intercalate_singleton, pieces_of_not_mem hpart]
      | cons second rest =>
          rw [List.intercalate_cons_cons, List.append_assoc, List.singleton_append, pieces_append,
            pieces_of_not_mem hpart, ih (List.cons_ne_nil _ _) hrest, List.singleton_append]

/-- A text whose parts are not empty is cut neither at its ends nor twice at one place. -/
theorem not_loose_of_pieces (h : [] ∉ pieces sep cs) :
    cs.head? ≠ some sep ∧ cs.getLast? ≠ some sep ∧ ¬ [sep, sep] <:+: cs := by
  have hcut : ∀ before after, cs = before ++ sep :: after →
      [] ∉ pieces sep before ∧ [] ∉ pieces sep after := by
    rintro before after rfl
    rwa [pieces_append, List.mem_append, not_or] at h
  refine ⟨fun hhead => ?_, fun hlast => ?_, ?_⟩
  · obtain ⟨rest, hcs⟩ := List.head?_eq_some_iff.mp hhead
    exact (hcut [] rest hcs).1 List.mem_cons_self
  · obtain ⟨before, hcs⟩ := List.getLast?_eq_some_iff.mp hlast
    exact (hcut before [] hcs).2 List.mem_cons_self
  · rintro ⟨before, after, hcs⟩
    refine (hcut before (sep :: after) (by simp [← hcs])).2 ?_
    simp [pieces]

theorem cutFirst_eq_some (h : cutFirst sep cs = some (before, after)) :
    cs = before ++ sep :: after ∧ sep ∉ before := by
  induction cs generalizing before with
  | nil =>
      cases h
  | cons d cs ih =>
      unfold cutFirst at h
      by_cases hd : d = sep
      · rw [if_pos hd, Option.some.injEq, Prod.mk.injEq] at h
        obtain ⟨rfl, rfl⟩ := h
        simp [hd]
      · rw [if_neg hd, Option.map_eq_some_iff] at h
        obtain ⟨⟨start, rest⟩, hcut, hsplit⟩ := h
        cases hsplit
        obtain ⟨rfl, hsep⟩ := ih hcut
        simp [hsep, Ne.symm hd]

theorem cutFirst_of_not_mem (h : sep ∉ before) (after : List Char) :
    cutFirst sep (before ++ sep :: after) = some (before, after) := by
  induction before with
  | nil =>
      simp [cutFirst]
  | cons c cs ih =>
      have hne : c ≠ sep := fun heq => h (heq ▸ List.mem_cons_self)
      rw [List.cons_append, cutFirst, if_neg hne, ih fun hmem => h (List.mem_cons_of_mem _ hmem)]
      rfl

theorem cutLast_eq_none_iff : cutLast sep cs = none ↔ sep ∉ cs := by
  induction cs with
  | nil =>
      simp [cutLast]
  | cons d cs ih =>
      unfold cutLast
      cases hcut : cutLast sep cs with
      | some parts =>
          have hmem : sep ∈ cs := by
            by_contra hsep
            rw [ih.mpr hsep] at hcut
            cases hcut
          simp [hmem]
      | none =>
          have hsep := ih.mp hcut
          by_cases hd : d = sep
          · simp [hd]
          · simp [hd, Ne.symm hd, hsep]

theorem cutLast_eq_some (h : cutLast sep cs = some (before, after)) :
    cs = before ++ sep :: after ∧ sep ∉ after := by
  induction cs generalizing before with
  | nil =>
      cases h
  | cons d cs ih =>
      unfold cutLast at h
      cases hcut : cutLast sep cs with
      | some parts =>
          rw [hcut] at h
          cases h
          obtain ⟨hcs, hsep⟩ := ih hcut
          exact ⟨congrArg (d :: ·) hcs, hsep⟩
      | none =>
          rw [hcut] at h
          by_cases hd : d = sep
          · rw [if_pos hd] at h
            cases h
            exact ⟨by rw [hd]; rfl, cutLast_eq_none_iff.mp hcut⟩
          · rw [if_neg hd] at h
            cases h

theorem cutLast_of_not_mem (h : sep ∉ after) (before : List Char) :
    cutLast sep (before ++ sep :: after) = some (before, after) := by
  induction before with
  | nil =>
      simp [cutLast, cutLast_eq_none_iff.mpr h]
  | cons c cs ih =>
      rw [List.cons_append, cutLast, ih]

theorem dropFinal_append (c : Char) (before : List Char) :
    dropFinal c (before ++ [c]) = some before := by
  simp [dropFinal]

theorem dropFinal_eq_some (h : dropFinal c cs = some before) : cs = before ++ [c] := by
  unfold dropFinal at h
  split at h
  · next hlast =>
      cases h
      exact (List.dropLast_append_getLast? c hlast).symm
  · cases h

theorem mem_of_mem_trim (h : c ∈ trim cs) : c ∈ cs := by
  have hstart : c ∈ trimStart cs :=
    List.mem_reverse.mp ((List.dropWhile_suffix _).subset (List.mem_reverse.mp h))
  exact (List.dropWhile_suffix _).subset hstart

/-! ### Blanks at the ends -/

/-- The text does not begin with a blank. -/
def NoBlankStart (cs : List Char) : Prop := ∀ c ∈ cs.head?, isBlank c = false

/-- The text does not end with a blank. -/
def NoBlankEnd (cs : List Char) : Prop := ∀ c ∈ cs.getLast?, isBlank c = false

theorem noBlankStart_of_forall (h : ∀ c ∈ cs, isBlank c = false) : NoBlankStart cs :=
  fun c hc => h c (List.mem_of_mem_head? hc)

theorem noBlankEnd_of_forall (h : ∀ c ∈ cs, isBlank c = false) : NoBlankEnd cs :=
  fun c hc => h c (List.mem_of_mem_getLast? hc)

theorem NoBlankEnd.append (hbefore : NoBlankEnd before) (hafter : NoBlankEnd after) :
    NoBlankEnd (before ++ after) := by
  intro c hc
  rw [Option.mem_def, List.getLast?_append, Option.or_eq_some_iff] at hc
  rcases hc with hc | ⟨-, hc⟩
  · exact hafter c hc
  · exact hbefore c hc

theorem noBlankStart_reverse : NoBlankStart cs.reverse ↔ NoBlankEnd cs := by
  rw [NoBlankStart, List.head?_reverse, NoBlankEnd]

/-- Trimming at the end is trimming at the start, read backwards. -/
theorem trimEnd_eq_reverse (cs : List Char) : trimEnd cs = (trimStart cs.reverse).reverse := rfl

theorem trimStart_eq_self (h : NoBlankStart cs) : trimStart cs = cs := by
  cases cs with
  | nil =>
      rfl
  | cons c cs =>
      exact List.dropWhile_cons_of_neg (by simp [h c rfl])

theorem trimEnd_eq_self (h : NoBlankEnd cs) : trimEnd cs = cs := by
  rw [trimEnd_eq_reverse, trimStart_eq_self (noBlankStart_reverse.mpr h), List.reverse_reverse]

/-- A text without blanks at its ends is left as it is. -/
theorem trim_eq_self (hstart : NoBlankStart cs) (hend : NoBlankEnd cs) : trim cs = cs := by
  rw [trim, trimStart_eq_self hstart, trimEnd_eq_self hend]

theorem trim_of_no_blank (h : ∀ c ∈ cs, isBlank c = false) : trim cs = cs :=
  trim_eq_self (noBlankStart_of_forall h) (noBlankEnd_of_forall h)

theorem noBlankStart_trimStart (cs : List Char) : NoBlankStart (trimStart cs) := by
  intro c hc
  have hhead := List.head?_dropWhile_not isBlank cs
  rw [trimStart, Option.mem_def] at hc
  rw [hc] at hhead
  exact hhead

theorem noBlankEnd_trim (cs : List Char) : NoBlankEnd (trim cs) := by
  rw [trim, trimEnd_eq_reverse, ← noBlankStart_reverse, List.reverse_reverse]
  exact noBlankStart_trimStart _

theorem noBlankStart_trim (cs : List Char) : NoBlankStart (trim cs) := by
  intro c hc
  have hkept : trim cs <+: trimStart cs := by
    rw [trim, trimEnd_eq_reverse, ← List.reverse_suffix, List.reverse_reverse]
    exact List.dropWhile_suffix _
  obtain ⟨rest, hrest⟩ := hkept
  refine noBlankStart_trimStart cs c ?_
  rw [← hrest, Option.mem_def, List.head?_append, Option.mem_def.mp hc, Option.some_or]

theorem trim_cons_blank (h : isBlank c = true) (cs : List Char) : trim (c :: cs) = trim cs := by
  rw [trim, trimStart, List.dropWhile_cons_of_pos h, trim, trimStart]

theorem trim_append_blank (h : isBlank c = true) (cs : List Char) :
    trim (cs ++ [c]) = trim cs := by
  have hlast : ∀ ds, trimEnd (ds ++ [c]) = trimEnd ds := fun ds => by
    simp [trimEnd, h]
  rw [trim, trim, trimStart, trimStart, List.dropWhile_append]
  split
  · next hblank =>
      rw [List.isEmpty_iff.mp hblank, List.dropWhile_cons_of_pos h]
      rfl
  · exact hlast _

theorem exists_trimEnd (cs : List Char) :
    ∃ blanks, cs = trimEnd cs ++ blanks ∧ ∀ c ∈ blanks, isBlank c = true := by
  refine ⟨(cs.reverse.takeWhile isBlank).reverse, ?_, ?_⟩
  · rw [trimEnd, ← List.reverse_append, List.takeWhile_append_dropWhile, List.reverse_reverse]
  · intro c hc
    exact List.mem_takeWhile_imp (List.mem_reverse.mp hc)

theorem trimEnd_append_blanks (cs : List Char) {blanks : List Char}
    (h : ∀ c ∈ blanks, isBlank c = true) : trimEnd (cs ++ blanks) = trimEnd cs := by
  have hblanks : ∀ c ∈ blanks.reverse, isBlank c = true := fun c hc => h c (List.mem_reverse.mp hc)
  rw [trimEnd, List.reverse_append, List.dropWhile_append_of_pos hblanks, trimEnd]

/-- Trimming leaves a text that stands between blanks. -/
theorem exists_trim (cs : List Char) : ∃ before after, cs = before ++ trim cs ++ after
    ∧ (∀ c ∈ before, isBlank c = true) ∧ ∀ c ∈ after, isBlank c = true := by
  obtain ⟨after, hafter, hblank⟩ := exists_trimEnd (trimStart cs)
  refine ⟨cs.takeWhile isBlank, after, ?_, fun _ => List.mem_takeWhile_imp, hblank⟩
  rw [List.append_assoc, trim, ← hafter, trimStart, List.takeWhile_append_dropWhile]

/-- Blanks around a text that has none at its ends are what trimming takes away. -/
theorem trim_append_of_blanks (hstart : NoBlankStart cs) (hend : NoBlankEnd cs) (hne : cs ≠ [])
    (hbefore : ∀ c ∈ before, isBlank c = true) (hafter : ∀ c ∈ after, isBlank c = true) :
    trim (before ++ cs ++ after) = cs := by
  obtain ⟨c, rest, rfl⟩ := List.exists_cons_of_ne_nil hne
  have hfirst : isBlank c = false := hstart c rfl
  rw [trim, trimStart, List.append_assoc, List.dropWhile_append_of_pos hbefore, List.cons_append,
    List.dropWhile_cons_of_neg (by simp [hfirst]), ← List.cons_append,
    trimEnd_append_blanks _ hafter, trimEnd_eq_self hend]

theorem trim_of_blanks (h : ∀ c ∈ cs, isBlank c = true) : trim cs = [] := by
  have hstart : trimStart cs = [] := List.dropWhile_eq_nil_iff.mpr h
  rw [trim, hstart]
  rfl

/-- What trimming takes away are blanks. -/
theorem mem_trim_or_isBlank (h : c ∈ cs) : c ∈ trim cs ∨ isBlank c = true := by
  have hstart : c ∈ trimStart cs ∨ isBlank c = true := by
    rw [← List.takeWhile_append_dropWhile (l := cs) (p := isBlank), List.mem_append] at h
    exact h.symm.imp_right List.mem_takeWhile_imp
  rcases hstart with hmem | hblank
  · obtain ⟨blanks, hcs, hblanks⟩ := exists_trimEnd (trimStart cs)
    rw [hcs, List.mem_append] at hmem
    exact hmem.imp_right (hblanks c)
  · exact .inr hblank

end EnvLayers.Text
