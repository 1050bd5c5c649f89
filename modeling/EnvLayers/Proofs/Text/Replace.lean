import EnvLayers.Proofs.Text.Cut
import Mathlib.Data.List.Infix

/-
Module: EnvLayers.Proofs.Text.Replace
Purpose: Replacing a text wherever it occurs, against cutting and trimming. An occurrence does not
  run over a character that the replaced text does not go on with, so a text can be cut there before
  or after it is replaced.
Main exports: Text.occurrence_induction, Text.replaceAll_append_cons, Text.replaceAll_separated,
  Text.replaceAll_occurrence, Text.replaceAll_eq_self, Text.getLast?_replaceAll,
  Text.pieces_replaceAll, Text.trim_replaceAll, Text.dropPrefix_replaceAll
-/

namespace EnvLayers.Text

variable {old new cs before after rest : List Char} {c sep : Char}

/-! ### Occurrence by occurrence -/

@[simp] theorem replaceAll_nil : replaceAll old new [] = [] := rfl

theorem replaceFrom_eq_replaceAll (skip : Nat) (cs : List Char) :
    replaceFrom old new skip cs = replaceAll old new (cs.drop skip) := by
  induction cs generalizing skip with
  | nil =>
      cases skip <;> rfl
  | cons c cs ih =>
      cases skip with
      | zero =>
          rfl
      | succ skip =>
          exact ih skip

/-- An occurrence at the start is replaced. -/
theorem replaceAll_append_old (hne : old ≠ []) (rest : List Char) :
    replaceAll old new (old ++ rest) = new ++ replaceAll old new rest := by
  obtain ⟨c, tail, rfl⟩ := List.exists_cons_of_ne_nil hne
  have hstart : (c :: tail).isPrefixOf (c :: (tail ++ rest)) = true := by
    simp [List.isPrefixOf_iff_prefix]
  rw [List.cons_append, replaceAll, replaceFrom, if_pos hstart, replaceFrom_eq_replaceAll]
  simp

/-- A character that no occurrence starts at stays. -/
theorem replaceAll_cons (h : ¬ old <+: c :: cs) :
    replaceAll old new (c :: cs) = c :: replaceAll old new cs := by
  rw [replaceAll, replaceFrom, if_neg (mt List.isPrefixOf_iff_prefix.mp h), replaceAll]

/-- A text is empty, or it starts with an occurrence, or with a character that no occurrence starts
at. -/
@[elab_as_elim]
theorem occurrence_induction {motive : List Char → Prop} (hne : old ≠ []) (nil : motive [])
    (occurrence : ∀ rest, motive rest → motive (old ++ rest))
    (char : ∀ c rest, ¬ old <+: c :: rest → motive rest → motive (c :: rest)) (cs : List Char) :
    motive cs := by
  induction hn : cs.length using Nat.strongRecOn generalizing cs with
  | ind n ih =>
      by_cases hstart : old <+: cs
      · obtain ⟨rest, rfl⟩ := hstart
        apply occurrence
        apply ih rest.length _ rest rfl
        have hpos := List.length_pos_iff.mpr hne
        simp only [List.length_append] at hn
        omega
      · cases cs with
        | nil =>
            exact nil
        | cons c rest =>
            apply char c rest hstart
            apply ih rest.length _ rest rfl
            simp only [List.length_cons] at hn
            omega

/-- No occurrence runs over a character that the replaced text does not go on with. -/
theorem replaceAll_append_cons (hne : old ≠ []) (h : c ∉ old.tail) (before after : List Char) :
    replaceAll old new (before ++ c :: after)
      = replaceAll old new before ++ replaceAll old new (c :: after) := by
  induction before using occurrence_induction hne with
  | nil =>
      rfl
  | occurrence rest ih =>
      rw [List.append_assoc, replaceAll_append_old hne, replaceAll_append_old hne, ih,
        List.append_assoc]
  | char d rest hstart ih =>
      have hlonger : ¬ old <+: d :: (rest ++ c :: after) := by
        intro hlong
        rcases Nat.lt_or_ge (d :: rest).length old.length with hlt | hle
        · have hover : (d :: rest) ++ [c] <+: old := by
            apply List.prefix_of_prefix_length_le _ hlong
            · rw [List.length_append]
              exact hlt
            · exact ⟨after, by simp⟩
          obtain ⟨more, rfl⟩ := hover
          simp at h
        · apply hstart
          exact List.prefix_of_prefix_length_le hlong ⟨c :: after, rfl⟩ hle
      rw [List.cons_append, replaceAll_cons hlonger, replaceAll_cons hstart, ih, List.cons_append]

/-- A character that the replaced text does not hold separates what is replaced. -/
theorem replaceAll_separated (hne : old ≠ []) (h : sep ∉ old) (before after : List Char) :
    replaceAll old new (before ++ sep :: after)
      = replaceAll old new before ++ sep :: replaceAll old new after := by
  have hstart : ¬ old <+: sep :: after := by
    rintro ⟨rest, hrest⟩
    obtain ⟨c, tail, rfl⟩ := List.exists_cons_of_ne_nil hne
    cases hrest
    exact h List.mem_cons_self
  rw [replaceAll_append_cons hne (mt List.mem_of_mem_tail h), replaceAll_cons hstart]

/-- Where the replaced text starts with a character that it does not go on with, each occurrence is
replaced. -/
theorem replaceAll_occurrence {tail : List Char} (h : c ∉ tail) (before rest : List Char) :
    replaceAll (c :: tail) new (before ++ (c :: tail) ++ rest)
      = replaceAll (c :: tail) new before ++ new ++ replaceAll (c :: tail) new rest := by
  have hne : c :: tail ≠ [] := List.cons_ne_nil _ _
  have hcut := @replaceAll_append_cons _ new c hne h before (tail ++ rest)
  rw [List.append_assoc, List.cons_append, hcut, ← List.cons_append, replaceAll_append_old hne,
    List.append_assoc]

/-- A text without an occurrence stays. -/
theorem replaceAll_eq_self (hne : old ≠ []) (h : ¬ old <:+: cs) : replaceAll old new cs = cs := by
  induction cs using occurrence_induction hne with
  | nil =>
      rfl
  | occurrence rest _ =>
      exact absurd (List.prefix_append old rest).isInfix h
  | char c rest hstart ih =>
      have hrest : ¬ old <:+: rest := fun hinside =>
        h (hinside.trans (List.suffix_cons c rest).isInfix)
      rw [replaceAll_cons hstart, ih hrest]

theorem mem_replaceAll (hne : old ≠ []) (h : c ∈ replaceAll old new cs) : c ∈ cs ∨ c ∈ new := by
  induction cs using occurrence_induction hne with
  | nil =>
      cases h
  | occurrence rest ih =>
      rw [replaceAll_append_old hne, List.mem_append] at h
      rcases h with hnew | hrest
      · exact .inr hnew
      · exact (ih hrest).imp_left (List.mem_append_right old)
  | char d rest hstart ih =>
      rw [replaceAll_cons hstart, List.mem_cons] at h
      rcases h with rfl | hrest
      · exact .inl List.mem_cons_self
      · exact (ih hrest).imp_left (List.mem_cons_of_mem d)

theorem replaceAll_eq_nil_iff (hne : old ≠ []) (hnew : new ≠ []) :
    replaceAll old new cs = [] ↔ cs = [] := by
  induction cs using occurrence_induction hne with
  | nil =>
      simp
  | occurrence rest _ =>
      simp [replaceAll_append_old hne, hne, hnew]
  | char c rest hstart _ =>
      simp [replaceAll_cons hstart]

/-- The last character is the one that the text had, or that of the last occurrence's
replacement. -/
theorem getLast?_replaceAll (hne : old ≠ []) (hnew : new ≠ [])
    (h : c ∈ (replaceAll old new cs).getLast?) :
    c ∈ cs.getLast? ∨ old <:+ cs ∧ c ∈ new.getLast? := by
  induction cs using occurrence_induction hne with
  | nil =>
      cases h
  | occurrence rest ih =>
      rw [replaceAll_append_old hne] at h
      by_cases hrest : rest = []
      · subst hrest
        rw [replaceAll_nil, List.append_nil] at h
        rw [List.append_nil]
        exact .inr ⟨List.suffix_rfl, h⟩
      · have hmore : replaceAll old new rest ≠ [] := mt (replaceAll_eq_nil_iff hne hnew).mp hrest
        rw [List.getLast?_append_of_ne_nil _ hmore] at h
        rw [List.getLast?_append_of_ne_nil _ hrest]
        exact (ih h).imp_right (And.imp_left List.suffix_append_of_suffix)
  | char d rest hstart ih =>
      rw [replaceAll_cons hstart] at h
      by_cases hrest : rest = []
      · subst hrest
        exact .inl h
      · have hmore : replaceAll old new rest ≠ [] := mt (replaceAll_eq_nil_iff hne hnew).mp hrest
        rw [List.getLast?_cons_of_ne_nil hmore] at h
        rw [List.getLast?_cons_of_ne_nil hrest]
        exact (ih h).imp_right (And.imp_left fun hold => hold.trans (List.suffix_cons d rest))

/-! ### Cutting and trimming -/

/-- A text is cut at the same places before and after replacing, if neither of the two texts holds
the separator. -/
theorem pieces_replaceAll (hne : old ≠ []) (hold : sep ∉ old) (hnew : sep ∉ new) (cs : List Char) :
    pieces sep (replaceAll old new cs) = (pieces sep cs).map (replaceAll old new) := by
  induction hn : cs.length using Nat.strongRecOn generalizing cs with
  | ind n ih =>
      by_cases hmem : sep ∈ cs
      · obtain ⟨before, after, rfl, hbefore⟩ := List.eq_append_cons_of_mem hmem
        have hnone : sep ∉ replaceAll old new before := fun h =>
          (mem_replaceAll hne h).elim hbefore hnew
        have hlt : after.length < n := by
          simp only [List.length_append, List.length_cons] at hn
          omega
        rw [replaceAll_separated hne hold, pieces_append, pieces_append, List.map_append,
          pieces_of_not_mem hnone, pieces_of_not_mem hbefore, ih _ hlt after rfl]
        rfl
      · have hnone : sep ∉ replaceAll old new cs := fun h =>
          (mem_replaceAll hne h).elim hmem hnew
        rw [pieces_of_not_mem hnone, pieces_of_not_mem hmem]
        rfl

theorem trimStart_replaceAll (hne : old ≠ []) (hnew : new ≠ [])
    (hold : ∀ c ∈ old, isBlank c = false) (hstart : NoBlankStart new) (cs : List Char) :
    trimStart (replaceAll old new cs) = replaceAll old new (trimStart cs) := by
  have hkeeps : ∀ {first : List Char}, first ≠ [] → NoBlankStart first → ∀ rest,
      trimStart (first ++ rest) = first ++ rest := by
    intro first hfirst hblank rest
    apply trimStart_eq_self
    intro c hc
    rw [List.head?_append_of_ne_nil _ hfirst] at hc
    exact hblank c hc
  induction cs using occurrence_induction hne with
  | nil =>
      rfl
  | occurrence rest _ =>
      rw [hkeeps hne (noBlankStart_of_forall hold), replaceAll_append_old hne, hkeeps hnew hstart]
  | char c rest hnone ih =>
      rw [replaceAll_cons hnone]
      by_cases hc : isBlank c
      · rw [trimStart, trimStart, List.dropWhile_cons_of_pos hc, List.dropWhile_cons_of_pos hc]
        exact ih
      · rw [trimStart, trimStart, List.dropWhile_cons_of_neg hc, List.dropWhile_cons_of_neg hc,
          replaceAll_cons hnone]

/-- Blanks at the ends are trimmed before or after replacing alike, if neither of the two texts has
them at its ends. -/
theorem trim_replaceAll (hne : old ≠ []) (hnew : new ≠ []) (hold : ∀ c ∈ old, isBlank c = false)
    (hstart : NoBlankStart new) (hend : NoBlankEnd new) (cs : List Char) :
    trim (replaceAll old new cs) = replaceAll old new (trim cs) := by
  rw [trim, trimStart_replaceAll hne hnew hold hstart, trim]
  generalize trimStart cs = cs
  obtain ⟨blanks, hcs, hblanks⟩ := exists_trimEnd cs
  -- blanks hold no occurrence and touch none
  have hblank : ∀ kept,
      replaceAll old new (kept ++ blanks) = replaceAll old new kept ++ blanks := by
    intro kept
    clear hcs
    induction blanks generalizing kept with
    | nil =>
        simp
    | cons c blanks ih =>
        have hc : c ∉ old := fun hmem => by
          have hno := hold c hmem
          rw [hblanks c List.mem_cons_self] at hno
          cases hno
        have hrest := ih (fun d hd => hblanks d (List.mem_cons_of_mem c hd)) []
        rw [replaceAll_separated hne hc]
        simpa using hrest
  have hkept : NoBlankEnd (replaceAll old new (trimEnd cs)) := by
    have hlast : NoBlankEnd (trimEnd cs) := by
      rw [trimEnd_eq_reverse, ← noBlankStart_reverse, List.reverse_reverse]
      exact noBlankStart_trimStart _
    intro c hc
    rcases getLast?_replaceAll hne hnew hc with hmem | ⟨-, hmem⟩
    · exact hlast c hmem
    · exact hend c hmem
  calc trimEnd (replaceAll old new cs)
    _ = trimEnd (replaceAll old new (trimEnd cs ++ blanks)) := by rw [← hcs]
    _ = trimEnd (replaceAll old new (trimEnd cs)) := by
      rw [hblank, trimEnd_append_blanks _ hblanks]
    _ = replaceAll old new (trimEnd cs) := trimEnd_eq_self hkept

/-- A text begins with `start` before and after replacing alike, if `start` holds the first
character of neither of the two texts. -/
theorem dropPrefix_replaceAll {o n : Char} {old new start : List Char} (hold : o ∉ start)
    (hnew : n ∉ start) (cs : List Char) :
    dropPrefix start (replaceAll (o :: old) (n :: new) cs)
      = (dropPrefix start cs).map (replaceAll (o :: old) (n :: new)) := by
  induction start generalizing cs with
  | nil =>
      rfl
  | cons s start ih =>
      obtain ⟨ho, holdRest⟩ := not_or.mp (mt List.mem_cons.mpr hold)
      obtain ⟨hn, hnewRest⟩ := not_or.mp (mt List.mem_cons.mpr hnew)
      have hdiffers : ∀ {c : Char}, c ≠ s → ∀ rest, dropPrefix (s :: start) (c :: rest) = none := by
        intro c hc rest
        simp [dropPrefix, List.isPrefixOf?, Ne.symm hc]
      by_cases hoccurs : o :: old <+: cs
      · obtain ⟨rest, rfl⟩ := hoccurs
        rw [replaceAll_append_old (List.cons_ne_nil o old), List.cons_append, List.cons_append,
          hdiffers hn, hdiffers ho]
        rfl
      · cases cs with
        | nil =>
            rfl
        | cons c rest =>
            rw [replaceAll_cons hoccurs]
            by_cases hc : c = s
            · subst hc
              simpa [dropPrefix, List.isPrefixOf?] using ih holdRest hnewRest rest
            · rw [hdiffers hc, hdiffers hc]
              rfl

end EnvLayers.Text
