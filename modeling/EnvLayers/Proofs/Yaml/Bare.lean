import EnvLayers.Proofs.Yaml.Cursor
import EnvLayers.Yaml.Token.Scalar
import EnvLayers.Yaml.Written

/-
Module: EnvLayers.Proofs.Yaml.Bare
Purpose: The texts that can be pasted into a document without quotes, in a block and in a flow
  collection, and that a reader of a scalar finds exactly them.
Main exports: Yaml.isLine, Yaml.standsInBlock, Yaml.standsInFlow, Yaml.Runs, Yaml.Bare,
  Scalar.readPlain_bare, bare_of_isLine
-/

namespace EnvLayers.Yaml

/-- A text of one line whose characters are written as they are, without spaces around it. -/
def isLine (cs : List Char) : Bool :=
  !cs.isEmpty && cs.all (fun c => isPrintable c && !isBreak c) && !Style.hasLooseEnd cs

/-- The text begins no other construct, and it holds no end of a key and no start of a comment. -/
def standsInBlock : List Char → Bool
  | [] => false
  | c :: rest => !Style.startsConstruct c rest && !Style.breaksOff c rest

/-- A mark of a flow collection stands in the text, or a colon that is refused there. -/
def breaksFlow : List Char → Bool
  | [] => false
  | c :: rest => Scalar.isFlowMark c || (c == ':' && rest.head? == some '?') || breaksFlow rest

/-- The text begins no key or value of a flow collection, and it holds no marks of one. -/
def standsInFlow (cs : List Char) : Bool :=
  !breaksFlow cs && cs.head? != some '?' && cs.head? != some ':'

/-- A character that ends a scalar: a mark in a flow collection, and otherwise a line break. -/
def endsPlain (inFlow : Bool) (c : Char) : Bool := if inFlow then Scalar.isFlowMark c else isBreak c

/-- A text, or what is left of it behind a space, that is read up to its end. -/
structure Runs (inFlow : Bool) (cs : List Char) : Prop where
  gap : ∀ c ∈ cs, isGap (some c) → c = ' '
  off : Style.breaksOff ' ' cs = false
  flow : inFlow → breaksFlow cs = false
  ends : cs.getLast? ≠ some ' '

theorem breaksOff_of_append {before : Char} {front : List Char} {c : Char} {rest : List Char}
    (h : Style.breaksOff before (front ++ c :: rest) = false) : Style.breaksOff c rest = false := by
  induction front generalizing before with
  | nil =>
      simp only [List.nil_append, Style.breaksOff, Bool.or_eq_false_iff] at h
      exact h.2
  | cons d front ih =>
      simp only [List.cons_append, Style.breaksOff, Bool.or_eq_false_iff] at h
      exact ih h.2

theorem breaksFlow_cons {c : Char} {rest : List Char} : breaksFlow (c :: rest) = false
    ↔ Scalar.isFlowMark c = false ∧ (c = ':' → rest.head? ≠ some '?')
      ∧ breaksFlow rest = false := by
  simp [breaksFlow, and_assoc]

theorem breaksFlow_of_append {front rest : List Char} (h : breaksFlow (front ++ rest) = false) :
    breaksFlow rest = false := by
  induction front with
  | nil =>
      exact h
  | cons d front ih =>
      exact ih (breaksFlow_cons.mp h).2.2

namespace Runs

variable {inFlow : Bool} {front rest cs tail : List Char}

/-- What is left behind a space. -/
theorem behind_space (h : Runs inFlow (front ++ ' ' :: rest)) : Runs inFlow rest where
  gap := fun c hc => h.gap c (by simp [hc])
  off := breaksOff_of_append h.off
  flow := fun hflow => (breaksFlow_cons.mp (breaksFlow_of_append (h.flow hflow))).2.2
  ends := fun hlast => h.ends (by
    rw [List.getLast?_append, List.getLast?_cons, hlast]
    rfl)

end Runs

/-- A text that can be pasted, in a block or in a flow collection. -/
structure Bare (inFlow : Bool) (cs : List Char) : Prop where
  nonempty : cs ≠ []
  start : ∀ c rest, cs = c :: rest → Style.startsConstruct c rest = false ∧ isGap (some c) = false
    ∧ isByteOrderMark c = false ∧ (inFlow → c ≠ '?' ∧ c ≠ ':')
  runs : Runs inFlow cs

theorem Bare.head_ne_space {inFlow : Bool} {cs : List Char} (h : Bare inFlow cs) :
    cs.head? ≠ some ' ' := by
  intro hhead
  obtain ⟨rest, rfl⟩ := List.head?_eq_some_iff.mp hhead
  cases (h.start _ _ rfl).2.1

namespace Scalar

theorem plainRun_of_endsPlain {inFlow : Bool} {c : Char} (h : endsPlain inFlow c)
    (tail : List Char) : plainRun inFlow (c :: tail) = some [] := by
  unfold plainRun
  cases inFlow with
  | false =>
      have hbreak : isBreak c = true := h
      simp [isGap, hbreak]
  | true =>
      have hmark : isFlowMark c = true := h
      have hcolon : (c == ':') = false := by
        rw [beq_eq_false_iff_ne]
        rintro rfl
        cases hmark
      simp [hmark, hcolon]

/-- A run goes up to the first space, or to what ends the scalar. -/
theorem plainRun_append {inFlow : Bool} {before e : Char} {cs : List Char}
    (hgap : ∀ c ∈ cs, isGap (some c) → c = ' ') (hoff : Style.breaksOff before cs = false)
    (hflow : inFlow → breaksFlow cs = false) (hend : endsPlain inFlow e) (tail : List Char) :
    plainRun inFlow (cs ++ e :: tail) = some (cs.takeWhile (· ≠ ' ')) := by
  induction cs generalizing before with
  | nil =>
      exact plainRun_of_endsPlain hend tail
  | cons c rest ih =>
      by_cases hspace : c = ' '
      · simp [plainRun, hspace, isGap, isSpace]
      · simp only [Style.breaksOff, Bool.or_eq_false_iff] at hoff
        obtain ⟨⟨hcolon, -⟩, hrest⟩ := hoff
        have hbare : inFlow → isFlowMark c = false ∧ (c = ':' → rest.head? ≠ some '?')
            ∧ breaksFlow rest = false := fun h => breaksFlow_cons.mp (hflow h)
        have hnone : isGap (some c) = false :=
          Bool.eq_false_iff.mpr fun h => hspace (hgap c List.mem_cons_self h)
        have hcut : (c == ':' && isGap (rest ++ e :: tail).head?) = false := by
          cases rest with
          | nil => simp_all [isGap]
          | cons d rest => exact hcolon
        have hmark : (inFlow && isFlowMark c) = false := by
          cases inFlow with
          | false => rfl
          | true => exact (hbare rfl).1
        have hrefused : (inFlow && c == ':'
            && (rest ++ e :: tail).head?.any fun d => isFlowMark d || d == '?') = false := by
          cases inFlow with
          | false => rfl
          | true =>
              cases rest with
              | nil => simp_all [isGap]
              | cons d rest =>
                  obtain ⟨-, hasked, hd⟩ := hbare rfl
                  have hd := (breaksFlow_cons.mp hd).1
                  by_cases hc : c = ':'
                  · simpa [hc, hd] using hasked hc
                  · simp [hc]
        have htake : (c :: rest).takeWhile (· ≠ ' ') = c :: rest.takeWhile (· ≠ ' ') := by
          simp [hspace]
        rw [List.cons_append, plainRun, hnone, hrefused, hcut, hmark, htake,
          ih (fun d hd => hgap d (List.mem_cons_of_mem c hd)) hrest fun h => (hbare h).2.2]
        rfl

theorem not_isGap_of_isFlowMark {d : Char} (h : isFlowMark d) : isGap (some d) = false := by
  simp only [isFlowMark, Bool.or_eq_true, beq_iff_eq] at h
  rcases h with (((rfl | rfl) | rfl) | rfl) | rfl <;> rfl

theorem forall_space_or_exists (cs : List Char) : (∀ c ∈ cs, c = ' ')
    ∨ ∃ n d rest, cs = List.replicate n ' ' ++ d :: rest ∧ d ≠ ' ' := by
  induction cs with
  | nil =>
      exact .inl (by simp)
  | cons c cs ih =>
      by_cases hc : c = ' '
      · rcases ih with hall | ⟨n, d, rest, rfl, hd⟩
        · exact .inl (by simpa [hc] using hall)
        · exact .inr ⟨n + 1, d, rest, by simp [hc, List.replicate_succ], hd⟩
      · exact .inr ⟨0, c, cs, rfl, hc⟩

/-- A text without spaces at its ends is one word, or a word and a shorter text behind spaces. -/
theorem word_or_words {cs : List Char} (hhead : cs.head? ≠ some ' ')
    (hlast : cs.getLast? ≠ some ' ') :
    ' ' ∉ cs ∨ ∃ word n d rest, cs = word ++ (List.replicate (n + 1) ' ' ++ d :: rest)
      ∧ word ≠ [] ∧ ' ' ∉ word ∧ d ≠ ' ' := by
  by_cases hspace : ' ' ∈ cs
  · obtain ⟨word, rest, rfl, hword⟩ := List.eq_append_cons_of_mem hspace
    refine .inr ?_
    rcases forall_space_or_exists rest with hall | ⟨n, d, rest, rfl, hd⟩
    · refine absurd ?_ hlast
      rw [List.getLast?_append, List.getLast?_cons]
      cases hend : rest.getLast? with
      | none => rfl
      | some e => rw [hall e (List.mem_of_mem_getLast? hend)]; rfl
    · refine ⟨word, n, d, rest, by simp [List.replicate_succ], ?_, hword, hd⟩
      rintro rfl
      exact hhead rfl
  · exact .inl hspace

/-- A text that is read up to its end stands at the cursor, in front of the character that ends it.
-/
structure PlainAt (inFlow : Bool) (limit : Nat) (cs : List Char) (e : Char) (tail : List Char)
    (c : Cursor) : Prop where
  nonempty : cs ≠ []
  start : cs.head? ≠ some ' '
  runs : Runs inFlow cs
  rest : c.rest = cs ++ e :: tail
  column : c.column ≠ 0 ∧ limit ≤ c.column

/-- What a reader leaves behind a scalar. It stops at once in a flow collection, and otherwise
behind the gap that follows, which has to leave the collection. -/
def Leaves (inFlow : Bool) (limit : Nat) (here : Cursor) (broken : Bool) (behind : Cursor) : Prop :=
  if inFlow then broken = false ∧ behind = here else
    ∃ gap, here.readGap limit .empty = some (gap, behind) ∧ gap.broken = broken
      ∧ behind.column < limit

namespace PlainAt

variable {inFlow broken : Bool} {limit n : Nat} {d e : Char} {cs word rest tail text : List Char}
  {g : Gap} {c behind : Cursor}

theorem atDocumentMark (h : PlainAt inFlow limit cs e tail c) : c.atDocumentMark = false := by
  simp [Cursor.atDocumentMark, h.column.1]

theorem not_at_comment (h : PlainAt inFlow limit cs e tail c) : c.at? '#' = false := by
  obtain ⟨d, rest, rfl⟩ := List.exists_cons_of_ne_nil h.nonempty
  have hoff := h.runs.off
  simp only [Style.breaksOff, Bool.or_eq_false_iff] at hoff
  simpa [Cursor.at?, Cursor.head?, h.rest, isGap, isSpace] using hoff.1.2

theorem run (h : PlainAt inFlow limit cs e tail c) (hend : endsPlain inFlow e) :
    plainRun inFlow c.rest = some (cs.takeWhile (· ≠ ' ')) := by
  rw [h.rest]
  exact plainRun_append h.runs.gap h.runs.off h.runs.flow hend tail

/-- The last word is read, and the scalar has ended. -/
theorem last_word (h : PlainAt inFlow limit cs e tail c) (hend : endsPlain inFlow e)
    (hword : ' ' ∉ cs) (hg : g.broken = false)
    (hleaves : Leaves inFlow limit (c.skip cs.length) broken behind) (fuel : Nat) :
    plainFrom inFlow limit (fuel + 1) text g c = some (text ++ g.spaces ++ cs, broken, behind) := by
  have htake : cs.takeWhile (· ≠ ' ') = cs :=
    List.takeWhile_eq_self_iff.mpr fun x hx => decide_eq_true fun heq => hword (heq ▸ hx)
  have hhere : (c.skip cs.length).head? = some e := by
    rw [Cursor.head?, Cursor.rest_skip h.rest, List.head?_cons]
  have hfold : g.fold = g.spaces := by simp [Gap.fold, hg]
  rw [plainFrom, h.atDocumentMark, h.not_at_comment, h.run hend, htake]
  cases inFlow with
  | true =>
      obtain ⟨rfl, rfl⟩ := hleaves
      simp [h.nonempty, hhere, hfold, not_isGap_of_isFlowMark hend]
  | false =>
      obtain ⟨gap, hread, rfl, hleft⟩ := hleaves
      have hbreak : isBreak e = true := hend
      simp [h.nonempty, hhere, hfold, hread, hleft, isGap, hbreak]

/-- What stands behind the first word and its spaces. -/
theorem behind_word
    (h : PlainAt inFlow limit (word ++ (List.replicate (n + 1) ' ' ++ d :: rest)) e tail c)
    (hd : d ≠ ' ') :
    PlainAt inFlow limit (d :: rest) e tail (c.skip (word.length + (n + 1))) where
  nonempty := List.cons_ne_nil d rest
  start := by simpa using hd
  runs := by
    have hsplit : Runs inFlow ((word ++ List.replicate n ' ') ++ ' ' :: d :: rest) := by
      simpa [List.replicate_succ'] using h.runs
    exact hsplit.behind_space
  rest := by
    have hrest : c.rest = (word ++ List.replicate (n + 1) ' ') ++ (d :: rest ++ e :: tail) := by
      rw [h.rest]
      simp
    simpa using Cursor.rest_skip hrest
  column := by
    have hcolumn := h.column
    simp only [Cursor.skip]
    omega

/-- A word is read, and the spaces behind it wait for the next one. -/
theorem first_word
    (h : PlainAt inFlow limit (word ++ (List.replicate (n + 1) ' ' ++ d :: rest)) e tail c)
    (hend : endsPlain inFlow e) (hne : word ≠ []) (hword : ' ' ∉ word) (hd : d ≠ ' ')
    (hg : g.broken = false) (fuel : Nat) :
    plainFrom inFlow limit (fuel + 1) text g c
      = plainFrom inFlow limit fuel (text ++ g.spaces ++ word)
        ⟨List.replicate (n + 1) ' ', none, [], false⟩ (c.skip (word.length + (n + 1))) := by
  have hkept : ∀ x ∈ word, decide (x ≠ ' ') = true :=
    fun x hx => decide_eq_true fun heq => hword (heq ▸ hx)
  have htake : (word ++ (List.replicate (n + 1) ' ' ++ d :: rest)).takeWhile (· ≠ ' ') = word := by
    rw [List.takeWhile_append_of_pos hkept]
    simp [List.replicate_succ]
  have hspaces : (c.skip word.length).rest
      = List.replicate (n + 1) ' ' ++ d :: (rest ++ e :: tail) :=
    Cursor.rest_skip (by simp [h.rest])
  have hgap : isGap (some d) = false :=
    Bool.eq_false_iff.mpr fun hisGap => hd (h.runs.gap d (by simp) hisGap)
  have hread : (c.skip word.length).readGap limit .empty
      = some (⟨List.replicate (n + 1) ' ', none, [], false⟩, c.skip (word.length + (n + 1))) := by
    rw [← Cursor.skip_skip]
    exact Cursor.readGap_spaces rfl hspaces hgap
  have hhere : (c.skip word.length).head? = some ' ' := by
    rw [Cursor.head?, hspaces]
    rfl
  have hfold : g.fold = g.spaces := by simp [Gap.fold, hg]
  have hstay : ¬ (inFlow = false ∧ (c.skip (word.length + (n + 1))).column < limit) :=
    fun hleft => Nat.not_lt.mpr (h.behind_word hd).column.2 hleft.2
  rw [plainFrom, h.atDocumentMark, h.not_at_comment, h.run hend, htake]
  simp [hne, hhere, hfold, hread, hstay, isGap, isSpace]

/-- A text is read word by word up to its end. -/
theorem plainFrom_eq (h : PlainAt inFlow limit cs e tail c) (hend : endsPlain inFlow e)
    {fuel : Nat} (hfuel : cs.length < fuel) (hg : g.broken = false)
    (hleaves : Leaves inFlow limit (c.skip cs.length) broken behind) :
    plainFrom inFlow limit fuel text g c = some (text ++ g.spaces ++ cs, broken, behind) := by
  -- Each step takes a word and its spaces, and the fuel outlasts the words.
  induction fuel generalizing cs text g c with
  | zero =>
      exact absurd hfuel (Nat.not_lt_zero _)
  | succ fuel ih =>
      rcases word_or_words h.start h.runs.ends with hword | ⟨word, n, d, rest, rfl, hne, hword, hd⟩
      · exact h.last_word hend hword hg hleaves fuel
      · have hlength : (word ++ (List.replicate (n + 1) ' ' ++ d :: rest)).length
            = word.length + (n + 1) + (d :: rest).length := by
          simp [Nat.add_assoc]
        rw [hlength, ← Cursor.skip_skip] at hleaves
        rw [h.first_word hend hne hword hd hg, ih (h.behind_word hd) (by omega) rfl hleaves]
        simp

end PlainAt

/-- A text that can be pasted is read as it is. -/
theorem readPlain_bare {inFlow broken : Bool} {limit : Nat} {e : Char} {tail cs : List Char}
    {behind c : Cursor} (hend : endsPlain inFlow e) (hcs : Bare inFlow cs)
    (hrest : c.rest = cs ++ e :: tail) (hcolumn : c.column ≠ 0 ∧ limit ≤ c.column)
    (hleaves : Leaves inFlow limit (c.skip cs.length) broken behind) :
    readPlain inFlow limit c = some (cs, broken, behind) := by
  have hfuel : cs.length < c.rest.length + 1 := by
    rw [hrest, List.length_append]
    omega
  have hat : PlainAt inFlow limit cs e tail c :=
    ⟨hcs.nonempty, hcs.head_ne_space, hcs.runs, hrest, hcolumn⟩
  exact hat.plainFrom_eq hend hfuel rfl hleaves

end Scalar

/-! ### Lines that can be pasted -/

theorem isGap_of_isLine {cs : List Char} {c : Char} (h : isLine cs) (hc : c ∈ cs)
    (hgap : isGap (some c)) : c = ' ' := by
  simp only [isLine, Bool.and_eq_true, List.all_eq_true, Bool.not_eq_true'] at h
  obtain ⟨hprintable, hbreak⟩ := h.1.2 c hc
  have htab : c ≠ '\t' := by
    rintro rfl
    cases hprintable
  simpa [isGap, hbreak, isSpace, htab] using hgap

/-- A line that can be pasted into a block, and into a flow collection where the further condition
holds. -/
theorem bare_of_isLine {inFlow : Bool} {cs : List Char} (hline : isLine cs)
    (hblock : standsInBlock cs) (hflow : inFlow → standsInFlow cs) : Bare inFlow cs := by
  cases cs with
  | nil =>
      cases hblock
  | cons c rest =>
      simp only [standsInBlock, Bool.and_eq_true, Bool.not_eq_true'] at hblock
      obtain ⟨hstart, hoff⟩ := hblock
      have hloose := hline
      simp only [isLine, Style.hasLooseEnd, Bool.and_eq_true, Bool.not_eq_true',
        Bool.or_eq_false_iff] at hloose
      obtain ⟨-, hhead, hlast⟩ := hloose
      have hc : c ≠ ' ' := by
        rintro rfl
        cases hhead
      have hnone : isGap (some c) = false :=
        Bool.eq_false_iff.mpr fun h => hc (isGap_of_isLine hline List.mem_cons_self h)
      have hsigns := hstart
      rw [Style.startsConstruct, Bool.or_eq_false_iff] at hsigns
      have hcolon : (c == ':' && isGap rest.head?) = false := by
        by_cases h : c = ':'
        · simpa [h] using hsigns.2
        · simp [h]
      have hcomment : c ≠ '#' := by
        rintro rfl
        cases hsigns.1
      have horder : isByteOrderMark c = false := by
        simp only [isLine, Bool.and_eq_true, List.all_cons, isPrintable, Bool.not_eq_true',
          Bool.or_eq_false_iff] at hline
        exact hline.1.2.1.1.2.2
      have hmarks : inFlow → breaksFlow (c :: rest) = false ∧ c ≠ '?' ∧ c ≠ ':' := fun h => by
        simpa [standsInFlow, and_assoc] using hflow h
      refine ⟨List.cons_ne_nil c rest, ?_, ?_⟩
      · rintro d more heq
        cases heq
        exact ⟨hstart, hnone, horder, fun h => (hmarks h).2⟩
      · refine ⟨fun d hd h => isGap_of_isLine hline hd h, ?_, fun h => (hmarks h).1, ?_⟩
        · simp [Style.breaksOff, hcolon, hcomment, hoff]
        · intro hend
          rw [hend] at hlast
          cases hlast

end EnvLayers.Yaml
