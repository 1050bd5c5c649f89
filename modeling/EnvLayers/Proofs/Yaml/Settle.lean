import EnvLayers.Proofs.Yaml.Bare
import EnvLayers.Yaml.Token.Scan

/-
Module: EnvLayers.Proofs.Yaml.Settle
Purpose: The place of the next token: what a scan skips in front of it. Empty lines and comments are
  skipped line by line, so that only the last line before a token counts.
Main exports: Scanner.settle, Scanner.settle_token, Scanner.settle_line, Scanner.linesText,
  Scanner.settle_fillers, Scanner.readGap_lines
-/

namespace EnvLayers.Yaml

namespace Scanner

/-- The place on the line of the cursor where blanks and a comment end. -/
def lineStop (s : Scanner) : Cursor :=
  let c := s.cursor
  let c := if c.column == 0 && c.head?.any isByteOrderMark then c.skip 1 else c
  let c := c.skipWhile fun char => char == ' ' || ((s.inFlow || !s.keyAllowed) && char == '\t')
  if c.at? '#' then c.skipWhile (!isBreak ·) else c

theorem length_lineStop_le (s : Scanner) : s.lineStop.rest.length ≤ s.cursor.rest.length := by
  unfold lineStop
  extract_lets c₀ c₁ c₂
  have h₁ : c₁.rest.length ≤ s.cursor.rest.length := by
    unfold c₁
    split
    · exact c₀.length_rest_skip_le 1
    · exact Nat.le_refl _
  have h₂ : c₂.rest.length ≤ c₁.rest.length := c₁.length_rest_skip_le _
  split
  · exact (c₂.length_rest_skip_le _).trans (h₂.trans h₁)
  · exact h₂.trans h₁

theorem skipToToken_succ (fuel : Nat) (s : Scanner) : skipToToken (fuel + 1) s =
    match s.lineStop.breakLine? with
    | some (_, next) =>
      skipToToken fuel { s with cursor := next, keyAllowed := s.keyAllowed || !s.inFlow }
    | none => { s with cursor := s.lineStop } := rfl

/-- Enough fuel is as good as more. -/
theorem skipToToken_fuel {fuel fuel' : Nat} {s : Scanner} (h : s.cursor.rest.length < fuel)
    (h' : s.cursor.rest.length < fuel') : skipToToken fuel s = skipToToken fuel' s := by
  induction fuel generalizing fuel' s with
  | zero =>
      exact absurd h (Nat.not_lt_zero _)
  | succ fuel ih =>
      obtain ⟨fuel', rfl⟩ := Nat.exists_eq_add_one_of_ne_zero (Nat.ne_zero_of_lt h')
      rw [skipToToken_succ, skipToToken_succ]
      cases hbreak : s.lineStop.breakLine? with
      | none =>
          rfl
      | some found =>
          have hlength := Cursor.length_breakLine hbreak
          have hstop := s.length_lineStop_le
          exact ih (by dsimp only; omega) (by dsimp only; omega)

/-- The scan at the next token. -/
def settle (s : Scanner) : Scanner := skipToToken (s.cursor.rest.length + 1) s

theorem settle_break {s : Scanner} {char : Char} {next : Cursor}
    (h : s.lineStop.breakLine? = some (char, next)) :
    s.settle = settle { s with cursor := next, keyAllowed := s.keyAllowed || !s.inFlow } := by
  have hlength := Cursor.length_breakLine h
  have hstop := s.length_lineStop_le
  rw [settle, skipToToken_succ, h]
  exact skipToToken_fuel (by dsimp only; omega) (by dsimp only; omega)

theorem settle_stop {s : Scanner} (h : s.lineStop.breakLine? = none) :
    s.settle = { s with cursor := s.lineStop } := by
  rw [settle, skipToToken_succ, h]

theorem length_settle_le (s : Scanner) :
    s.settle.cursor.rest.length ≤ s.cursor.rest.length := by
  unfold settle
  generalize s.cursor.rest.length + 1 = fuel
  induction fuel generalizing s with
  | zero =>
      exact Nat.le_refl _
  | succ fuel ih =>
      rw [skipToToken_succ]
      have hstop := s.length_lineStop_le
      split
      · next hbreak =>
        have hlength := Cursor.length_breakLine hbreak
        exact (ih _).trans (by dsimp only; omega)
      · exact hstop

/-- A text that begins with a token, or is empty. -/
def startsToken (cs : List Char) : Bool :=
  cs.head?.all fun c => !isGap (some c) && c != '#' && !isByteOrderMark c

/-- What may stand behind the blanks of a line without a token: a comment, or nothing. -/
def isComment : List Char → Bool
  | [] => true
  | c :: rest => c == '#' && rest.all (!isBreak ·)

theorem startsToken_of_bare {inFlow : Bool} {cs : List Char} (h : Bare inFlow cs)
    (tail : List Char) : startsToken (cs ++ tail) := by
  obtain ⟨c, rest, rfl⟩ := List.exists_cons_of_ne_nil h.nonempty
  obtain ⟨hstart, hgap, horder, -⟩ := h.start _ _ rfl
  rw [Style.startsConstruct, Bool.or_eq_false_iff] at hstart
  have hcomment : c ≠ '#' := by
    rintro rfl
    cases hstart.1
  simp [startsToken, hgap, horder, hcomment]

variable {s : Scanner} {n : Nat} {next comment rest : List Char}

theorem takeWhile_append_stop {p : Char → Bool} {front : List Char} (hfront : ∀ c ∈ front, p c)
    (hnext : next.head?.all (!p ·)) : (front ++ next).takeWhile p = front := by
  rw [List.takeWhile_append_of_pos hfront]
  cases next with
  | nil => simp
  | cons c next => simp_all

/-- Blanks are passed up to what is none. -/
theorem lineStop_eq (h : s.cursor.rest = List.replicate n ' ' ++ next)
    (hnext : next.head?.all fun c => !isSpace c && !isByteOrderMark c) :
    s.lineStop = if (s.cursor.skip n).at? '#' then (s.cursor.skip n).skipWhile (!isBreak ·)
      else s.cursor.skip n := by
  have hmark : s.cursor.head?.any isByteOrderMark = false := by
    cases n with
    | zero =>
        cases next with
        | nil => simp [Cursor.head?, h]
        | cons c next => simp_all [Cursor.head?]
    | succ n => simp [Cursor.head?, h, List.replicate_succ, isByteOrderMark]
  have hblanks : s.cursor.skipWhile
      (fun char => char == ' ' || ((s.inFlow || !s.keyAllowed) && char == '\t'))
        = s.cursor.skip n := by
    rw [Cursor.skipWhile, h, takeWhile_append_stop, List.length_replicate]
    · intro c hc
      simp [List.eq_of_mem_replicate hc]
    · cases next with
      | nil => rfl
      | cons c next => simp_all [isSpace]
  unfold lineStop
  simp only [hmark, Bool.and_false, Bool.false_eq_true, if_false, hblanks]

/-- In front of a token only blanks are passed. -/
theorem settle_token (h : s.cursor.rest = List.replicate n ' ' ++ next) (hnext : startsToken next) :
    s.settle = { s with cursor := s.cursor.skip n } := by
  have hrest : (s.cursor.skip n).rest = next := by
    simpa using Cursor.rest_skip h
  have hstop : s.lineStop = s.cursor.skip n := by
    cases next with
    | nil => rw [lineStop_eq h rfl, if_neg (by simp [Cursor.at?, Cursor.head?, hrest])]
    | cons c next =>
        simp only [startsToken, List.head?_cons, Option.all_some, Bool.and_eq_true,
          Bool.not_eq_true', isGap, Bool.or_eq_false_iff] at hnext
        rw [lineStop_eq h (by simp [hnext]), if_neg]
        simpa [Cursor.at?, Cursor.head?, hrest] using hnext.1.2
  rw [settle_stop, hstop]
  cases next with
  | nil => exact hstop ▸ Cursor.breakLine?_end hrest
  | cons c next =>
      simp only [startsToken, List.head?_cons, Option.all_some, Bool.and_eq_true,
        Bool.not_eq_true', isGap, Bool.or_eq_false_iff] at hnext
      exact hstop ▸ Cursor.breakLine?_eq_none hrest hnext.1.1.2

/-- A space in front of a token is passed. -/
theorem settle_space {offset line column : Nat} (h : s.cursor = ⟨' ' :: next, offset, line, column⟩)
    (hnext : startsToken next) :
    s.settle = { s with cursor := ⟨next, offset + 1, line, column + 1⟩ } := by
  have hspace : ' '.utf8Size = 1 := rfl
  have hrest : s.cursor.rest = List.replicate 1 ' ' ++ next := by
    rw [h]
    rfl
  rw [settle_token hrest hnext, h]
  simp [Cursor.skip, byteLength, hspace]

/-- A line without a token is passed. -/
theorem settle_line (h : s.cursor.rest = List.replicate n ' ' ++ (comment ++ '\n' :: rest))
    (hcomment : isComment comment) :
    s.settle = settle { s with
      cursor := (s.cursor.skip (n + comment.length)).nextLine 1
      keyAllowed := s.keyAllowed || !s.inFlow } := by
  have hrest : (s.cursor.skip n).rest = comment ++ '\n' :: rest := by
    simpa using Cursor.rest_skip h
  have hstop : s.lineStop = s.cursor.skip (n + comment.length) := by
    cases comment with
    | nil =>
        rw [lineStop_eq h rfl, if_neg (by simp [Cursor.at?, Cursor.head?, hrest])]
        rfl
    | cons c body =>
        simp only [isComment, Bool.and_eq_true, beq_iff_eq] at hcomment
        obtain ⟨rfl, hbody⟩ := hcomment
        have hwhole : ∀ c ∈ '#' :: body, (!isBreak c) = true :=
          List.forall_mem_cons.mpr ⟨rfl, List.all_eq_true.mp hbody⟩
        rw [lineStop_eq h rfl, if_pos (by simp [Cursor.at?, Cursor.head?, hrest]), Cursor.skipWhile,
          hrest, takeWhile_append_stop hwhole rfl, Cursor.skip_skip]
  have hend : (s.cursor.skip (n + comment.length)).rest = '\n' :: rest := by
    rw [← Cursor.skip_skip, Cursor.rest_skip hrest]
  have hbreak : s.lineStop.breakLine?
      = some ('\n', (s.cursor.skip (n + comment.length)).nextLine 1) := by
    rw [hstop]
    exact Cursor.breakLine?_feed hend
  exact settle_break hbreak

/-! ### Lines without tokens -/

/-- The line holds no token. -/
def isFiller (line : List Char) : Bool := isComment (line.dropWhile (· == ' '))

/-- The text of lines, each with its end. -/
def linesText (lines : List (List Char)) : List Char := lines.flatMap (· ++ ['\n'])

@[simp] theorem linesText_nil : linesText [] = [] := rfl

@[simp] theorem linesText_cons (line : List Char) (lines : List (List Char)) :
    linesText (line :: lines) = line ++ '\n' :: linesText lines := by
  simp [linesText]

theorem linesText_append (lines more : List (List Char)) :
    linesText (lines ++ more) = linesText lines ++ linesText more := by
  simp [linesText]

theorem exists_blanks (line : List Char) :
    ∃ n, line = List.replicate n ' ' ++ line.dropWhile (· == ' ') := by
  refine ⟨(line.takeWhile (· == ' ')).length, ?_⟩
  have hblanks : line.takeWhile (· == ' ')
      = List.replicate (line.takeWhile (· == ' ')).length ' ' :=
    List.eq_replicate_of_mem fun c hc => by simpa using List.mem_takeWhile_imp hc
  rw [← hblanks, List.takeWhile_append_dropWhile]

theorem isFiller_of_isComment {line : List Char} (h : isComment line) : isFiller line := by
  cases line with
  | nil => rfl
  | cons c body =>
      have hc : (c == ' ') = false := by
        simp only [isComment, Bool.and_eq_true, beq_iff_eq] at h
        rw [h.1]
        rfl
      rwa [isFiller, List.dropWhile_cons_of_neg (by simp [hc])]

/-- All lines without a token in front of one are passed, and then a key may stand. -/
theorem settle_fillers {lines : List (List Char)} {pad : Nat} (hflow : s.inFlow = false)
    (hlines : ∀ line ∈ lines, isFiller line)
    (hstart : lines = [] → s.keyAllowed = true ∧ s.cursor.column = 0)
    (h : s.cursor.rest = linesText lines ++ (List.replicate pad ' ' ++ next))
    (hnext : startsToken next) :
    ∃ offset line,
      s.settle = { s with cursor := ⟨next, offset, line, pad⟩, keyAllowed := true } := by
  -- Behind the first line a key may stand at column zero, whatever was the case in front of it.
  induction lines generalizing s with
  | nil =>
      obtain ⟨hallowed, hcolumn⟩ := hstart rfl
      rw [linesText_nil, List.nil_append] at h
      refine ⟨(s.cursor.skip pad).offset, s.cursor.line, ?_⟩
      have hrest : (s.cursor.skip pad).rest = next := by
        simpa using Cursor.rest_skip h
      rw [settle_token h hnext, ← hrest, ← hallowed]
      simp [Cursor.skip, hcolumn]
  | cons line lines ih =>
      obtain ⟨hfirst, hlines⟩ := List.forall_mem_cons.mp hlines
      obtain ⟨n, hline⟩ := exists_blanks line
      rw [linesText_cons, List.append_assoc, List.cons_append, hline, List.append_assoc] at h
      have hend := Cursor.rest_skip h
      rw [List.length_replicate] at hend
      have hend := Cursor.rest_skip hend
      rw [Cursor.skip_skip] at hend
      rw [settle_line h hfirst]
      refine ih hflow hlines (fun _ => ⟨by simp [hflow], rfl⟩) ?_
      simp [Cursor.nextLine, hend]

/-- The gap behind a scalar in front of a token. The lines in it are empty or comments that are not
indented. It ends at the token or at a comment, which makes no difference to what comes next. -/
theorem readGap_lines (limit : Nat) (g : Gap) {pad : Nat} {c : Cursor} {lines : List (List Char)}
    (hlines : ∀ line ∈ lines, isComment line) (hg : g.broken = true) (hcolumn : c.column = 0)
    (h : c.rest = linesText lines ++ (List.replicate pad ' ' ++ next)) (hnext : startsToken next) :
    ∃ gap behind, c.readGap limit g = some (gap, behind) ∧ gap.broken = true ∧ behind.column ≤ pad
      ∧ behind.rest.length ≤ c.rest.length
      ∧ ∀ s : Scanner, s.inFlow = false → s.keyAllowed = true → s.cursor = behind →
        ∃ offset line, s.settle = { s with cursor := ⟨next, offset, line, pad⟩ } := by
  -- The gap ends at the first comment, and `settle` has to pass the lines behind it.
  induction lines generalizing c g with
  | nil =>
      rw [linesText_nil, List.nil_append] at h
      have hrest : (c.skip pad).rest = next := by
        simpa using Cursor.rest_skip h
      refine ⟨g, c.skip pad, Cursor.readGap_indent hg h ?_, hg, by simp [Cursor.skip, hcolumn],
        c.length_rest_skip_le pad, ?_⟩
      · cases next with
        | nil => rfl
        | cons d next => simp_all [startsToken]
      · rintro s - - hcursor
        have hhere : s.cursor.rest = List.replicate 0 ' ' ++ next := hcursor ▸ hrest
        refine ⟨(c.skip pad).offset, c.line, ?_⟩
        rw [settle_token hhere hnext, Cursor.skip_zero, hcursor, ← hrest]
        simp [Cursor.skip, hcolumn]
  | cons line lines ih =>
      obtain ⟨hline, hlines'⟩ := List.forall_mem_cons.mp hlines
      cases line with
      | nil =>
          have hbreak : c.rest = '\n' :: (linesText lines ++ (List.replicate pad ' ' ++ next)) := by
            simpa using h
          have hlater : (g.addBreak '\n').broken = true := by simp [Gap.addBreak, hg]
          have hnextLine : (c.nextLine 1).rest
              = linesText lines ++ (List.replicate pad ' ' ++ next) := by
            simp [Cursor.nextLine, hbreak]
          obtain ⟨gap, behind, hread, hbroken, hpad, hlength, hsettle⟩ :=
            ih _ hlines' hlater rfl hnextLine
          refine ⟨gap, behind, (Cursor.readGap_feed g hbreak).trans hread, hbroken, hpad, ?_,
            hsettle⟩
          exact hlength.trans (by simp [Cursor.nextLine])
      | cons d body =>
          have hfillers : ∀ line ∈ (d :: body) :: lines, isFiller line :=
            fun line hmem => isFiller_of_isComment (hlines line hmem)
          simp only [isComment, Bool.and_eq_true, beq_iff_eq] at hline
          obtain ⟨rfl, hbody⟩ := hline
          refine ⟨g, c, Cursor.readGap_eq_self g (by simp [h, isGap, isSpace, isBreak]), hg,
            by simp [hcolumn], Nat.le_refl _, ?_⟩
          rintro s hflow hallowed rfl
          obtain ⟨offset, row, hsettle⟩ := settle_fillers hflow hfillers (by simp) h hnext
          exact ⟨offset, row, hallowed ▸ hsettle⟩

end Scanner

end EnvLayers.Yaml
