import EnvLayers.Proofs.Yaml.Scan

/-
Module: EnvLayers.Proofs.Yaml.Lines
Purpose: The tokens of a document line by line: a key with a value on its line, a key with a flow
  sequence, a key in front of lines of its own, a dash, and the end of the text.
Main exports: Scanner.StandsAt, StandsAt.entry, StandsAt.list, StandsAt.field, StandsAt.item,
  StandsAt.finish
-/

namespace EnvLayers.Yaml.Scanner

/-- The scan stands in front of a text at a column, where a key may begin, within block collections.
-/
def StandsAt (s : Scanner) (next : List Char) (column : Nat) (i : Int) (o : List Int) : Prop :=
  ∃ offset line k, s.settle = blockState ⟨next, offset, line, column⟩ k i o true

/-- The scan gives the tokens up to the end of the text. -/
def Ends (s : Scanner) (toks : List Token) : Prop :=
  ∀ fuel, s.cursor.rest.length < fuel → tokens fuel s = toks

theorem Scans.ends {s s' : Scanner} {toks more : List Token} (h : Scans s s' toks)
    (hmore : Ends s' more) : Ends s (toks ++ more) := by
  obtain ⟨n, hn, htoks⟩ := h
  intro fuel hfuel
  obtain ⟨left, rfl⟩ := Nat.exists_eq_add_of_le (show n ≤ fuel by omega)
  rw [htoks, hmore left (by omega)]

/-- Lines without tokens, and the text of the next one behind its blanks. -/
def behind (lines : List (List Char)) (pad : Nat) (next : List Char) : List Char :=
  linesText lines ++ (List.replicate pad ' ' ++ next)

/-- Behind the end of a line the scan stands in front of the next token. -/
theorem standsAt_lineEnd {lines : List (List Char)} {pad offset line column k : Nat}
    {next : List Char} {i : Int} {o : List Int} {allowed : Bool}
    (hlines : ∀ line ∈ lines, isFiller line) (hnext : startsToken next) :
    StandsAt (blockState ⟨'\n' :: behind lines pad next, offset, line, column⟩ k i o allowed) next
      pad i o := by
  have hfillers : ∀ line ∈ [] :: lines, isFiller line := List.forall_mem_cons.mpr ⟨rfl, hlines⟩
  have hrest : '\n' :: behind lines pad next
      = linesText ([] :: lines) ++ (List.replicate pad ' ' ++ next) := by
    simp [behind]
  obtain ⟨offset', line', hsettle⟩ := settle_fillers
    (s := blockState ⟨'\n' :: behind lines pad next, offset, line, column⟩ k i o allowed) rfl
    hfillers nofun hrest hnext
  exact ⟨offset', line', k, hsettle⟩

/-- A text is read from its first token on. -/
theorem standsAt_start {lines : List (List Char)} {pad : Nat} {next : List Char}
    (hlines : ∀ line ∈ lines, isFiller line) (hnext : startsToken next) :
    StandsAt (start (behind lines pad next)) next pad (-1) [] := by
  obtain ⟨offset, line, hsettle⟩ := settle_fillers (s := start (behind lines pad next)) rfl hlines
    (fun _ => ⟨rfl, rfl⟩) rfl hnext
  exact ⟨offset, line, 0, hsettle⟩

/-- A space in front of a token is passed. -/
theorem settle_blockState {offset line column k : Nat} {next : List Char} {i : Int} {o : List Int}
    {allowed : Bool} (hnext : startsToken next) :
    (blockState ⟨' ' :: next, offset, line, column⟩ k i o allowed).settle
      = blockState ⟨next, offset + 1, line, column + 1⟩ k i o allowed :=
  settle_space rfl hnext

namespace StandsAt

variable {s : Scanner} {key value next : List Char} {items lines : List (List Char)}
  {column pad : Nat} {i : Int} {o o' : List Int} {toks : List Token}

/-- A key with a value on its line. The next token does not stand further in. -/
theorem entry (h : StandsAt s (key ++ ':' :: ' ' :: (value ++ '\n' :: behind lines pad next))
      column i o)
    (hkey : isKeyWord key) (hshort : byteLength key ≤ 1024) (hvalue : Bare false value)
    (hlines : ∀ line ∈ lines, isComment line) (hnext : startsToken next) (hpad : pad ≤ column)
    (henter : enter column i o .blockMappingStart = (o', toks)) :
    ∃ s', StandsAt s' next pad column o' ∧ Scans s s' (toks ++ [.key,
      .scalar true (String.ofList key), .value, .scalar true (String.ofList value)]) := by
  obtain ⟨offset, line, k, hs⟩ := h
  obtain ⟨offset', k', hscan⟩ := scans_key hs hkey hshort rfl henter
  have hinner : (column : Int) < (column + key.length + 1 + 1 : Nat) := by omega
  have houter : (pad : Int) ≤ column := by omega
  obtain ⟨s', offset'', line', k'', hread, hs'⟩ :=
    scans_value (settle_blockState (startsToken_of_bare hvalue _)) hvalue (Nat.succ_ne_zero _)
      hinner hlines hnext houter
  refine ⟨s', ⟨offset'', line', k'', hs'⟩, ?_⟩
  simpa using hscan.trans hread

/-- A key with a flow sequence on its line. -/
theorem list (h : StandsAt s (key ++ ':' :: ' ' :: '[' :: ([',', ' '].intercalate items
      ++ ']' :: '\n' :: behind lines pad next)) column i o)
    (hkey : isKeyWord key) (hshort : byteLength key ≤ 1024)
    (hitems : ∀ item ∈ items, Bare true item)
    (hlines : ∀ line ∈ lines, isFiller line) (hnext : startsToken next)
    (henter : enter column i o .blockMappingStart = (o', toks)) :
    ∃ s', StandsAt s' next pad column o' ∧ Scans s s' (toks ++ [.key,
      .scalar true (String.ofList key), .value] ++ .flowSequenceStart :: itemTokens items) := by
  obtain ⟨offset, line, k, hs⟩ := h
  obtain ⟨offset', k', hscan⟩ := scans_key hs hkey hshort rfl henter
  have hinner : (column : Int) ≤ (column + key.length + 1 + 1 : Nat) := by omega
  obtain ⟨offset'', column', k'', hread⟩ := scans_flow (settle_blockState rfl) hitems hinner
  exact ⟨_, standsAt_lineEnd hlines hnext, hscan.trans hread⟩

/-- A key in front of lines of its own. -/
theorem field (h : StandsAt s (key ++ ':' :: '\n' :: behind lines pad next) column i o)
    (hkey : isKeyWord key) (hshort : byteLength key ≤ 1024)
    (hlines : ∀ line ∈ lines, isFiller line) (hnext : startsToken next)
    (henter : enter column i o .blockMappingStart = (o', toks)) :
    ∃ s', StandsAt s' next pad column o'
      ∧ Scans s s' (toks ++ [.key, .scalar true (String.ofList key), .value]) := by
  obtain ⟨offset, line, k, hs⟩ := h
  obtain ⟨offset', k', hscan⟩ := scans_key hs hkey hshort rfl henter
  exact ⟨_, standsAt_lineEnd hlines hnext, hscan⟩

/-- A dash in front of what stands on its line. -/
theorem item (h : StandsAt s ('-' :: ' ' :: next) column i o) (hcolumn : column ≠ 0)
    (hnext : startsToken next) (henter : enter column i o .blockSequenceStart = (o', toks)) :
    ∃ s', StandsAt s' next (column + 2) column o' ∧ Scans s s' (toks ++ [.blockEntry]) := by
  obtain ⟨offset, line, k, hs⟩ := h
  obtain ⟨offset', k', hscan⟩ := scans_dash hs hcolumn rfl henter
  exact ⟨_, ⟨_, _, _, settle_blockState hnext⟩, hscan⟩

/-- The end of the text closes all collections. -/
theorem finish {inner j : Int} {outer rest : List Int} {closers ends : List Token}
    (h : StandsAt s [] 0 i o) (hclose : closeUntil 0 i o [] = (inner, outer, closers))
    (hend : closeUntil (-1) inner outer closers = (j, rest, ends)) :
    Ends s (ends ++ [.streamEnd]) := by
  intro fuel hfuel
  obtain ⟨fuel, rfl⟩ := Nat.exists_eq_add_one_of_ne_zero (Nat.ne_zero_of_lt hfuel)
  obtain ⟨offset, line, k, hs⟩ := h
  have hfetch : s.fetch = some ⟨⟨[], offset, line, 0⟩, ends ++ [.streamEnd], k, j, rest, 0, false,
      [none], true⟩ := by
    have hkeys : (blockState ⟨[], offset, line, 0⟩ k i o true).dropStaleKeys
        = some (blockState ⟨[], offset, line, 0⟩ k i o true) :=
      dropStaleKeys_eq (by simp [blockState])
    have hcloseBlocks := closeBlocks_blockState hclose ⟨[], offset, line, 0⟩ k true
    rw [fetch_eq, hs, fetchHere, hkeys]
    refine (congrArg fetchEnd hcloseBlocks).trans ?_
    simp [fetchEnd, closeBlocks, inFlow, hend, dropKey, possibleKey, setKey, allowKey, push]
  have hadvance := advance_of_fetch hfetch (dropStaleKeys_eq (by simp))
  rw [release_all (by simp)] at hadvance
  rw [tokens_succ hadvance]
  rfl

end StandsAt

end EnvLayers.Yaml.Scanner
