import EnvLayers.Proofs.Yaml.Settle

/-
Module: EnvLayers.Proofs.Yaml.Scan
Purpose: What a scan gives for a key with its colon, for a value, for a dash and for a flow
  sequence, where the scalars are written without quotes, and the state in front of what follows.
Main exports: Scanner.Scans, Scanner.enter, Scanner.scans_key, Scanner.scans_value,
  Scanner.scans_dash, Scanner.itemTokens, Scanner.scans_flow
-/

namespace EnvLayers.Yaml.Scanner

/-! ### Steps -/

/-- Reads one token and gives what is settled. -/
def advance (s : Scanner) : Option (List Token × Scanner) :=
  (s.fetch.bind dropStaleKeys).map release

/-- The scan goes on to another state, and the tokens are given on the way. -/
def Scans (s s' : Scanner) (toks : List Token) : Prop :=
  ∃ n, n + s'.cursor.rest.length ≤ s.cursor.rest.length
    ∧ ∀ fuel, tokens (n + fuel) s = toks ++ tokens fuel s'

theorem tokens_succ {s s' : Scanner} {toks : List Token} (h : s.advance = some (toks, s'))
    (fuel : Nat) : tokens (fuel + 1) s = if s'.ended then toks else toks ++ tokens fuel s' := by
  unfold advance at h
  rw [tokens]
  cases hfetch : s.fetch.bind dropStaleKeys with
  | none =>
      rw [hfetch] at h
      cases h
  | some next =>
      rw [hfetch, Option.map_some, Option.some.injEq] at h
      dsimp only
      rw [h]

namespace Scans

variable {s s' s'' : Scanner} {toks more : List Token}

theorem refl (s : Scanner) : Scans s s [] := ⟨0, by simp, by simp⟩

theorem trans (h : Scans s s' toks) (h' : Scans s' s'' more) : Scans s s'' (toks ++ more) := by
  obtain ⟨n, hn, htoks⟩ := h
  obtain ⟨m, hm, hmore⟩ := h'
  refine ⟨n + m, by omega, fun fuel => ?_⟩
  rw [Nat.add_assoc, htoks, hmore, List.append_assoc]

theorem of_advance (h : s.advance = some (toks, s')) (hended : s'.ended = false)
    (hlength : s'.cursor.rest.length < s.cursor.rest.length) : Scans s s' toks := by
  refine ⟨1, by omega, fun fuel => ?_⟩
  rw [Nat.add_comm, tokens_succ h, hended]
  rfl

end Scans

/-! ### The token at the cursor -/

/-- Reads the token that the cursor stands at. -/
def fetchHere (s : Scanner) : Option Scanner :=
  s.dropStaleKeys.bind fun s =>
    let s := s.closeBlocks s.cursor.column
    match s.cursor.head? with
    | none => s.fetchEnd
    | some char =>
      if s.cursor.column == 0 && char == '%' then s.fetchDirective
      else if s.cursor.atDocumentMark then
        s.fetchDocumentMark (if char == '-' then .documentStart else .documentEnd)
      else s.fetchAt char s.cursor.second?

theorem fetch_eq (s : Scanner) : s.fetch = s.settle.fetchHere := rfl

@[simp] theorem closeBlocks_cursor (s : Scanner) (column : Int) :
    (s.closeBlocks column).cursor = s.cursor := by
  unfold closeBlocks
  split <;> rfl

/-- A token that is neither a directive nor a mark between documents. -/
theorem fetchHere_eq {s : Scanner} {char : Char} {after : List Char}
    (hkeys : s.dropStaleKeys = some s) (hrest : s.cursor.rest = char :: after)
    (hdirective : char ≠ '%') (hmark : s.cursor.atDocumentMark = false) :
    s.fetchHere = (s.closeBlocks s.cursor.column).fetchAt char after.head? := by
  have hhead : s.cursor.head? = some char := by rw [Cursor.head?, hrest, List.head?_cons]
  have hnext : s.cursor.second? = after.head? := by rw [Cursor.second?, hrest]; rfl
  simp [fetchHere, hkeys, hhead, hnext, hdirective, hmark]

theorem isReserved_eq (char : Char) :
    isReserved char = (Style.isIndicator char || (char == '?' || char == ':' || char == '-')) := by
  rw [Bool.eq_iff_iff]
  simp only [isReserved, Style.isIndicator, String.reduceToList, List.contains_iff_mem,
    Bool.or_eq_true, beq_iff_eq, List.mem_cons, List.not_mem_nil]
  grind

/-- The characters that begin a scalar without quotes, with what follows. -/
theorem fetchAt_plain {s : Scanner} {char : Char} {next : Option Char}
    (hindicator : Style.isIndicator char = false) (hgap : isGap (some char) = false)
    (hsign : (char == '?' || char == ':' || char == '-') = true → isGap next = false)
    (hflow : s.inFlow = true → char ≠ '?' ∧ char ≠ ':') :
    s.fetchAt char next = s.fetchPlain := by
  have hbegins : beginsPlain s.inFlow char next = true := by
    unfold beginsPlain
    by_cases hnone : (char == '?' || char == ':' || char == '-') = true
    · have hnext := hsign hnone
      have hspace : next.any isSpace = false := by
        cases next with
        | none => rfl
        | some d => simp_all [isGap]
      simp only [Bool.or_eq_true, beq_iff_eq] at hnone
      rcases hnone with (rfl | rfl) | rfl
      · cases hin : s.inFlow <;> simp_all
      · cases hin : s.inFlow <;> simp_all
      · simp [hspace]
    · simp [hgap, isReserved_eq, hindicator, hnone]
  have hblock : (char == '|') = false ∧ (char == '>') = false := by
    constructor <;> rw [beq_eq_false_iff_ne] <;> rintro rfl <;> exact absurd hindicator (by decide)
  unfold fetchAt
  split
  case h_11 =>
    by_cases hnone : (char == '?' || char == ':' || char == '-') = true
    · have hnext := hsign hnone
      cases hin : s.inFlow <;> simp_all
    · simp_all
  all_goals exact absurd hindicator (by decide)

/-- A scalar without quotes at the cursor. -/
theorem fetchHere_plain {s : Scanner} {char : Char} {rest : List Char}
    (hkeys : s.dropStaleKeys = some s) (hrest : s.cursor.rest = char :: rest)
    (hstart : Style.startsConstruct char rest = false) (hgap : isGap (some char) = false)
    (hflow : s.inFlow = false ∨ char ≠ '?' ∧ char ≠ ':')
    (hmark : s.cursor.atDocumentMark = false) :
    s.fetchHere = (s.closeBlocks s.cursor.column).fetchPlain := by
  rw [Style.startsConstruct, Bool.or_eq_false_iff] at hstart
  obtain ⟨hindicator, hsign⟩ := hstart
  have hdirective : char ≠ '%' := by
    rintro rfl
    cases hindicator
  have hinFlow : (s.closeBlocks s.cursor.column).inFlow = s.inFlow := by
    unfold closeBlocks
    split <;> rfl
  rw [fetchHere_eq hkeys hrest hdirective hmark]
  exact fetchAt_plain hindicator hgap (fun h => by simpa [h] using hsign) fun h =>
    hflow.resolve_left (by simp [← hinFlow, h])

section Plain

variable {s : Scanner} {text : List Char} {broken : Bool} {c : Cursor}

/-- Where no key may stand, a scalar is no possible key. -/
theorem fetchPlain_value (hallowed : s.keyAllowed = false)
    (hread : Scalar.readPlain s.inFlow (s.indent + 1).toNat s.cursor = some (text, broken, c)) :
    s.fetchPlain = some { s with
      cursor := c
      queue := s.queue ++ [.scalar true (String.ofList text)]
      keyAllowed := broken } := by
  simp [fetchPlain, saveKey, hallowed, hread, takeTo, push, allowKey]

/-- Where a key may stand, a scalar is a possible one. -/
theorem fetchPlain_key (hallowed : s.keyAllowed = true) (hkey : s.possibleKey = none)
    (hread : Scalar.readPlain s.inFlow (s.indent + 1).toNat s.cursor = some (text, broken, c)) :
    s.fetchPlain = some { s with
      cursor := c
      queue := s.queue ++ [.scalar true (String.ofList text)]
      keyAllowed := broken
      keys := some ⟨!s.inFlow && s.indent == s.cursor.column, s.released + s.queue.length,
        s.cursor.offset, s.cursor.line, s.cursor.column⟩ :: s.keys.drop 1 } := by
  have hsaved : s.saveKey = some { s with
      keys := some ⟨!s.inFlow && s.indent == s.cursor.column, s.released + s.queue.length,
        s.cursor.offset, s.cursor.line, s.cursor.column⟩ :: s.keys.drop 1 } := by
    simp [saveKey, dropKey, hallowed, hkey, setKey]
  have hread' : ∀ keys, Scalar.readPlain { s with keys := keys }.inFlow (s.indent + 1).toNat
      s.cursor = some (text, broken, c) := fun _ => hread
  simp [fetchPlain, hsaved, hread', takeTo, push, allowKey]

end Plain

/-! ### Keys -/

/-- The state between two lines of block collections, where nothing waits in the queue. -/
def blockState (c : Cursor) (released : Nat) (indent : Int) (outer : List Int) (allowed : Bool) :
    Scanner :=
  ⟨c, [], released, indent, outer, 0, allowed, [none], false⟩

theorem closeBlocks_blockState {column i i' : Int} {o o' : List Int} {closers : List Token}
    (h : closeUntil column i o [] = (i', o', closers)) (c : Cursor) (k : Nat) (allowed : Bool) :
    (blockState c k i o allowed).closeBlocks column
      = ⟨c, closers, k, i', o', 0, allowed, [none], false⟩ := by
  simp [closeBlocks, blockState, inFlow, h]

/-- A word that can stand in front of a colon. -/
def isKeyWord : List Char → Bool
  | [] => false
  | c :: rest =>
    !isReserved c && c != '.' && !isByteOrderMark c
      && (c :: rest).all fun d => !isGap (some d) && d != ':'

theorem plainRun_key {key after : List Char}
    (hkey : key.all fun c => !isGap (some c) && c != ':') (hafter : isGap after.head?) :
    Scalar.plainRun false (key ++ ':' :: after) = some key := by
  induction key with
  | nil =>
      have hcolon : isGap (some ':') = false := rfl
      simp [Scalar.plainRun, hafter, hcolon]
  | cons c key ih =>
      rw [List.all_cons, Bool.and_eq_true] at hkey
      obtain ⟨hc, hkey⟩ := hkey
      rw [Bool.and_eq_true, Bool.not_eq_true', bne_iff_ne] at hc
      simp [Scalar.plainRun, hc, ih hkey]

theorem atDocumentMark_of_head {c : Cursor} {d : Char} {rest : List Char} (h : c.rest = d :: rest)
    (hdash : d ≠ '-') (hdot : d ≠ '.') : c.atDocumentMark = false := by
  simp [Cursor.atDocumentMark, h, List.isPrefixOf, Ne.symm hdash, Ne.symm hdot]

theorem readPlain_key {limit : Nat} {c : Cursor} {key after : List Char}
    (h : c.rest = key ++ ':' :: after) (hkey : isKeyWord key) (hafter : isGap after.head?) :
    Scalar.readPlain false limit c = some (key, false, c.skip key.length) := by
  cases key with
  | nil =>
      cases hkey
  | cons d key =>
      simp only [isKeyWord, Bool.and_eq_true, Bool.not_eq_true', bne_iff_ne] at hkey
      obtain ⟨⟨⟨hreserved, hdot⟩, -⟩, hword⟩ := hkey
      have hmark : c.atDocumentMark = false := by
        refine atDocumentMark_of_head h ?_ hdot
        rintro rfl
        cases hreserved
      have hcomment : c.at? '#' = false := by
        rw [Cursor.at?, Cursor.head?, h, beq_eq_false_iff_ne]
        rintro hd
        cases hd
        cases hreserved
      have hrun := plainRun_key hword hafter
      have hcolon : (c.skip (d :: key).length).head? = some ':' := by
        rw [Cursor.head?, Cursor.rest_skip h]
        rfl
      have hgap : isGap (some ':') = false := rfl
      rw [Scalar.readPlain, Scalar.plainFrom, hmark, hcomment, h, hrun]
      simp only [List.length_cons] at hcolon
      simp [hcolon, hgap, Gap.fold, Gap.empty]

/-- A key is read, and it waits for its colon. -/
theorem fetch_key {s : Scanner} {key after : List Char} {offset line column k : Nat}
    {i i' : Int} {o o' : List Int} {closers : List Token}
    (hs : s.settle = blockState ⟨key ++ ':' :: after, offset, line, column⟩ k i o true)
    (hkey : isKeyWord key) (hafter : isGap after.head?)
    (hclose : closeUntil column i o [] = (i', o', closers)) :
    s.fetch = some
      ⟨⟨':' :: after, offset + byteLength key, line, column + key.length⟩,
        closers ++ [.scalar true (String.ofList key)], k, i', o', 0, false,
        [some ⟨i' == column, k + closers.length, offset, line, column⟩], false⟩ := by
  cases key with
  | nil =>
      cases hkey
  | cons d key =>
      have hchars := hkey
      simp only [isKeyWord, Bool.and_eq_true, Bool.not_eq_true', bne_iff_ne, List.all_cons]
        at hchars
      obtain ⟨⟨⟨hreserved, hdot⟩, -⟩, ⟨hgap, -⟩, -⟩ := hchars
      rw [isReserved_eq, Bool.or_eq_false_iff] at hreserved
      have hdash : d ≠ '-' := by
        rintro rfl
        cases hreserved.2
      have hstart : Style.startsConstruct d (key ++ ':' :: after) = false := by
        simp [Style.startsConstruct, hreserved]
      rw [fetch_eq, hs, fetchHere_plain rfl rfl hstart hgap (.inl rfl)
        (atDocumentMark_of_head rfl hdash hdot)]
      have hcloseBlocks := closeBlocks_blockState hclose
        ⟨d :: key ++ ':' :: after, offset, line, column⟩ k true
      have hread : Scalar.readPlain false (i' + 1).toNat
          ⟨d :: key ++ ':' :: after, offset, line, column⟩ = _ :=
        readPlain_key rfl hkey hafter
      have hplain := fetchPlain_key (s := ⟨⟨d :: key ++ ':' :: after, offset, line, column⟩,
        closers, k, i', o', 0, true, [none], false⟩) rfl rfl hread
      refine (congrArg fetchPlain hcloseBlocks).trans (hplain.trans ?_)
      simp [Cursor.skip, inFlow]

theorem advance_of_fetch {s t : Scanner} (hfetch : s.fetch = some t)
    (hkeys : t.dropStaleKeys = some t) : s.advance = some t.release := by
  simp [advance, hfetch, hkeys]

/-- Where no key is possible, the whole queue is given. -/
theorem release_all {t : Scanner} (h : ∀ key ∈ t.keys, key = none) :
    t.release = (t.queue, { t with queue := [], released := t.released + t.queue.length }) := by
  have hkeys : t.keys = List.replicate t.keys.length none := List.eq_replicate_of_mem h
  have hsettled : t.settled = t.queue.length := by
    rw [settled, hkeys]
    induction t.keys.length with
    | zero => rfl
    | succ n ih => exact ih
  simp [release, hsettled]

theorem dropStaleKeys_eq {t : Scanner}
    (h : ∀ key ∈ t.keys, key.any (KeyStart.isStale t.cursor) = false) :
    t.dropStaleKeys = some t := by
  have hmap : t.keys.map (fun key =>
      if key.any (KeyStart.isStale t.cursor) then none else key) = t.keys := by
    have hsame : ∀ key ∈ t.keys,
        (if key.any (KeyStart.isStale t.cursor) then none else key) = id key :=
      fun key hkey => by simp [h key hkey]
    rw [List.map_congr_left hsame, List.map_id]
  have hany : (t.keys.any fun key =>
      key.any (KeyStart.isStale t.cursor) && key.any (·.required)) = false := by
    rw [List.any_eq_false]
    intro key hkey
    simp [h key hkey]
  simp [dropStaleKeys, hany, hmap]

/-- The block collections that are open once one at a column is, and the token of its start where
it was not open before. -/
def opens (column : Nat) (i : Int) (o : List Int) (start : Token) : Int × List Int × List Token :=
  if (column : Int) ≤ i then (i, o, []) else (column, i :: o, [start])

theorem closeUntil_le {column : Nat} (i : Int) (o : List Int) (queue : List Token) :
    (closeUntil column i o queue).1 ≤ column := by
  induction o generalizing i queue with
  | nil =>
      rw [closeUntil.eq_def]
      split
      · assumption
      · show (-1 : Int) ≤ column
        omega
  | cons outer o ih =>
      rw [closeUntil.eq_def]
      split
      · assumption
      · exact ih outer _

/-- The block collections outside of the one at a column, once a key or an item stands there, and
the tokens that the column implies: the ends of the collections that are further in, and the start
of its own where that was not open before. -/
def enter (column : Nat) (i : Int) (o : List Int) (start : Token) : List Int × List Token :=
  let (i, o, closers) := closeUntil column i o []
  let (_, o, starts) := opens column i o start
  (o, closers ++ starts)

theorem exists_of_enter {column : Nat} {i : Int} {o o' : List Int} {start : Token}
    {toks : List Token} (h : enter column i o start = (o', toks)) :
    ∃ inner open' closers starts, closeUntil column i o [] = (inner, open', closers)
      ∧ inner ≤ column ∧ opens column inner open' start = ((column : Int), o', starts)
      ∧ toks = closers ++ starts := by
  have hle : (closeUntil column i o []).1 ≤ column := closeUntil_le i o []
  unfold enter at h
  obtain ⟨inner, open', closers, hclose⟩ : ∃ inner open' closers,
      closeUntil column i o [] = (inner, open', closers) := ⟨_, _, _, rfl⟩
  rw [hclose] at h hle
  dsimp only at h hle
  unfold opens at h
  refine ⟨inner, open', closers, if (column : Int) ≤ inner then [] else [start], hclose, hle, ?_,
    ?_⟩
  · unfold opens
    split
    · next hinner => simp_all [Int.le_antisymm hle hinner]
    · simp_all
  · split at h
    · next hinner => simp_all
    · next hinner =>
      rw [if_neg hinner]
      exact (congrArg Prod.snd h).symm

theorem closeUntil_eq_self {column i : Int} (h : i ≤ column) (o : List Int) (queue : List Token) :
    closeUntil column i o queue = (i, o, queue) := by
  rw [closeUntil.eq_def, if_pos h]

theorem closeBlocks_eq_self {s : Scanner} {column : Int} (h : s.inFlow = true ∨ s.indent ≤ column) :
    s.closeBlocks column = s := by
  unfold closeBlocks
  split
  · rfl
  · next hflow =>
    rw [closeUntil_eq_self (h.resolve_left hflow)]

/-- The state behind a key, which waits for its colon. -/
def keyState (c : Cursor) (tok : Token) (released : Nat) (indent : Int) (outer : List Int)
    (key : KeyStart) : Scanner :=
  ⟨c, [tok], released, indent, outer, 0, false, [some key], false⟩

/-- The colon behind a key makes it one, and opens a mapping where none is open at the key. -/
theorem fetch_colon {after : List Char} {offset line column column' k keyOffset : Nat}
    {i i' : Int} {o o' : List Int} {tok : Token} {starts : List Token} {required : Bool}
    (hafter : isGap after.head?) (hinner : i ≤ column') (hcolumn : column' ≤ column)
    (hshort : offset ≤ keyOffset + 1024)
    (hopen : opens column' i o .blockMappingStart = (i', o', starts)) :
    (keyState ⟨':' :: after, offset, line, column⟩ tok k i o
        ⟨required, k, keyOffset, line, column'⟩).fetch
      = some ⟨⟨after, offset + 1, line, column + 1⟩, starts ++ [.key, tok, .value], k, i', o', 0,
        false, [none], false⟩ := by
  generalize ht : keyState ⟨':' :: after, offset, line, column⟩ tok k i o
    ⟨required, k, keyOffset, line, column'⟩ = t
  have hsettle : t.settle = t := by
    subst ht
    rw [settle_token (n := 0) rfl (show startsToken (':' :: after) from rfl), Cursor.skip_zero]
  have hkeys : t.dropStaleKeys = some t := by
    subst ht
    exact dropStaleKeys_eq (by simp [keyState, KeyStart.isStale, hshort])
  have hclose : t.closeBlocks t.cursor.column = t := by
    subst ht
    exact closeBlocks_eq_self (.inr (by dsimp only [keyState]; omega))
  have hmark : t.cursor.atDocumentMark = false := by
    subst ht
    exact atDocumentMark_of_head rfl (by decide) (by decide)
  have hrest : t.cursor.rest = ':' :: after := by
    subst ht
    rfl
  have hfetch : t.fetch = t.fetchValue := by
    rw [fetch_eq, hsettle, fetchHere_eq hkeys hrest (by decide) hmark, hclose]
    simp [fetchAt, hafter]
  have hsize : ':'.utf8Size = 1 := rfl
  rw [hfetch]
  subst ht
  unfold opens at hopen
  split at hopen
  · next hle =>
    cases hopen
    simp [keyState, fetchValue, possibleKey, insert, openBlock, hle, setKey, allowKey, take, push,
      Cursor.skip, byteLength, hsize]
  · next hlt =>
    cases hopen
    simp [keyState, fetchValue, possibleKey, insert, openBlock, inFlow, hlt, setKey, allowKey, take,
      push, Cursor.skip, byteLength, hsize]

/-- A key and its colon are read. The tokens begin with those that the column of the key implies. -/
theorem scans_key {s : Scanner} {key after : List Char} {offset line column k : Nat}
    {i : Int} {o o' : List Int} {toks : List Token}
    (hs : s.settle = blockState ⟨key ++ ':' :: after, offset, line, column⟩ k i o true)
    (hkey : isKeyWord key) (hshort : byteLength key ≤ 1024) (hafter : isGap after.head?)
    (henter : enter column i o .blockMappingStart = (o', toks)) :
    ∃ offset' k', Scans s
      (blockState ⟨after, offset', line, column + key.length + 1⟩ k' column o' false)
      (toks ++ [.key, .scalar true (String.ofList key), .value]) := by
  obtain ⟨inner, o₁, closers, starts, hclose, hinner, hopen, rfl⟩ := exists_of_enter henter
  have hlength : (key ++ ':' :: after).length ≤ s.cursor.rest.length := by
    have h := s.length_settle_le
    rwa [hs] at h
  have hkeyLength : key ≠ [] := by
    rintro rfl
    cases hkey
  generalize hwaiting : keyState ⟨':' :: after, offset + byteLength key, line, column + key.length⟩
    (.scalar true (String.ofList key)) (k + closers.length) inner o₁
    ⟨inner == column, k + closers.length, offset, line, column⟩ = waiting
  have hfirst : s.advance = some (closers, waiting) := by
    rw [advance_of_fetch (fetch_key hs hkey hafter hclose)
      (dropStaleKeys_eq (by simp [KeyStart.isStale, hshort])), ← hwaiting]
    simp [keyState, release, settled]
  have hsecond : waiting.advance
      = some (starts ++ [.key, .scalar true (String.ofList key), .value],
        blockState ⟨after, offset + byteLength key + 1, line, column + key.length + 1⟩
          (k + closers.length + (starts.length + 3)) column o' false) := by
    rw [← hwaiting, advance_of_fetch (fetch_colon hafter hinner
      (Nat.le_add_right column key.length) (Nat.add_le_add_left hshort offset) hopen)
      (dropStaleKeys_eq (by simp)), release_all (by simp)]
    simp [blockState]
  have hrest : waiting.cursor.rest = ':' :: after := hwaiting ▸ rfl
  have hended : waiting.ended = false := hwaiting ▸ rfl
  rw [List.length_append, List.length_cons] at hlength
  have hkeyPos := List.length_pos_iff.mpr hkeyLength
  rw [List.append_assoc]
  exact ⟨_, _, (Scans.of_advance hfirst hended (by rw [hrest, List.length_cons]; omega)).trans
    (Scans.of_advance hsecond rfl (by simp [blockState, hrest]))⟩

/-! ### Values -/

theorem startsConstruct_append {char e : Char} {rest : List Char} (tail : List Char)
    (h : Style.startsConstruct char rest = false) :
    Style.startsConstruct char (rest ++ e :: tail) = false := by
  cases rest with
  | nil =>
      simp_all [Style.startsConstruct, isGap]
  | cons d rest =>
      exact h

/-- The value behind a colon is read with the lines without tokens behind it. The next token does
not stand further in than the mapping. -/
theorem scans_value {s : Scanner} {value next : List Char} {lines : List (List Char)}
    {offset line column pad k : Nat} {i : Int} {o : List Int}
    (hs : s.settle = blockState ⟨value ++ '\n' :: (linesText lines
      ++ (List.replicate pad ' ' ++ next)), offset, line, column⟩ k i o false)
    (hvalue : Bare false value) (hcolumn : column ≠ 0) (hinner : i < column)
    (hlines : ∀ line ∈ lines, isComment line) (hnext : startsToken next) (hpad : (pad : Int) ≤ i) :
    ∃ s' offset' line' k', Scans s s' [.scalar true (String.ofList value)]
      ∧ s'.settle = blockState ⟨next, offset', line', pad⟩ k' i o true := by
  generalize htail : linesText lines ++ (List.replicate pad ' ' ++ next) = tail at hs
  have hlength : (value ++ '\n' :: tail).length ≤ s.cursor.rest.length := by
    have h := s.length_settle_le
    rwa [hs] at h
  generalize hc : (⟨value ++ '\n' :: tail, offset, line, column⟩ : Cursor) = c at hs
  have hrest : c.rest = value ++ '\n' :: tail := hc ▸ rfl
  have hbreak := Cursor.rest_skip hrest
  have hline : ((c.skip value.length).nextLine 1).rest
      = linesText lines ++ (List.replicate pad ' ' ++ next) := by
    simp [Cursor.nextLine, hbreak, htail]
  obtain ⟨gap, behind, hread, hbroken, hbehind, hleft, hsettle⟩ :=
    readGap_lines (i + 1).toNat (Gap.empty.addBreak '\n') hlines rfl rfl hline hnext
  have hplace : c.column = column := hc ▸ rfl
  have hplain : Scalar.readPlain false (i + 1).toNat c = some (value, true, behind) :=
    Scalar.readPlain_bare rfl hvalue hrest ⟨hplace ▸ hcolumn, by omega⟩
      ⟨gap, (Cursor.readGap_feed _ hbreak).trans hread, hbroken, by omega⟩
  have hfetch : s.fetch = some ⟨behind, [.scalar true (String.ofList value)], k, i, o, 0, true,
      [none], false⟩ := by
    obtain ⟨d, rest, rfl⟩ := List.exists_cons_of_ne_nil hvalue.nonempty
    obtain ⟨hstart, hgap, -⟩ := hvalue.start _ _ rfl
    have hmark : c.atDocumentMark = false := by simp [Cursor.atDocumentMark, hplace, hcolumn]
    have hclose : (blockState c k i o false).closeBlocks c.column = blockState c k i o false :=
      closeBlocks_eq_self (.inr (by rw [hplace]; exact Int.le_of_lt hinner))
    rw [fetch_eq, hs, fetchHere_plain (dropStaleKeys_eq (by simp [blockState])) hrest
      (startsConstruct_append tail hstart) hgap (.inl rfl) hmark]
    exact (congrArg fetchPlain hclose).trans (fetchPlain_value (s := blockState c k i o false) rfl
      hplain)
  have hadvance : s.advance = some ([.scalar true (String.ofList value)],
      blockState behind (k + 1) i o true) := by
    rw [advance_of_fetch hfetch (dropStaleKeys_eq (by simp)), release_all (by simp)]
    rfl
  obtain ⟨offset', line', hsettled⟩ := hsettle (blockState behind (k + 1) i o true) rfl rfl rfl
  refine ⟨_, offset', line', k + 1, Scans.of_advance hadvance rfl ?_, hsettled⟩
  have hpast : ((c.skip value.length).nextLine 1).rest.length = tail.length := by rw [hline, htail]
  rw [List.length_append, List.length_cons] at hlength
  dsimp only [blockState]
  omega

/-! ### Items -/

/-- A dash is read. The tokens begin with those that the column of the dash implies. -/
theorem scans_dash {s : Scanner} {after : List Char} {offset line column k : Nat}
    {i : Int} {o o' : List Int} {toks : List Token}
    (hs : s.settle = blockState ⟨'-' :: after, offset, line, column⟩ k i o true)
    (hcolumn : column ≠ 0) (hafter : isGap after.head?)
    (henter : enter column i o .blockSequenceStart = (o', toks)) :
    ∃ offset' k', Scans s (blockState ⟨after, offset', line, column + 1⟩ k' column o' true)
      (toks ++ [.blockEntry]) := by
  obtain ⟨inner, o₁, closers, starts, hclose, -, hopen, rfl⟩ := exists_of_enter henter
  have hlength := s.length_settle_le
  rw [hs] at hlength
  have hmark : Cursor.atDocumentMark ⟨'-' :: after, offset, line, column⟩ = false := by
    simp [Cursor.atDocumentMark, hcolumn]
  have hfetch : s.fetch = some ⟨⟨after, offset + 1, line, column + 1⟩,
      closers ++ (starts ++ [.blockEntry]), k, column, o', 0, true, [none], false⟩ := by
    have hdash : '-'.utf8Size = 1 := rfl
    rw [fetch_eq, hs, fetchHere_eq (dropStaleKeys_eq (by simp [blockState])) rfl (by decide) hmark]
    refine (congrArg (fetchAt · '-' after.head?) (closeBlocks_blockState hclose _ k true)).trans ?_
    unfold opens at hopen
    split at hopen
    · next hle =>
      cases hopen
      simp [fetchAt, hafter, fetchBlockEntry, openHere, openBlock, dropKey, possibleKey,
        setKey, allowKey, take, push, Cursor.skip, byteLength, hdash]
    · next hlt =>
      cases hopen
      simp [fetchAt, hafter, fetchBlockEntry, openHere, openBlock, inFlow, hlt, dropKey,
        possibleKey, setKey, allowKey, take, push, Cursor.skip, byteLength, hdash]
  have hadvance := advance_of_fetch hfetch (dropStaleKeys_eq (by simp))
  rw [release_all (by simp)] at hadvance
  rw [List.append_assoc]
  exact ⟨_, _, Scans.of_advance hadvance rfl hlength⟩

/-! ### Flow sequences -/

/-- The state inside a flow sequence, where an item may wait in the queue as a possible key. -/
def itemState (c : Cursor) (queue : List Token) (released : Nat) (indent : Int) (outer : List Int)
    (allowed : Bool) (key : Option KeyStart) : Scanner :=
  ⟨c, queue, released, indent, outer, 1, allowed, [key, none], false⟩

/-- The state in front of an item, where nothing waits. -/
abbrev flowState (c : Cursor) (released : Nat) (indent : Int) (outer : List Int) : Scanner :=
  itemState c [] released indent outer true none

/-- The bracket that opens a sequence. -/
theorem scans_flowStart {s : Scanner} {after : List Char} {offset line column k : Nat} {i : Int}
    {o : List Int}
    (hs : s.settle = blockState ⟨'[' :: after, offset, line, column⟩ k i o false)
    (hinner : i ≤ column) :
    ∃ offset' k', Scans s (flowState ⟨after, offset', line, column + 1⟩ k' i o)
      [.flowSequenceStart] := by
  have hlength := s.length_settle_le
  rw [hs] at hlength
  have hfetch : s.fetch = some ⟨⟨after, offset + 1, line, column + 1⟩, [.flowSequenceStart], k, i,
      o, 1, true, [none, none], false⟩ := by
    have hbracket : '['.utf8Size = 1 := rfl
    have hmark : Cursor.atDocumentMark ⟨'[' :: after, offset, line, column⟩ = false :=
      atDocumentMark_of_head rfl (by decide) (by decide)
    have hclose : (blockState ⟨'[' :: after, offset, line, column⟩ k i o false).closeBlocks column
        = blockState ⟨'[' :: after, offset, line, column⟩ k i o false :=
      closeBlocks_eq_self (.inr hinner)
    rw [fetch_eq, hs, fetchHere_eq (dropStaleKeys_eq (by simp [blockState])) rfl (by decide) hmark]
    refine (congrArg (fetchAt · '[' after.head?) hclose).trans ?_
    simp [fetchAt, fetchFlowStart, saveKey, blockState, allowKey, take, push, Cursor.skip,
      byteLength, hbracket]
  have hadvance := advance_of_fetch hfetch (dropStaleKeys_eq (by simp))
  rw [release_all (by simp)] at hadvance
  exact ⟨_, _, Scans.of_advance hadvance rfl hlength⟩

/-- An item is read with the mark behind it. It may have turned out before to be no key. -/
theorem scans_item {s : Scanner} {item after : List Char} {e : Char}
    {offset line column k : Nat} {i : Int} {o : List Int}
    (hs : s.settle = flowState ⟨item ++ e :: after, offset, line, column⟩ k i o)
    (hitem : Bare true item) (hend : Scalar.isFlowMark e) (hcolumn : column ≠ 0)
    (hinner : i < column) :
    ∃ ready queue k' key, Scans s
        (itemState ⟨e :: after, offset + byteLength item, line, column + item.length⟩ queue k' i o
          false key) ready
      ∧ ready ++ queue = [.scalar true (String.ofList item)] ∧ key.any (·.required) = false
      ∧ key.any (KeyStart.isStale
        ⟨e :: after, offset + byteLength item, line, column + item.length⟩) = false := by
  generalize hc : (⟨item ++ e :: after, offset, line, column⟩ : Cursor) = c at hs
  have hrest : c.rest = item ++ e :: after := hc ▸ rfl
  have hplace : c.column = column := hc ▸ rfl
  have hbehind : c.skip item.length
      = ⟨e :: after, offset + byteLength item, line, column + item.length⟩ := by
    subst hc
    simp [Cursor.skip]
  have hplain : Scalar.readPlain true (i + 1).toNat c = some (item, false, c.skip item.length) :=
    Scalar.readPlain_bare hend hitem hrest ⟨hplace ▸ hcolumn, by omega⟩ ⟨rfl, rfl⟩
  have hfetch : s.fetch = some ⟨c.skip item.length, [.scalar true (String.ofList item)], k, i, o, 1,
      false, [some ⟨false, k, offset, line, column⟩, none], false⟩ := by
    obtain ⟨d, rest, rfl⟩ := List.exists_cons_of_ne_nil hitem.nonempty
    obtain ⟨hstart, hgap, -, hflow⟩ := hitem.start _ _ rfl
    have hmark : c.atDocumentMark = false := by simp [Cursor.atDocumentMark, hplace, hcolumn]
    have hclose : (flowState c k i o).closeBlocks c.column = flowState c k i o :=
      closeBlocks_eq_self (.inl rfl)
    rw [fetch_eq, hs, fetchHere_plain (dropStaleKeys_eq (by simp [itemState])) hrest
      (startsConstruct_append after hstart) hgap (.inr (hflow rfl)) hmark]
    refine (congrArg fetchPlain hclose).trans ((fetchPlain_key (s := flowState c k i o) rfl rfl
      hplain).trans ?_)
    subst hc
    rfl
  rw [hbehind] at hfetch
  have hshorter : (e :: after).length < s.cursor.rest.length := by
    have hlength := s.length_settle_le
    have hpos := List.length_pos_iff.mpr hitem.nonempty
    rw [hs] at hlength
    have hrest' : (flowState c k i o).cursor.rest = item ++ e :: after := hrest
    rw [hrest', List.length_append] at hlength
    omega
  -- A long item is given at once, as its start is no longer a possible key.
  by_cases hstale : KeyStart.isStale
      ⟨e :: after, offset + byteLength item, line, column + item.length⟩
      ⟨false, k, offset, line, column⟩ = true
  · refine ⟨[.scalar true (String.ofList item)], [], k + 1, none, Scans.of_advance ?_ rfl hshorter,
      rfl, rfl, rfl⟩
    simp [advance, hfetch, dropStaleKeys, hstale, release, settled, itemState]
  · refine ⟨[], [.scalar true (String.ofList item)], k, some ⟨false, k, offset, line, column⟩,
      Scans.of_advance ?_ rfl hshorter, rfl, rfl, by simpa using hstale⟩
    rw [advance_of_fetch hfetch (dropStaleKeys_eq (by simpa using hstale))]
    simp [release, settled, itemState]

section Marks

variable {after : List Char} {offset line column k : Nat} {i : Int} {o : List Int}
  {queue : List Token} {allowed : Bool} {key : Option KeyStart} {e : Char}

/-- A mark in a flow sequence is read behind an item, or behind the bracket that opens the sequence.
-/
theorem fetch_mark (hend : e = ',' ∨ e = ']')
    (hfresh : key.any (KeyStart.isStale ⟨e :: after, offset, line, column⟩) = false) :
    (itemState ⟨e :: after, offset, line, column⟩ queue k i o allowed key).fetch
      = (itemState ⟨e :: after, offset, line, column⟩ queue k i o allowed key).fetchAt e
        after.head? := by
  generalize ht : itemState ⟨e :: after, offset, line, column⟩ queue k i o allowed key = t
  have hsettle : t.settle = t := by
    have htoken : startsToken (e :: after) := by rcases hend with rfl | rfl <;> rfl
    subst ht
    rw [settle_token (n := 0) rfl htoken, Cursor.skip_zero]
  have hkeys : t.dropStaleKeys = some t := by
    subst ht
    exact dropStaleKeys_eq (by simp [itemState, hfresh])
  have hclose : t.closeBlocks t.cursor.column = t := by
    subst ht
    exact closeBlocks_eq_self (.inl rfl)
  have hmark : t.cursor.atDocumentMark = false := by
    subst ht
    rcases hend with rfl | rfl <;> exact atDocumentMark_of_head rfl (by decide) (by decide)
  have hrest : t.cursor.rest = e :: after := by
    subst ht
    rfl
  have hdirective : e ≠ '%' := by rcases hend with rfl | rfl <;> decide
  rw [fetch_eq, hsettle, fetchHere_eq hkeys hrest hdirective hmark, hclose]

/-- A mark that ends an item, and what waits before it, are given at once, as no key is possible
behind it. -/
theorem scans_mark {depth : Nat} {allowed' : Bool} {keys : List (Option KeyStart)} {mark : Token}
    (hend : e = ',' ∨ e = ']')
    (hfresh : key.any (KeyStart.isStale ⟨e :: after, offset, line, column⟩) = false)
    (hkeys : ∀ start ∈ keys, start = none)
    (hmark : (itemState ⟨e :: after, offset, line, column⟩ queue k i o allowed key).fetchAt e
        after.head?
      = some ⟨⟨after, offset + 1, line, column + 1⟩, queue ++ [mark], k, i, o, depth, allowed',
        keys, false⟩) :
    Scans (itemState ⟨e :: after, offset, line, column⟩ queue k i o allowed key)
      ⟨⟨after, offset + 1, line, column + 1⟩, [], k + (queue.length + 1), i, o, depth, allowed',
        keys, false⟩
      (queue ++ [mark]) := by
  have hfetch := (fetch_mark hend hfresh).trans hmark
  have hnone : ∀ start ∈ keys, start.any (KeyStart.isStale ⟨after, offset + 1, line, column + 1⟩)
      = false := by
    intro start hstart
    rw [hkeys start hstart]
    rfl
  have hadvance := advance_of_fetch hfetch (dropStaleKeys_eq hnone)
  rw [release_all hkeys, List.length_append] at hadvance
  exact Scans.of_advance hadvance rfl (Nat.lt_succ_self _)

theorem scans_comma (hrequired : key.any (·.required) = false)
    (hfresh : key.any (KeyStart.isStale ⟨',' :: after, offset, line, column⟩) = false) :
    Scans (itemState ⟨',' :: after, offset, line, column⟩ queue k i o allowed key)
      (flowState ⟨after, offset + 1, line, column + 1⟩ (k + (queue.length + 1)) i o)
      (queue ++ [.flowEntry]) := by
  have hcomma : ','.utf8Size = 1 := rfl
  apply scans_mark (.inl rfl) hfresh (by simp)
  simp [fetchAt, fetchFlowEntry, dropKey, possibleKey, itemState, hrequired, setKey, allowKey, take,
    push, Cursor.skip, byteLength, hcomma]

theorem scans_flowEnd (hrequired : key.any (·.required) = false)
    (hfresh : key.any (KeyStart.isStale ⟨']' :: after, offset, line, column⟩) = false) :
    Scans (itemState ⟨']' :: after, offset, line, column⟩ queue k i o allowed key)
      (blockState ⟨after, offset + 1, line, column + 1⟩ (k + (queue.length + 1)) i o false)
      (queue ++ [.flowSequenceEnd]) := by
  have hbracket : ']'.utf8Size = 1 := rfl
  apply scans_mark (.inr rfl) hfresh (by simp)
  simp [fetchAt, fetchFlowEnd, dropKey, possibleKey, itemState, hrequired, setKey, allowKey, inFlow,
    take, push, Cursor.skip, byteLength, hbracket]

end Marks

/-- The tokens behind an item. -/
def moreTokens : List (List Char) → List Token
  | [] => [.flowSequenceEnd]
  | item :: rest => .flowEntry :: .scalar true (String.ofList item) :: moreTokens rest

/-- The tokens behind the bracket that opens a sequence. -/
def itemTokens : List (List Char) → List Token
  | [] => [.flowSequenceEnd]
  | item :: rest => .scalar true (String.ofList item) :: moreTokens rest

theorem startsToken_items {item : List Char} {items : List (List Char)}
    (hitem : Bare true item) (tail : List Char) :
    startsToken ([',', ' '].intercalate (item :: items) ++ tail) := by
  obtain ⟨more, hmore⟩ : ∃ more, [',', ' '].intercalate (item :: items) = item ++ more := by
    cases items <;> simp
  rw [hmore, List.append_assoc]
  exact startsToken_of_bare hitem _

/-- Items with a comma and a space between them are read up to the closing bracket. -/
theorem scans_items {item : List Char} {items : List (List Char)} {after : List Char} {i : Int}
    {o : List Int} (hitems : ∀ it ∈ item :: items, Bare true it) {s : Scanner}
    {offset line column k : Nat} (hcolumn : column ≠ 0) (hinner : i < column)
    (hs : s.settle = flowState
      ⟨[',', ' '].intercalate (item :: items) ++ ']' :: after, offset, line, column⟩ k i o) :
    ∃ offset' column' k', Scans s (blockState ⟨after, offset', line, column'⟩ k' i o false)
      (itemTokens (item :: items)) := by
  induction items generalizing item s offset column k with
  | nil =>
      rw [List.intercalate_singleton] at hs
      obtain ⟨ready, queue, k', key, hitem, hqueue, hrequired, hfresh⟩ :=
        scans_item hs (hitems item (by simp)) rfl hcolumn hinner
      have hend := hitem.trans (scans_flowEnd hrequired hfresh)
      rw [← List.append_assoc, hqueue] at hend
      exact ⟨_, _, _, hend⟩
  | cons next items ih =>
      rw [List.intercalate_cons_cons] at hs
      simp only [List.append_assoc, List.cons_append, List.nil_append] at hs
      obtain ⟨ready, queue, k', key, hitem, hqueue, hrequired, hfresh⟩ :=
        scans_item hs (hitems item (by simp)) rfl hcolumn hinner
      have hcomma := hitem.trans (scans_comma hrequired hfresh)
      rw [← List.append_assoc, hqueue] at hcomma
      have hnext : startsToken ([',', ' '].intercalate (next :: items) ++ ']' :: after) :=
        startsToken_items (hitems next (by simp)) _
      have hsettle := settle_space (s := flowState ⟨' ' :: ([',', ' '].intercalate (next :: items)
        ++ ']' :: after), offset + byteLength item + 1, line, column + item.length + 1⟩
        (k' + (queue.length + 1)) i o) rfl hnext
      obtain ⟨offset', column', k'', hrest⟩ :=
        ih (fun it hit => hitems it (List.mem_cons_of_mem _ hit)) (by omega) (by omega) hsettle
      exact ⟨_, _, _, hcomma.trans hrest⟩

/-- A whole sequence is read. -/
theorem scans_flow {s : Scanner} {items : List (List Char)} {after : List Char}
    {offset line column k : Nat} {i : Int} {o : List Int}
    (hs : s.settle = blockState
      ⟨'[' :: ([',', ' '].intercalate items ++ ']' :: after), offset, line, column⟩ k i o false)
    (hitems : ∀ item ∈ items, Bare true item) (hinner : i ≤ column) :
    ∃ offset' column' k', Scans s (blockState ⟨after, offset', line, column'⟩ k' i o false)
      (.flowSequenceStart :: itemTokens items) := by
  obtain ⟨offset', k', hstart⟩ := scans_flowStart hs hinner
  cases items with
  | nil =>
      exact ⟨_, _, _, hstart.trans (scans_flowEnd rfl rfl)⟩
  | cons item items =>
      have hitem : startsToken ([',', ' '].intercalate (item :: items) ++ ']' :: after) :=
        startsToken_items (hitems item (by simp)) _
      have hsettle := settle_token (s := flowState ⟨[',', ' '].intercalate (item :: items)
        ++ ']' :: after, offset', line, column + 1⟩ k' i o) (n := 0) rfl hitem
      rw [Cursor.skip_zero] at hsettle
      have hinside : i < (column + 1 : Nat) := by omega
      obtain ⟨offset'', column', k'', hrest⟩ :=
        scans_items hitems (Nat.succ_ne_zero column) hinside hsettle
      exact ⟨_, _, _, hstart.trans hrest⟩

end EnvLayers.Yaml.Scanner
