import EnvLayers.Proofs.Yaml.Scan
import EnvLayers.Yaml.Read

/-
Module: EnvLayers.Proofs.Yaml.Spelling
Purpose: What the tokens of block mappings, block sequences and flow sequences stand for when their
  scalars have no quotes: from the tokens over the events and the nodes to the value. Each form has
  one lemma, and larger documents are put together from them.
Main exports: Spells, Spells.plain, Spells.flow, Spells.seq, Spells.map, Spells.read
-/

namespace EnvLayers.Yaml

/-! ### From tokens to events -/

namespace EventReader

/-- The reader passes the tokens and adds the events. -/
def Reads (r : EventReader Unit) (toks : List Token) (events : List Event) : Prop :=
  ∀ rest anchors before, r.run ⟨toks ++ rest, anchors, before⟩
    = (some (), ⟨rest, anchors, events.reverse ++ before⟩)

theorem run_bind {α β : Type} {r : EventReader α} {p q : Progress} {a : α}
    (next : α → EventReader β) (h : r.run p = (some a, q)) :
    (r >>= next).run p = (next a).run q := by
  have hbind : (r >>= next).run p = (r.run >>= fun
      | some a => (next a).run
      | none => pure none : StateM Progress (Option β)) p := rfl
  rw [hbind]
  exact congrArg (fun out : Option α × Progress => (match out.1 with
    | some a => (next a).run
    | none => pure none : StateM Progress (Option β)) out.2) h

/-- The token begins a node that has neither an anchor nor a tag. -/
def beginsNode : Token → Bool
  | .scalar .. | .flowSequenceStart | .blockSequenceStart | .blockMappingStart => true
  | _ => false

/-- The tokens are those of a node, which the events make up. -/
structure ReadsNode (toks : List Token) (events : List Event) : Prop where
  begins : toks.head?.any beginsNode
  reads : ∀ handles fuel indentless, 2 * toks.length ≤ fuel →
    Reads (readNode handles fuel true indentless) toks events

variable {toks more : List Token} {events rest : List Event} {fuel : Nat} {ends : Token → Bool}

/-- A node stands where a place for one does not end at once. -/
theorem ReadsNode.unless (h : ReadsNode toks events) (hends : ∀ t, beginsNode t → ends t = false)
    (hfuel : 2 * toks.length < fuel) (handles : Handles) (indentless : Bool) :
    Reads (readUnless handles ends fuel true indentless) toks events := by
  obtain ⟨fuel, rfl⟩ := Nat.exists_eq_add_one_of_ne_zero (Nat.ne_zero_of_lt hfuel)
  obtain ⟨token, toks, rfl⟩ : ∃ token toks', toks = token :: toks' := by
    cases toks with
    | nil => cases h.begins
    | cons token toks => exact ⟨token, toks, rfl⟩
  intro rest anchors before
  have hunless : (readUnless handles ends (fuel + 1) true indentless).run
      ⟨token :: toks ++ rest, anchors, before⟩
      = (if ends token then emitEmpty else readNode handles fuel true indentless).run
        ⟨token :: toks ++ rest, anchors, before⟩ := rfl
  rw [hunless, hends token h.begins]
  exact h.reads handles fuel indentless (Nat.le_of_lt_succ hfuel) rest anchors before

theorem readsNode_plain (text : String) :
    ReadsNode [.scalar true text] [.scalar none none true text] := by
  refine ⟨rfl, fun handles fuel indentless hfuel rest anchors before => ?_⟩
  obtain ⟨fuel, rfl⟩ := Nat.exists_eq_add_one_of_ne_zero (Nat.ne_zero_of_lt hfuel)
  rfl

variable {handles : Handles}

/-- An item of a block sequence. -/
theorem reads_blockItems_cons (h : ReadsNode toks events)
    (hmore : Reads (blockItems handles fuel) more rest) (hfuel : 2 * toks.length < fuel) :
    Reads (blockItems handles (fuel + 1)) (.blockEntry :: (toks ++ more)) (events ++ rest) := by
  intro tail anchors before
  have hends : ∀ t, beginsNode t → endsBlockItem t = false := by
    intro t
    cases t <;> simp [beginsNode, endsBlockItem]
  have hitem := h.unless hends hfuel handles false (more ++ tail) anchors before
  have hrest := hmore tail anchors (events.reverse ++ before)
  have hstep := run_bind (fun _ => blockItems handles fuel) hitem
  rw [List.reverse_append, List.append_assoc, ← hrest, ← hstep, List.cons_append, List.append_assoc]
  rfl

/-- Reads what stands behind a key of a block mapping. -/
def behindKey (handles : Handles) (fuel : Nat) : EventReader Unit := do
  match ← peek with
  | .value =>
    skip
    readUnless handles endsBlockPart fuel true true
  | _ => emitEmpty
  blockEntries handles fuel

/-- An entry of a block mapping. -/
theorem reads_blockEntries_cons {value : List Token} {valueEvents : List Event}
    (h : ReadsNode toks events) (hvalue : ReadsNode value valueEvents)
    (hmore : Reads (blockEntries handles fuel) more rest) (hfuel : 2 * toks.length < fuel)
    (hfuel' : 2 * value.length < fuel) :
    Reads (blockEntries handles (fuel + 1)) (.key :: (toks ++ .value :: (value ++ more)))
      (events ++ (valueEvents ++ rest)) := by
  have hends : ∀ t, beginsNode t → endsBlockPart t = false := by
    intro t
    cases t <;> simp [beginsNode, endsBlockPart]
  intro tail anchors before
  have hkey := h.unless hends hfuel handles true (.value :: (value ++ (more ++ tail))) anchors
    before
  have hval := hvalue.unless hends hfuel' handles true (more ++ tail) anchors
    (events.reverse ++ before)
  have hrest := hmore tail anchors (valueEvents.reverse ++ (events.reverse ++ before))
  have hfirst := run_bind (fun _ => behindKey handles fuel) hkey
  have hsecond := run_bind (fun _ => blockEntries handles fuel) hval
  simp only [List.reverse_append, List.append_assoc, List.cons_append]
  rw [← hrest, ← hsecond]
  exact hfirst

/-- The events of scalars without quotes. -/
def plainEvents (texts : List String) : List Event := texts.map (.scalar none none true)

theorem length_moreTokens (items : List (List Char)) :
    (Scanner.moreTokens items).length = 2 * items.length + 1 := by
  induction items with
  | nil => rfl
  | cons _ items ih =>
      rw [Scanner.moreTokens, List.length_cons, List.length_cons, ih, List.length_cons]
      omega

/-- The items of a flow sequence that stand behind others. -/
theorem reads_moreTokens (items : List (List Char)) (hfuel : items.length < fuel) :
    Reads (flowItems handles fuel false) (Scanner.moreTokens items)
      (plainEvents (items.map String.ofList) ++ [.collectionEnd]) := by
  intro rest anchors before
  induction items generalizing fuel before with
  | nil =>
      obtain ⟨fuel, rfl⟩ := Nat.exists_eq_add_one_of_ne_zero (Nat.ne_zero_of_lt hfuel)
      rfl
  | cons item items ih =>
      rw [List.length_cons] at hfuel
      obtain ⟨fuel, rfl⟩ : ∃ fuel', fuel = fuel' + 2 := ⟨fuel - 2, by omega⟩
      have hstep : (flowItems handles (fuel + 2) false).run
          ⟨Scanner.moreTokens (item :: items) ++ rest, anchors, before⟩
          = (flowItems handles (fuel + 1) false).run ⟨Scanner.moreTokens items ++ rest, anchors,
            .scalar none none true (String.ofList item) :: before⟩ := rfl
      rw [hstep, ih (by omega)]
      simp [plainEvents]

theorem readsNode_flow (items : List (List Char)) :
    ReadsNode (.flowSequenceStart :: Scanner.itemTokens items)
      (.sequenceStart none none
        :: (plainEvents (items.map String.ofList) ++ [.collectionEnd])) := by
  refine ⟨rfl, fun handles fuel indentless hfuel rest anchors before => ?_⟩
  cases items with
  | nil =>
      rw [Scanner.itemTokens, List.length_cons, List.length_cons] at hfuel
      obtain ⟨fuel, rfl⟩ : ∃ fuel', fuel = fuel' + 2 := ⟨fuel - 2, by omega⟩
      rfl
  | cons item items =>
      rw [Scanner.itemTokens, List.length_cons, List.length_cons, length_moreTokens] at hfuel
      obtain ⟨fuel, rfl⟩ : ∃ fuel', fuel = fuel' + 3 := ⟨fuel - 3, by omega⟩
      have hstep : (readNode handles (fuel + 3) true indentless).run
          ⟨.flowSequenceStart :: Scanner.itemTokens (item :: items) ++ rest, anchors, before⟩
          = (flowItems handles (fuel + 1) false).run ⟨Scanner.moreTokens items ++ rest, anchors,
            .scalar none none true (String.ofList item) :: .sequenceStart none none :: before⟩ :=
        rfl
      rw [hstep, reads_moreTokens items (by omega)]
      simp [plainEvents]

/-- A block collection is a node: its first token is passed, and what follows is read as its parts.
-/
theorem readsNode_block {first : Token} {event : Event} {parts : Handles → Nat → EventReader Unit}
    (hbegins : beginsNode first)
    (hfirst : ∀ handles fuel indentless tail anchors before,
      (readNode handles (fuel + 1) true indentless).run ⟨first :: more ++ tail, anchors, before⟩
        = (parts handles fuel).run ⟨more ++ tail, anchors, event :: before⟩)
    (hmore : ∀ handles fuel, 2 * more.length ≤ fuel → Reads (parts handles fuel) more rest) :
    ReadsNode (first :: more) (event :: rest) := by
  refine ⟨hbegins, fun handles fuel indentless hfuel tail anchors before => ?_⟩
  rw [List.length_cons] at hfuel
  obtain ⟨fuel, rfl⟩ : ∃ fuel', fuel = fuel' + 1 := ⟨fuel - 1, by omega⟩
  rw [hfirst, hmore handles fuel (by omega)]
  simp

theorem readsNode_seq (hmore : ∀ handles fuel, 2 * more.length ≤ fuel →
      Reads (blockItems handles fuel) more rest) :
    ReadsNode (.blockSequenceStart :: more) (.sequenceStart none none :: rest) :=
  readsNode_block rfl (fun _ _ _ _ _ _ => rfl) hmore

theorem readsNode_map (hmore : ∀ handles fuel, 2 * more.length ≤ fuel →
      Reads (blockEntries handles fuel) more rest) :
    ReadsNode (.blockMappingStart :: more) (.mappingStart none none :: rest) :=
  readsNode_block rfl (fun _ _ _ _ _ _ => rfl) hmore

end EventReader

/-! ### From events to nodes -/

namespace Node

/-- What comes of the open collections, the innermost first, and the events that follow, once a node
is finished. -/
def nestIn (n : Node) : List Frame → List Event → Option Node
  | [], _ => some n
  | frame :: outer, rest => nest (frame.add n :: outer) rest

/-- The events make up the node, wherever they stand. -/
def MadeOf (n : Node) (events : List Event) : Prop :=
  ∀ frames rest, nest frames (events ++ rest) = n.nestIn frames rest

theorem madeOf_plain (text : String) :
    MadeOf (.scalar none none true text) [.scalar none none true text] := by
  intro frames rest
  cases frames <;> simp [nest, finished, nestIn]

/-- The events make up the items that an open sequence goes on with, and its end. -/
def ItemsOf (items : List Node) (events : List Event) : Prop :=
  ∀ done outer rest, nest (.seq none none done :: outer) (events ++ rest)
    = nestIn (.seq none none (done.reverse ++ items)) outer rest

theorem itemsOf_nil : ItemsOf [] [.collectionEnd] := by
  intro done outer rest
  cases outer <;> simp [nest, finished, nestIn, Frame.close]

theorem itemsOf_cons {n : Node} {items : List Node} {events more : List Event} (h : MadeOf n events)
    (hmore : ItemsOf items more) : ItemsOf (n :: items) (events ++ more) := by
  intro done outer rest
  rw [List.append_assoc, h, nestIn, Frame.add, hmore]
  simp

theorem madeOf_seq {items : List Node} {events : List Event} (h : ItemsOf items events) :
    MadeOf (.seq none none items) (.sequenceStart none none :: events) := by
  intro frames rest
  rw [List.cons_append, nest, h]
  simp

/-- The events make up the entries that an open mapping goes on with, and its end. -/
def EntriesOf (entries : List (Node × Node)) (events : List Event) : Prop :=
  ∀ done outer rest, nest (.map none none done none :: outer) (events ++ rest)
    = nestIn (.map none none (done.reverse ++ entries)) outer rest

theorem entriesOf_nil : EntriesOf [] [.collectionEnd] := by
  intro done outer rest
  cases outer <;> simp [nest, finished, nestIn, Frame.close]

theorem entriesOf_cons {key value : Node} {entries : List (Node × Node)}
    {keyEvents events more : List Event} (hkey : MadeOf key keyEvents) (h : MadeOf value events)
    (hmore : EntriesOf entries more) :
    EntriesOf ((key, value) :: entries) (keyEvents ++ (events ++ more)) := by
  intro done outer rest
  rw [List.append_assoc, hkey, nestIn, Frame.add, List.append_assoc, h, nestIn, Frame.add, hmore]
  simp

theorem madeOf_map {entries : List (Node × Node)} {events : List Event}
    (h : EntriesOf entries events) :
    MadeOf (.map none none entries) (.mappingStart none none :: events) := by
  intro frames rest
  rw [List.cons_append, nest, h]
  simp

/-! ### From nodes to values -/

/-- Reading that follows no alias. Where nothing is read, the document is refused. -/
def outcome {α : Type} (v : Option α) (count : Nat) : Except DocumentFault (α × Nat) :=
  match v with
  | some a => .ok (a, count)
  | none => .error .unreadable

theorem bind_outcome {α β : Type} {x : Expansion α} {next : α → Expansion β} {v : Option α}
    {w : α → Option β} {count : Nat} (hx : x count = outcome v count)
    (hnext : ∀ a, v = some a → next a count = outcome (w a) count) :
    (x >>= next) count = outcome (v.bind w) count := by
  have hbind : (x >>= next) count = x count >>= fun out => next out.1 out.2 := rfl
  rw [hbind, hx]
  cases v with
  | none => rfl
  | some a => exact hnext a rfl

theorem map_outcome {α β : Type} {x : Expansion α} {f : α → β} {v : Option α} {count : Nat}
    (hx : x count = outcome v count) :
    (x >>= fun a => pure (f a)) count = outcome (v.map f) count := by
  rw [Option.map_eq_bind]
  exact bind_outcome hx fun _ _ => rfl

/-- The value of a node whose collections are at most so many inside one another. -/
def HasValue (height : Nat) (n : Node) (v : Option Datum) : Prop :=
  ∀ table limit fuel depth count, height < fuel → height ≤ depth →
    expand table limit fuel depth n count = outcome v count

theorem plainDatum_of_isText {text : String} (h : Plain.isText text) :
    plainDatum text = some (.text text) := by
  rw [plainDatum, beq_iff_eq.mp h]

theorem hasValue_plain (text : String) :
    HasValue 0 (.scalar none none true text) (plainDatum text) := by
  intro table limit fuel depth count hfuel _
  obtain ⟨fuel, rfl⟩ := Nat.exists_eq_add_one_of_ne_zero (Nat.ne_zero_of_lt hfuel)
  have hscalar : scalarDatum none true text = plainDatum text := by
    have htag : underTag none = id := rfl
    simp [scalarDatum, htag]
  rw [expand, hscalar]
  cases plainDatum text <;> rfl

/-- The values of items one after the other. -/
def HaveValues (height : Nat) (items : List Node) (vs : Option (List Datum)) : Prop :=
  ∀ table limit fuel depth count, height < fuel → height ≤ depth →
    items.mapM (expand table limit fuel depth) count = outcome vs count

theorem haveValues_nil (height : Nat) : HaveValues height [] (some []) := by
  intro table limit fuel depth count _ _
  rfl

theorem haveValues_cons {height : Nat} {n : Node} {items : List Node} {v : Option Datum}
    {vs : Option (List Datum)} (h : HasValue height n v) (hmore : HaveValues height items vs) :
    HaveValues height (n :: items) (v.bind fun d => vs.map (d :: ·)) := by
  intro table limit fuel depth count hfuel hdepth
  have hn := h table limit fuel depth count hfuel hdepth
  have hitems := hmore table limit fuel depth count hfuel hdepth
  rw [List.mapM_cons]
  exact bind_outcome hn fun _ _ => map_outcome hitems

theorem hasValue_seq {height : Nat} {items : List Node} {vs : Option (List Datum)}
    (h : HaveValues height items vs) :
    HasValue (height + 1) (.seq none none items) (vs.map .seq) := by
  intro table limit fuel depth count hfuel hdepth
  obtain ⟨fuel, rfl⟩ := Nat.exists_eq_add_one_of_ne_zero (Nat.ne_zero_of_lt hfuel)
  obtain ⟨depth, rfl⟩ := Nat.exists_eq_add_one_of_ne_zero (Nat.ne_zero_of_lt hdepth)
  have htag : underTag none = id := rfl
  rw [expand, htag]
  exact map_outcome (h table limit fuel depth count (by omega) (by omega))

/-- Reads one more entry of a mapping. -/
def readEntry (table : List (Nat × Node)) (limit fuel depth : Nat) (found : List (Datum × Datum))
    (entry : Node × Node) : Expansion (List (Datum × Datum)) :=
  expand table limit fuel depth entry.1 >>= fun key =>
    addEntry found key (expand table limit fuel depth entry.2)

/-- The values of entries one after the other, whose keys are texts. The keys of entries in front of
them are others. -/
def HaveEntries (height : Nat) (entries : List (Node × Node)) (names : List String)
    (vs : Option (List (Datum × Datum))) : Prop :=
  ∀ table limit fuel depth count found, height < fuel → height ≤ depth →
    (∀ name ∈ names, ∀ entry ∈ found, entry.1.same (.text name) = false) →
    entries.foldlM (readEntry table limit fuel depth) found count
      = outcome (vs.map (found ++ ·)) count

theorem haveEntries_nil (height : Nat) : HaveEntries height [] [] (some []) := by
  intro table limit fuel depth count found _ _ _
  exact congrArg (fun entries => outcome (some entries) count) (List.append_nil found).symm

theorem haveEntries_cons {height : Nat} {n : Node} {entries : List (Node × Node)} {name : String}
    {names : List String} {v : Option Datum} {vs : Option (List (Datum × Datum))}
    (hname : Plain.isText name) (hnew : name ∉ names) (h : HasValue height n v)
    (hmore : HaveEntries height entries names vs) :
    HaveEntries height ((.scalar none none true name, n) :: entries) (name :: names)
      (v.bind fun d => vs.map ((.text name, d) :: ·)) := by
  intro table limit fuel depth count found hfuel hdepth hfound
  obtain ⟨hhere, hlater⟩ := List.forall_mem_cons.mp hfound
  have hadd : addEntry found (.text name) (expand table limit fuel depth n) count
      = outcome (v.map fun d => found ++ [(.text name, d)]) count := by
    have hany : found.any (·.1.same (.text name)) = false := by
      rw [List.any_eq_false]
      simpa using hhere
    rw [addEntry, hany]
    exact map_outcome (h table limit fuel depth count hfuel hdepth)
  have hentry : readEntry table limit fuel depth found (.scalar none none true name, n) count
      = outcome (v.map fun d => found ++ [(.text name, d)]) count := by
    have hkey : expand table limit fuel depth (.scalar none none true name) count
        = outcome (some (.text name)) count := by
      rw [← plainDatum_of_isText hname]
      exact hasValue_plain name table limit fuel depth count (by omega) (by omega)
    refine bind_outcome (w := fun _ => v.map fun d => found ++ [(.text name, d)]) hkey ?_
    rintro key ⟨⟩
    exact hadd
  have hmerged : (v.bind fun d => vs.map ((.text name, d) :: ·)).map (found ++ ·)
      = (v.map fun d => found ++ [(.text name, d)]).bind fun found => vs.map (found ++ ·) := by
    cases v <;> cases vs <;> simp
  -- The entries behind this one must not repeat its key either.
  rw [List.foldlM_cons, hmerged]
  refine bind_outcome hentry fun found' hfound' => ?_
  refine hmore table limit fuel depth count found' hfuel hdepth fun other hother entry hmem => ?_
  obtain ⟨d, -, rfl⟩ := Option.map_eq_some_iff.mp hfound'
  rcases List.mem_append.mp hmem with hold | hlast
  · exact hlater other hother entry hold
  · rw [List.mem_singleton.mp hlast]
    exact beq_eq_false_iff_ne.mpr fun heq => hnew (heq ▸ hother)

theorem hasValue_map {height : Nat} {entries : List (Node × Node)} {names : List String}
    {vs : Option (List (Datum × Datum))} (h : HaveEntries height entries names vs) :
    HasValue (height + 1) (.map none none entries) (vs.map .map) := by
  intro table limit fuel depth count hfuel hdepth
  obtain ⟨fuel, rfl⟩ := Nat.exists_eq_add_one_of_ne_zero (Nat.ne_zero_of_lt hfuel)
  obtain ⟨depth, rfl⟩ := Nat.exists_eq_add_one_of_ne_zero (Nat.ne_zero_of_lt hdepth)
  have htag : underTag none = id := rfl
  have hentries := h table limit fuel depth count [] (by omega) (by omega) (by simp)
  have hsame : vs.map ([] ++ ·) = vs := by
    simp
  rw [hsame] at hentries
  rw [expand, htag]
  exact map_outcome hentries

end Node

/-! ### From tokens to values -/

/-- The tokens spell a node whose value is the given one, or is refused where there is none. -/
def Spells (height : Nat) (toks : List Token) (v : Option Datum) : Prop :=
  ∃ events n, EventReader.ReadsNode toks events ∧ Node.MadeOf n events ∧ n.HasValue height v

/-- The tokens spell the items that a block sequence goes on with, and its end. -/
def SpellsItems (height : Nat) (toks : List Token) (vs : Option (List Datum)) : Prop :=
  ∃ events items, (∀ handles fuel, 2 * toks.length ≤ fuel →
      EventReader.Reads (EventReader.blockItems handles fuel) toks events)
    ∧ Node.ItemsOf items events ∧ Node.HaveValues height items vs

/-- The tokens spell the entries that a block mapping goes on with, and its end. The keys are texts.
-/
def SpellsEntries (height : Nat) (toks : List Token) (names : List String)
    (vs : Option (List (Datum × Datum))) : Prop :=
  ∃ events entries, (∀ handles fuel, 2 * toks.length ≤ fuel →
      EventReader.Reads (EventReader.blockEntries handles fuel) toks events)
    ∧ Node.EntriesOf entries events ∧ Node.HaveEntries height entries names vs

variable {height : Nat} {toks more : List Token} {v : Option Datum} {vs : Option (List Datum)}

theorem Spells.mono {height' : Nat} (h : Spells height toks v) (hle : height ≤ height') :
    Spells height' toks v := by
  obtain ⟨events, n, hreads, hmade, hvalue⟩ := h
  exact ⟨events, n, hreads, hmade, fun table limit fuel depth count hfuel hdepth =>
    hvalue table limit fuel depth count (by omega) (by omega)⟩

/-- A scalar without quotes. -/
theorem Spells.plain (text : String) : Spells 0 [.scalar true text] (Node.plainDatum text) :=
  ⟨_, _, EventReader.readsNode_plain text, Node.madeOf_plain text, Node.hasValue_plain text⟩

/-- A flow sequence of scalars without quotes. -/
theorem Spells.flow (items : List (List Char)) :
    Spells 1 (.flowSequenceStart :: Scanner.itemTokens items)
      (((items.map String.ofList).mapM Node.plainDatum).map .seq) := by
  have hitems : ∀ texts : List String, Node.ItemsOf (texts.map (.scalar none none true))
        (EventReader.plainEvents texts ++ [.collectionEnd])
      ∧ Node.HaveValues 0 (texts.map (.scalar none none true)) (texts.mapM Node.plainDatum) := by
    intro texts
    induction texts with
    | nil => exact ⟨Node.itemsOf_nil, Node.haveValues_nil 0⟩
    | cons text texts ih =>
        have hmapM : (text :: texts).mapM Node.plainDatum = (Node.plainDatum text).bind fun d =>
            (texts.mapM Node.plainDatum).map (d :: ·) := by
          rw [List.mapM_cons]
          cases texts.mapM Node.plainDatum <;> rfl
        have hnodes := Node.itemsOf_cons (Node.madeOf_plain text) ih.1
        refine ⟨hnodes, ?_⟩
        rw [hmapM]
        exact Node.haveValues_cons (Node.hasValue_plain text) ih.2
  exact ⟨_, _, EventReader.readsNode_flow items, Node.madeOf_seq (hitems _).1,
    Node.hasValue_seq (hitems _).2⟩

theorem SpellsItems.nil (height : Nat) : SpellsItems height [.blockEnd] (some []) := by
  refine ⟨_, _, fun handles fuel hfuel rest anchors before => ?_, Node.itemsOf_nil,
    Node.haveValues_nil height⟩
  obtain ⟨fuel, rfl⟩ := Nat.exists_eq_add_one_of_ne_zero (Nat.ne_zero_of_lt hfuel)
  rfl

theorem SpellsItems.cons (h : Spells height toks v) (hmore : SpellsItems height more vs) :
    SpellsItems height (.blockEntry :: (toks ++ more)) (v.bind fun d => vs.map (d :: ·)) := by
  obtain ⟨events, n, hreads, hmade, hvalue⟩ := h
  obtain ⟨moreEvents, items, hmoreReads, hitems, hvalues⟩ := hmore
  refine ⟨_, _, fun handles fuel hfuel => ?_, Node.itemsOf_cons hmade hitems,
    Node.haveValues_cons hvalue hvalues⟩
  rw [List.length_cons, List.length_append] at hfuel
  obtain ⟨fuel, rfl⟩ : ∃ fuel', fuel = fuel' + 1 := ⟨fuel - 1, by omega⟩
  exact EventReader.reads_blockItems_cons hreads (hmoreReads handles fuel (by omega)) (by omega)

/-- A block sequence. -/
theorem Spells.seq (h : SpellsItems height toks vs) :
    Spells (height + 1) (.blockSequenceStart :: toks) (vs.map .seq) := by
  obtain ⟨events, items, hreads, hitems, hvalues⟩ := h
  exact ⟨_, _, EventReader.readsNode_seq hreads, Node.madeOf_seq hitems, Node.hasValue_seq hvalues⟩

theorem SpellsEntries.nil (height : Nat) : SpellsEntries height [.blockEnd] [] (some []) := by
  refine ⟨_, _, fun handles fuel hfuel rest anchors before => ?_, Node.entriesOf_nil,
    Node.haveEntries_nil height⟩
  obtain ⟨fuel, rfl⟩ := Nat.exists_eq_add_one_of_ne_zero (Nat.ne_zero_of_lt hfuel)
  rfl

theorem SpellsEntries.cons {name : String} {names : List String}
    {vs : Option (List (Datum × Datum))} (hname : Plain.isText name) (hnew : name ∉ names)
    (h : Spells height toks v) (hmore : SpellsEntries height more names vs) :
    SpellsEntries height (.key :: .scalar true name :: .value :: (toks ++ more)) (name :: names)
      (v.bind fun d => vs.map ((.text name, d) :: ·)) := by
  obtain ⟨events, n, hreads, hmade, hvalue⟩ := h
  obtain ⟨moreEvents, entries, hmoreReads, hentries, hvalues⟩ := hmore
  refine ⟨_, _, fun handles fuel hfuel => ?_,
    Node.entriesOf_cons (Node.madeOf_plain name) hmade hentries,
    Node.haveEntries_cons hname hnew hvalue hvalues⟩
  simp only [List.length_cons, List.length_append] at hfuel
  obtain ⟨fuel, rfl⟩ : ∃ fuel', fuel = fuel' + 1 := ⟨fuel - 1, by omega⟩
  exact EventReader.reads_blockEntries_cons (EventReader.readsNode_plain name) hreads
    (hmoreReads handles fuel (by omega)) (by simp only [List.length_singleton]; omega) (by omega)

/-- A block mapping. -/
theorem Spells.map {names : List String} {vs : Option (List (Datum × Datum))}
    (h : SpellsEntries height toks names vs) :
    Spells (height + 1) (.blockMappingStart :: toks) (vs.map .map) := by
  obtain ⟨events, entries, hreads, hentries, hvalues⟩ := h
  exact ⟨_, _, EventReader.readsNode_map hreads, Node.madeOf_map hentries,
    Node.hasValue_map hvalues⟩

/-- A document of one node. -/
theorem ofTokens_of_readsNode {events : List Event} (h : EventReader.ReadsNode toks events) :
    Document.ofTokens (toks ++ [.streamEnd]) = ⟨events, .last⟩ := by
  generalize hfuel : 4 * (toks ++ [Token.streamEnd]).length + 8 = fuel
  rw [List.length_append, List.length_singleton] at hfuel
  have hnode := h.reads EventReader.standardHandles fuel false (by omega) [.streamEnd] [] []
  have hclosing := EventReader.run_bind (fun _ => EventReader.firstDocument.closing) hnode
  have hrun : (EventReader.firstDocument fuel).run ⟨toks ++ [.streamEnd], [], []⟩
      = (some (), ⟨[.streamEnd], [], events.reverse⟩) := by
    refine Eq.trans ?_ (hclosing.trans ?_)
    · cases toks with
      | nil => cases h.begins
      | cons token toks =>
          have hbegins : EventReader.beginsNode token := h.begins
          cases token <;> first | rfl | cases hbegins
    · rw [List.append_nil]
      rfl
  rw [Document.ofTokens, List.length_append, List.length_singleton, hfuel, hrun]
  simp [endsStream]

/-- A text whose tokens spell a value is read as that value. -/
theorem Spells.read {text : String} (h : Spells height toks v) (hheight : height ≤ depthLimit)
    (hscan : Token.scan text.toList = toks ++ [.streamEnd]) :
    Yaml.read text = v.elim (.error .unreadable) .ok := by
  obtain ⟨events, n, hreads, hmade, hvalue⟩ := h
  have hnode : Node.ofEvents? events = some n := by
    have hnest := hmade [] []
    rwa [List.append_nil] at hnest
  rw [Yaml.read, hscan, ofTokens_of_readsNode hreads]
  simp only [hnode]
  rw [Node.toDatum, hvalue _ _ _ _ _ (by omega) hheight]
  cases v <;> rfl

end EnvLayers.Yaml
