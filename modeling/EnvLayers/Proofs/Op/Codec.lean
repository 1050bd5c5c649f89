import EnvLayers.Op.Codec
import EnvLayers.Proofs.Outcome
import Mathlib.Data.List.Nodup

/-
Module: EnvLayers.Proofs.Op.Codec
Purpose: Operations that are written to a document and read back. Nothing in the document names the
  kind of an operation, and fields that hold their default are left out; the operation is still
  found again, because its mapping lacks the key of every other kind.
Main exports: Outline.hasTag_toDatum, Datum.fieldsOf_record, Datum.lookup_known, Op.kind,
  Op.decodeAs?, Op.decodeAs?_encode, decodeOps_encodeOps
-/

namespace EnvLayers

/-! ### Written documents -/

namespace Outline

mutual

/-- No tag stands in a document that was written. -/
theorem hasTag_toDatum : ∀ o : Outline, o.toDatum.hasTag = false
  | .absent => rfl
  | .flag _ => rfl
  | .text _ => rfl
  | .list items => by
      rw [toDatum, Datum.hasTag]
      exact itemsHaveTag_itemsToData items
  | .record fields => by
      rw [toDatum, Datum.hasTag]
      exact entriesHaveTag_fieldsToData fields

theorem itemsHaveTag_itemsToData : ∀ items, Datum.itemsHaveTag (itemsToData items) = false
  | [] => rfl
  | item :: rest => by
      rw [itemsToData, Datum.itemsHaveTag, hasTag_toDatum item, itemsHaveTag_itemsToData rest]
      rfl

theorem entriesHaveTag_fieldsToData : ∀ fields, Datum.entriesHaveTag (fieldsToData fields) = false
  | [] => rfl
  | (key, value) :: rest => by
      rw [fieldsToData, Datum.entriesHaveTag, hasTag_toDatum value,
        entriesHaveTag_fieldsToData rest]
      rfl

end

theorem itemsToData_eq_map (items : List Outline) : itemsToData items = items.map toDatum := by
  induction items with
  | nil =>
      rfl
  | cons item rest ih =>
      rw [itemsToData, ih, List.map_cons]

end Outline

namespace Datum

/-- The fields of a record that an alternative with some names knows. -/
def known (names : List String) (fields : List (String × Outline)) : List (String × Datum) :=
  (fields.filter (·.1 ∈ names)).map fun field => (field.1, field.2.toDatum)

variable {names : List String} {fields : List (String × Outline)} {name key : String}
  {value : Outline}

theorem known_cons_of_mem (h : key ∈ names) :
    known names ((key, value) :: fields) = (key, value.toDatum) :: known names fields := by
  simp [known, h]

theorem known_cons_of_not_mem (h : key ∉ names) :
    known names ((key, value) :: fields) = known names fields := by
  simp [known, h]

theorem any_known_eq_false (h : name ∉ fields.map (·.1)) :
    (known names fields).any (·.1 == name) = false := by
  rw [List.any_eq_false]
  intro field hfield hname
  obtain ⟨written, hwritten, rfl⟩ := List.mem_map.mp hfield
  exact h (List.mem_map.mpr ⟨written, List.mem_of_mem_filter hwritten, beq_iff_eq.mp hname⟩)

/-- Of a record without repeated keys, an alternative takes the fields that it knows. -/
theorem fieldsOf_record (h : (fields.map (·.1)).Nodup) :
    fieldsOf names (Outline.record fields).toDatum = some (known names fields) := by
  rw [Outline.toDatum, fieldsOf]
  induction fields with
  | nil =>
      rfl
  | cons field rest ih =>
      obtain ⟨key, value⟩ := field
      obtain ⟨hnew, hrest⟩ := List.nodup_cons.mp h
      rw [Outline.fieldsToData, namedFields, ih hrest]
      by_cases hknown : key ∈ names
      · simp [fieldOfKey, hknown, known_cons_of_mem hknown, any_known_eq_false hnew]
      · simp [fieldOfKey, hknown, known_cons_of_not_mem hknown]

/-- A field that is known is found as it was written, or not at all. -/
theorem lookup_known (h : name ∈ names) (fields : List (String × Outline)) :
    (known names fields).lookup name = (fields.lookup name).map Outline.toDatum := by
  induction fields with
  | nil =>
      rfl
  | cons field rest ih =>
      obtain ⟨key, value⟩ := field
      by_cases hkey : name = key
      · subst hkey
        simp [known_cons_of_mem h]
      · have hne : (name == key) = false := beq_eq_false_iff_ne.mpr hkey
        rw [List.lookup_cons, hne]
        by_cases hknown : key ∈ names
        · rw [known_cons_of_mem hknown, List.lookup_cons, hne, ih]
        · rw [known_cons_of_not_mem hknown, ih]

/-- A text that was not written cannot be required. -/
theorem requiredText_known_eq_none (hknown : name ∈ names) (h : name ∉ fields.map (·.1)) :
    requiredText (known names fields) name = none := by
  have hmissing : fields.lookup name = none := by
    rw [List.lookup_eq_none_iff]
    intro field hfield
    have hne : name ≠ field.1 := fun hname => h (hname ▸ List.mem_map_of_mem hfield)
    exact bne_iff_ne.mpr hne
  rw [requiredText, lookup_known hknown, hmissing]
  rfl

end Datum

/-! ### Kinds of operations -/

namespace Op

/-- What an operation is: one that puts a value somewhere, or an unset. -/
def kind : Op → Option Placement
  | .put place _ _ _ _ => some place
  | .unset _ => none

/-- The key that names the variable of an operation of a kind. -/
def kindKey : Option Placement → String
  | some place => place.key
  | none => "unset"

/-- The kinds in the order in which reading tries them. -/
def kinds : List (Option Placement) := Placement.all.map some ++ [none]

/-- An operation of one kind, if all of its fields fit. -/
def decodeAs? : Option Placement → Datum → Option Op
  | some place => decodePut? place
  | none => decodeUnset?

variable {op : Op} {kind : Option Placement}

theorem mem_kinds (kind : Option Placement) : kind ∈ kinds := by
  rcases kind with _ | place
  · decide
  · cases place <;> decide

/-- Reading takes the first kind that fits. -/
theorem decode?_eq_findSome? (d : Datum) : decode? d = kinds.findSome? (decodeAs? · d) := by
  rw [kinds, List.findSome?_append, List.findSome?_map, List.findSome?_singleton]
  rfl

/-- An operation is written with the key of its kind, and then with keys that name no kind. -/
theorem exists_keys_fields (op : Op) :
    ∃ keys, op.fields.map (·.1) = kindKey op.kind :: keys
      ∧ keys.Sublist ["value", "path", "separator"] := by
  cases op with
  | put place name value isPath separator =>
      refine ⟨"value" :: ((if isPath then ["path"] else [])
        ++ if separator.isSome then ["separator"] else []), ?_, ?_⟩
      · cases isPath <;> cases separator <;> rfl
      · cases isPath <;> cases separator.isSome <;> decide
  | unset name =>
      exact ⟨[], rfl, List.nil_sublist _⟩

theorem kindKey_not_mem (kind : Option Placement) :
    kindKey kind ∉ ["value", "path", "separator"] := by
  rcases kind with _ | place
  · decide
  · cases place <;> decide

theorem kindKey_injective : Function.Injective kindKey := by
  intro kind kind' h
  have hnodup : (kinds.map kindKey).Nodup := by
    decide
  exact List.inj_on_of_nodup_map hnodup (mem_kinds kind) (mem_kinds kind') h

theorem nodup_keys_fields (op : Op) : (op.fields.map (·.1)).Nodup := by
  obtain ⟨keys, hkeys, hsub⟩ := op.exists_keys_fields
  rw [hkeys, List.nodup_cons]
  exact ⟨fun hmem => kindKey_not_mem op.kind (hsub.subset hmem), .sublist hsub (by decide)⟩

/-- An operation is written with the key of its own kind and of no other. -/
theorem kindKey_mem_keys_fields : kindKey kind ∈ op.fields.map (·.1) ↔ op.kind = kind := by
  obtain ⟨keys, hkeys, hsub⟩ := op.exists_keys_fields
  rw [hkeys, List.mem_cons, kindKey_injective.eq_iff, eq_comm]
  exact or_iff_left fun hmem => kindKey_not_mem kind (hsub.subset hmem)

/-! ### Reading back -/

theorem fieldsOf_encode (op : Op) (names : List String) :
    Datum.fieldsOf names op.encode = some (Datum.known names op.fields) :=
  Datum.fieldsOf_record op.nodup_keys_fields

/-- The fields that an operation with a value is read from. -/
theorem lookup_fields_put (place : Placement) (name value : String) (isPath : Bool)
    (separator : Option String) :
    (put place name value isPath separator).fields.lookup place.key = some (.text name)
      ∧ (put place name value isPath separator).fields.lookup "value" = some (.text value)
      ∧ (put place name value isPath separator).fields.lookup "path"
        = (if isPath then some (.flag true) else none)
      ∧ (put place name value isPath separator).fields.lookup "separator"
        = separator.map .text := by
  cases place <;> cases isPath <;> cases separator <;> exact ⟨rfl, rfl, rfl, rfl⟩

/-- Fields that were left out are read as their defaults. -/
theorem decodeAs?_encode_self (op : Op) : decodeAs? op.kind op.encode = some op := by
  cases op with
  | put place name value isPath separator =>
      obtain ⟨hname, hvalue, hpath, hseparator⟩ :=
        lookup_fields_put place name value isPath separator
      simp only [kind, decodeAs?, decodePut?, fieldsOf_encode, Datum.requiredText, Datum.flag,
        Datum.optionalText, Option.bind_eq_bind, Option.bind_some, List.mem_cons, true_or, or_true,
        Datum.lookup_known, hname, hvalue, hpath, hseparator]
      cases isPath <;> cases separator <;> rfl
  | unset name =>
      rfl

/-- A kind does not fit an operation that was written with the key of another one. -/
theorem decodeAs?_encode_of_ne (h : op.kind ≠ kind) : decodeAs? kind op.encode = none := by
  have hmissing : kindKey kind ∉ op.fields.map (·.1) := mt kindKey_mem_keys_fields.mp h
  rcases kind with _ | place
  · have hname : Datum.requiredText (Datum.known ["unset"] op.fields) "unset" = none :=
      Datum.requiredText_known_eq_none List.mem_cons_self hmissing
    simp [decodeAs?, decodeUnset?, fieldsOf_encode, hname]
  · have hname : Datum.requiredText
        (Datum.known [place.key, "value", "path", "separator"] op.fields) place.key = none :=
      Datum.requiredText_known_eq_none List.mem_cons_self hmissing
    simp [decodeAs?, decodePut?, fieldsOf_encode, hname]

/-- An operation that was written fits its own kind, as itself, and no other kind. -/
theorem decodeAs?_encode (op : Op) (kind : Option Placement) :
    decodeAs? kind op.encode = if op.kind = kind then some op else none := by
  split
  · next h =>
      rw [← h, decodeAs?_encode_self]
  · next h =>
      exact decodeAs?_encode_of_ne h

/-- Of the kinds that are tried, one fits an operation that was written, wherever it stands among
them. -/
theorem decode_encode (op : Op) : decode op.encode = .ok op := by
  have hfits : decode? op.encode = some op := by
    rw [decode?_eq_findSome?]
    cases hfound : kinds.findSome? (decodeAs? · op.encode) with
    | none =>
        have hself := List.findSome?_eq_none_iff.mp hfound op.kind (mem_kinds op.kind)
        rw [decodeAs?_encode_self] at hself
        cases hself
    | some found =>
        obtain ⟨kind, -, hkind⟩ := List.exists_of_findSome?_eq_some hfound
        rw [decodeAs?_encode] at hkind
        split at hkind
        · exact hkind.symm
        · cases hkind
  have htag : op.encode.hasTag = false := Outline.hasTag_toDatum op.outline
  simp [decode, htag, hfits]

end Op

/-- Operations that are written to a document are read back as they were, all of them and in their
order: each fits its own kind, as itself, and none of the kinds that are tried before or after. -/
theorem decodeOps_encodeOps (ops : List Op) :
    decodeOps (encodeOps ops) = .ok ops
      ∧ ∀ (op : Op) (kind : Option Placement),
        Op.decodeAs? kind op.encode = if op.kind = kind then some op else none := by
  constructor
  · have hitems : encodeOps ops = .seq (ops.map Op.encode) := by
      rw [encodeOps, outlineOps, Outline.toDatum, Outline.itemsToData_eq_map, List.map_map]
      rfl
    rw [hitems]
    apply mapM_ok_iff.mpr
    rw [List.forall₂_map_left_iff]
    exact List.forall₂_same.mpr fun op _ => op.decode_encode
  · intro op kind
    exact op.decodeAs?_encode kind

/-- A flag that is set is written, and an unset has its name alone. -/
example :
    encodeOps [(Op.prepend "PATH" "/opt/bin").asPath, .unset "PATH"]
      = .seq [.map [(.text "prepend", .text "PATH"), (.text "value", .text "/opt/bin"),
        (.text "path", .bool true)], .map [(.text "unset", .text "PATH")]] :=
  rfl

end EnvLayers
