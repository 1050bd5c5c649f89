import EnvLayers.Datum.Decode
import EnvLayers.Lookup
import Mathlib.Data.List.Nodup

/-
Module: EnvLayers.Proofs.Datum.Alternative
Purpose: What one of several alternatives has in its fields: the value that a mapping gives to a
  field by name or by number, or that a sequence has at the place of the field. A mapping may hold
  keys that mean no field, and may leave fields out, but must not give one twice.
Main exports: Datum.Means, Datum.IsAlternative, Datum.HasField, Datum.HasFlag,
  Datum.HasOptionalText, Datum.exists_fieldsOf_iff, Datum.lookup_fieldsOf
-/

namespace EnvLayers.Datum

/-- A key that an alternative can have: a text, or a number that is not negative. -/
inductive IsKey : Datum → Prop where
  | text (name : String) : IsKey (.text name)
  | number (i : Nat) : IsKey (.int i)

/-- A key means a field, by its name or by its number. -/
inductive Means (names : List String) : Datum → String → Prop where
  | text {name : String} : name ∈ names → Means names (.text name) name
  | number {i : Nat} {name : String} : names[i]? = some name → Means names (.int i) name

/-- A value has the form of an alternative with some fields: a mapping that gives no field twice, or
a sequence with no more items than there are fields. -/
inductive IsAlternative (names : List String) : Datum → Prop where
  | map {entries : List (Datum × Datum)} : (∀ entry ∈ entries, IsKey entry.1) →
      entries.Pairwise (fun entry later =>
        ∀ name, Means names entry.1 name → ¬ Means names later.1 name) →
      IsAlternative names (.map entries)
  | seq {items : List Datum} : items.length ≤ names.length → IsAlternative names (.seq items)

/-- An alternative has a value in a field. -/
inductive HasField (names : List String) : Datum → String → Datum → Prop where
  | named {entries : List (Datum × Datum)} {key value : Datum} {name : String} :
      (key, value) ∈ entries → Means names key name → HasField names (.map entries) name value
  | placed {items : List Datum} {i : Nat} {value : Datum} {name : String} :
      names[i]? = some name → items[i]? = some value → HasField names (.seq items) name value

/-- The truth value of a field that may be left out. -/
inductive HasFlag (names : List String) (d : Datum) (name : String) (default : Bool) :
    Bool → Prop where
  | given {flag : Bool} : HasField names d name (.bool flag) → HasFlag names d name default flag
  | missing : (∀ value, ¬ HasField names d name value) → HasFlag names d name default default

/-- The text of a field that may be null or left out. -/
inductive HasOptionalText (names : List String) (d : Datum) (name : String) :
    Option String → Prop where
  | given {text : String} : HasField names d name (.text text) →
      HasOptionalText names d name (some text)
  | null : HasField names d name .null → HasOptionalText names d name none
  | missing : (∀ value, ¬ HasField names d name value) → HasOptionalText names d name none

variable {names : List String} {d key value : Datum} {name : String}
  {fields : List (String × Datum)} {entries : List (Datum × Datum)} {items : List Datum}

/-! ### Keys -/

theorem fieldOfKey_eq_some_iff :
    fieldOfKey names key = some (some name) ↔ Means names key name := by
  constructor
  · intro h
    unfold fieldOfKey at h
    split at h
    · next s =>
        split at h
        · next hmem =>
            cases h
            exact .text (List.contains_iff_mem.mp hmem)
        · cases h
    · next i =>
        split at h
        · next hi =>
            obtain ⟨n, rfl⟩ := Int.eq_ofNat_of_zero_le hi
            exact .number (Option.some.inj h)
        · cases h
    · cases h
  · intro h
    cases h with
    | text hmem => simp [fieldOfKey, hmem]
    | number hname => simp [fieldOfKey, hname]

theorem fieldOfKey_eq_none_iff :
    fieldOfKey names key = some none ↔ IsKey key ∧ ∀ name, ¬ Means names key name := by
  simp only [← fieldOfKey_eq_some_iff]
  constructor
  · intro h
    refine ⟨?_, by simp [h]⟩
    unfold fieldOfKey at h
    split at h
    · exact .text _
    · split at h
      · next hi =>
          obtain ⟨n, rfl⟩ := Int.eq_ofNat_of_zero_le hi
          exact .number n
      · cases h
    · cases h
  · rintro ⟨hkey, hnone⟩
    obtain ⟨field, hfield⟩ : ∃ field, fieldOfKey names key = some field := by
      cases hkey with
      | text name => exact ⟨_, rfl⟩
      | number i => exact ⟨names[i]?, by simp [fieldOfKey]⟩
    cases field with
    | none => exact hfield
    | some name => exact absurd hfield (hnone name)

theorem Means.isKey (h : Means names key name) : IsKey key := by
  cases h with
  | text _ => exact .text _
  | number _ => exact .number _

/-- A key means one field at most. -/
theorem Means.unique {other : String} (h : Means names key name) (hother : Means names key other) :
    name = other := by
  rw [← fieldOfKey_eq_some_iff] at h hother
  simpa [h] using hother

/-! ### Mappings -/

theorem any_fst_eq_false_iff : fields.any (·.1 == name) = false ↔ name ∉ fields.map (·.1) := by
  simp only [List.any_eq_false, beq_iff_eq, List.mem_map, not_exists, not_and]

/-- The fields of a mapping are those of its later entries, behind the one of its first entry if
that means a field. -/
theorem namedFields_cons_iff :
    namedFields names ((key, value) :: entries) = some fields
      ↔ ∃ found, namedFields names entries = some found
        ∧ ((IsKey key ∧ ∀ name, ¬ Means names key name) ∧ fields = found
          ∨ ∃ name, Means names key name ∧ name ∉ found.map (·.1)
            ∧ fields = (name, value) :: found) := by
  simp only [← fieldOfKey_eq_none_iff, ← any_fst_eq_false_iff]
  simp only [← fieldOfKey_eq_some_iff, namedFields, Option.bind_eq_bind, Option.bind_eq_some_iff]
  apply exists_congr
  intro found
  apply and_congr_right
  intro _
  constructor
  · rintro ⟨_ | name, hkey, h⟩
    · exact .inl ⟨hkey, (Option.some.inj h).symm⟩
    · dsimp only at h
      split at h
      · cases h
      · next hnew => exact .inr ⟨name, hkey, eq_false_of_ne_true hnew, (Option.some.inj h).symm⟩
  · rintro (⟨hkey, rfl⟩ | ⟨name, hkey, hnew, rfl⟩)
    · exact ⟨none, hkey, rfl⟩
    · exact ⟨some name, hkey, by simp only [hnew, Bool.false_eq_true, if_false]⟩

theorem mem_namedFields (h : namedFields names entries = some fields) :
    (name, value) ∈ fields ↔ ∃ key, (key, value) ∈ entries ∧ Means names key name := by
  induction entries generalizing fields with
  | nil =>
      cases h
      simp
  | cons entry entries ih =>
      obtain ⟨found, hfound, ⟨⟨-, hnone⟩, rfl⟩ | ⟨first, hfirst, -, rfl⟩⟩ :=
        namedFields_cons_iff.mp h
      · rw [ih hfound]
        constructor
        · rintro ⟨key, hmem, hkey⟩
          exact ⟨key, List.mem_cons_of_mem _ hmem, hkey⟩
        · rintro ⟨key, _ | ⟨_, hmem⟩, hkey⟩
          · exact absurd hkey (hnone name)
          · exact ⟨key, hmem, hkey⟩
      · rw [List.mem_cons, ih hfound]
        constructor
        · rintro (heq | ⟨key, hmem, hkey⟩)
          · cases heq
            exact ⟨entry.1, List.mem_cons_self, hfirst⟩
          · exact ⟨key, List.mem_cons_of_mem _ hmem, hkey⟩
        · rintro ⟨key, _ | ⟨_, hmem⟩, hkey⟩
          · exact .inl (congrArg (·, value) (hkey.unique hfirst))
          · exact .inr ⟨key, hmem, hkey⟩

theorem nodup_namedFields (h : namedFields names entries = some fields) :
    (fields.map (·.1)).Nodup := by
  induction entries generalizing fields with
  | nil =>
      cases h
      exact List.nodup_nil
  | cons entry entries ih =>
      obtain ⟨found, hfound, ⟨-, rfl⟩ | ⟨first, -, hnew, rfl⟩⟩ := namedFields_cons_iff.mp h
      · exact ih hfound
      · exact List.nodup_cons.mpr ⟨hnew, ih hfound⟩

/-- The fields of a mapping are found exactly where it has the form of an alternative. -/
theorem exists_namedFields_iff :
    (∃ fields, namedFields names entries = some fields) ↔ IsAlternative names (.map entries) := by
  have hform : IsAlternative names (.map entries) ↔ (∀ entry ∈ entries, IsKey entry.1)
      ∧ entries.Pairwise fun entry later =>
        ∀ name, Means names entry.1 name → ¬ Means names later.1 name := by
    constructor
    · intro h
      cases h with
      | map hkeys honce => exact ⟨hkeys, honce⟩
    · rintro ⟨hkeys, honce⟩
      exact .map hkeys honce
  rw [hform]
  clear hform
  induction entries with
  | nil =>
      exact ⟨fun _ => ⟨nofun, .nil⟩, fun _ => ⟨[], rfl⟩⟩
  | cons entry entries ih =>
      rw [List.forall_mem_cons, List.pairwise_cons]
      constructor
      · rintro ⟨fields, h⟩
        obtain ⟨found, hfound, hfirst⟩ := namedFields_cons_iff.mp h
        obtain ⟨hkeys, honce⟩ := ih.mp ⟨found, hfound⟩
        rcases hfirst with ⟨⟨hkey, hnone⟩, -⟩ | ⟨first, hkey, hnew, -⟩
        · exact ⟨⟨hkey, hkeys⟩, fun _ _ name hname => absurd hname (hnone name), honce⟩
        · refine ⟨⟨hkey.isKey, hkeys⟩, fun later hlater name hname hagain => hnew ?_, honce⟩
          obtain rfl := hkey.unique hname
          exact List.mem_map.mpr ⟨_, (mem_namedFields hfound).mpr ⟨_, hlater, hagain⟩, rfl⟩
      · rintro ⟨⟨hkey, hkeys⟩, hfirst, honce⟩
        obtain ⟨found, hfound⟩ := ih.mpr ⟨hkeys, honce⟩
        by_cases hname : ∃ name, Means names entry.1 name
        · obtain ⟨name, hname⟩ := hname
          refine ⟨_, namedFields_cons_iff.mpr
            ⟨found, hfound, .inr ⟨name, hname, fun hmem => ?_, rfl⟩⟩⟩
          obtain ⟨⟨_, value⟩, hvalue, rfl⟩ := List.mem_map.mp hmem
          obtain ⟨later, hlater, hagain⟩ := (mem_namedFields hfound).mp hvalue
          exact hfirst _ hlater _ hname hagain
        · exact ⟨found, namedFields_cons_iff.mpr
            ⟨found, hfound, .inl ⟨⟨hkey, not_exists.mp hname⟩, rfl⟩⟩⟩

/-! ### Alternatives -/

/-- The fields of a value are found exactly where it has the form of an alternative. -/
theorem exists_fieldsOf_iff :
    (∃ fields, fieldsOf names d = some fields) ↔ IsAlternative names d := by
  cases d with
  | map entries =>
      exact exists_namedFields_iff
  | seq items =>
      rw [fieldsOf]
      constructor
      · rintro ⟨fields, h⟩
        split at h
        · next hlength => exact .seq hlength
        · cases h
      · intro h
        cases h with
        | seq hlength => exact ⟨_, if_pos hlength⟩
  | _ =>
      constructor
      · rintro ⟨fields, ⟨⟩⟩
      · nofun

/-- The value that is found for a field is the one that the alternative has in it. -/
theorem lookup_fieldsOf (hnames : names.Nodup) (h : fieldsOf names d = some fields) :
    fields.lookup name = some value ↔ HasField names d name value := by
  unfold fieldsOf at h
  split at h
  · next entries =>
      rw [lookup_eq_some_iff_mem (nodup_namedFields h), mem_namedFields h]
      constructor
      · rintro ⟨key, hmem, hkey⟩
        exact .named hmem hkey
      · intro hfield
        cases hfield with
        | named hmem hkey => exact ⟨_, hmem, hkey⟩
  · next items =>
      split at h
      · cases h
        have hkeys : ((names.zip items).map (·.1)).Nodup := by
          rw [List.zip_eq_zip_take_min, List.map_fst_zip (by simp)]
          exact hnames.sublist (List.take_sublist _ _)
        rw [lookup_eq_some_iff_mem hkeys, List.mem_iff_getElem?]
        simp only [List.getElem?_zip_eq_some]
        constructor
        · rintro ⟨i, hname, hitem⟩
          exact .placed hname hitem
        · intro hfield
          cases hfield with
          | placed hname hitem => exact ⟨_, hname, hitem⟩
      · cases h
  · cases h

theorem lookup_fieldsOf_eq_none_iff (hnames : names.Nodup) (h : fieldsOf names d = some fields) :
    fields.lookup name = none ↔ ∀ value, ¬ HasField names d name value := by
  simp only [← lookup_fieldsOf hnames h, Option.eq_none_iff_forall_not_mem, Option.mem_def]

theorem requiredText_eq_some_iff (hnames : names.Nodup) (h : fieldsOf names d = some fields)
    {text : String} :
    requiredText fields name = some text ↔ HasField names d name (.text text) := by
  rw [← lookup_fieldsOf hnames h, requiredText]
  cases hfound : fields.lookup name with
  | none => simp
  | some found => cases found <;> simp

theorem flag_eq_some_iff (hnames : names.Nodup) (h : fieldsOf names d = some fields)
    {default flag : Bool} :
    Datum.flag fields name default = some flag ↔ HasFlag names d name default flag := by
  have hflag : HasFlag names d name default flag ↔ fields.lookup name = some (.bool flag)
      ∨ fields.lookup name = none ∧ flag = default := by
    rw [lookup_fieldsOf hnames h, lookup_fieldsOf_eq_none_iff hnames h]
    constructor
    · rintro (hgiven | hmissing)
      · exact .inl hgiven
      · exact .inr ⟨hmissing, rfl⟩
    · rintro (hgiven | ⟨hmissing, rfl⟩)
      · exact .given hgiven
      · exact .missing hmissing
  rw [hflag, Datum.flag]
  cases hfound : fields.lookup name with
  | none => simp [eq_comm]
  | some found => cases found <;> simp

theorem optionalText_eq_some_iff (hnames : names.Nodup) (h : fieldsOf names d = some fields)
    {text : Option String} :
    optionalText fields name = some text ↔ HasOptionalText names d name text := by
  have htext : HasOptionalText names d name text
      ↔ (∃ given, fields.lookup name = some (.text given) ∧ text = some given)
        ∨ (fields.lookup name = some .null ∨ fields.lookup name = none) ∧ text = none := by
    simp only [lookup_fieldsOf hnames h, lookup_fieldsOf_eq_none_iff hnames h]
    constructor
    · rintro (hgiven | hnull | hmissing)
      · exact .inl ⟨_, hgiven, rfl⟩
      · exact .inr ⟨.inl hnull, rfl⟩
      · exact .inr ⟨.inr hmissing, rfl⟩
    · rintro (⟨given, hgiven, rfl⟩ | ⟨hnull | hmissing, rfl⟩)
      · exact .given hgiven
      · exact .null hnull
      · exact .missing hmissing
  rw [htext, optionalText]
  cases hfound : fields.lookup name with
  | none => simp [eq_comm]
  | some found => cases found <;> simp [eq_comm]

end EnvLayers.Datum
