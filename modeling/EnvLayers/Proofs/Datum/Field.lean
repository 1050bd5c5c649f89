import EnvLayers.Datum.Decode
import EnvLayers.Proofs.Outcome
import Mathlib.Data.List.Forall2
import Mathlib.Data.List.Pairwise

/-
Module: EnvLayers.Proofs.Datum.Field
Purpose: What a document says in the fields of its records, apart from how it is read: a text, a
  value that may be null, a list, a record that gives no known field twice. A record is read where
  every field can be set, and then it has in each field what the document gives to it, in whatever
  order the fields are written.
Main exports: Datum.IsText, Datum.IsOptional, Datum.IsListOf, Datum.IsRecord, Datum.Gives,
  Datum.Reads, Datum.IsField, IsField.of_update, IsField.gives_iff, Datum.Settable,
  Datum.exists_foldFields, Datum.readRecord_ok_iff
-/

namespace EnvLayers.Datum

/-! ### Values -/

/-- A value is a text, under any tags. -/
def IsText (d : Datum) (text : String) : Prop := d.untag = .text text

/-- A value that may be null. A tag makes even null a value. -/
inductive IsOptional {β : Type} (holds : Datum → β → Prop) : Datum → Option β → Prop where
  | null : IsOptional holds .null none
  | given {d : Datum} {value : β} : d ≠ .null → holds d value → IsOptional holds d (some value)

/-- A sequence of values in their order, under any tags. Null is the empty sequence. -/
inductive IsListOf {β : Type} (holds : Datum → β → Prop) (d : Datum) : List β → Prop where
  | items {items : List Datum} {list : List β} : d.untag = .seq items →
      List.Forall₂ holds items list → IsListOf holds d list
  | null : d.untag = .null → IsListOf holds d []

/-- The entries of a mapping, under any tags. Null has no entries. -/
inductive HasEntries (d : Datum) : List (Datum × Datum) → Prop where
  | map {entries : List (Datum × Datum)} : d.untag = .map entries → HasEntries d entries
  | null : d.untag = .null → HasEntries d []

variable {α β : Type} {d : Datum} {text : String} {read : Datum → Decoded β}
  {holds : Datum → β → Prop}

/-- Reading finds what a value holds, and is refused where it holds nothing. -/
def Reads (read : Datum → Decoded β) (holds : Datum → β → Prop) : Prop :=
  ∀ d value, read d = .ok value ↔ holds d value

theorem Reads.unique (h : Reads read holds) {value value' : β} (hvalue : holds d value)
    (hvalue' : holds d value') : value = value' := by
  have hread := (h d value).mpr hvalue
  rw [(h d value').mpr hvalue'] at hread
  exact (Except.ok.inj hread).symm

theorem IsText.unique {text' : String} (h : d.IsText text) (h' : d.IsText text') : text = text' :=
  Datum.text.inj (h.symm.trans h')

theorem reads_text : Reads readText IsText := by
  intro d text
  rw [readText, IsText]
  cases d.untag <;> simp

theorem reads_path : Reads readPath IsText := by
  intro d text
  rw [readPath, IsText]
  cases d.untag <;> simp

theorem reads_fieldName : Reads readFieldName IsText := by
  intro d text
  rw [readFieldName, IsText]
  cases d.untag <;> simp

theorem Reads.map {γ : Type} (h : Reads read holds) (f : β → γ) :
    Reads (fun d => (read d).map f) fun d result => ∃ value, holds d value ∧ result = f value := by
  intro d result
  simp only [← h d]
  cases read d <;> simp [Except.map, eq_comm]

theorem readOptional_of_ne_null (h : d ≠ .null) : d.readOptional read = (read d).map some := by
  cases d <;> first | rfl | exact absurd rfl h

theorem readOptional_map {γ : Type} (read : Datum → Decoded β) (f : β → γ) (d : Datum) :
    d.readOptional (fun d => (read d).map f) = (d.readOptional read).map (Option.map f) := by
  by_cases h : d = .null
  · subst h
    rfl
  · rw [readOptional_of_ne_null h, readOptional_of_ne_null h]
    cases read d <;> rfl

theorem Reads.optional (h : Reads read holds) : Reads (readOptional read) (IsOptional holds) := by
  intro d value
  by_cases hnull : d = .null
  · subst hnull
    constructor
    · rintro ⟨⟩
      exact .null
    · intro hvalue
      cases hvalue with
      | null => rfl
      | given hne _ => exact absurd rfl hne
  · rw [readOptional_of_ne_null hnull]
    constructor
    · intro hmap
      cases hd : read d with
      | error fault =>
          rw [hd] at hmap
          cases hmap
      | ok found =>
          rw [hd] at hmap
          cases hmap
          exact .given hnull ((h d found).mp hd)
    · intro hvalue
      cases hvalue with
      | null => exact absurd rfl hnull
      | given _ hfound => rw [(h d _).mpr hfound, Except.map]

theorem Reads.list (h : Reads read holds) : Reads (readList read) (IsListOf holds) := by
  have hholds : (fun item value => read item = .ok value) = holds :=
    funext₂ fun item value => propext (h item value)
  have hitems : ∀ items list, items.mapM read = .ok list ↔ List.Forall₂ holds items list := by
    intro items list
    rw [mapM_ok_iff, hholds]
  intro d list
  rw [readList]
  constructor
  · intro hread
    split at hread
    · next items hd => exact .items hd ((hitems items list).mp hread)
    · next hd =>
        cases hread
        exact .null hd
    · cases hread
  · intro hlist
    cases hlist with
    | items hd hforall => simpa only [hd] using (hitems _ list).mpr hforall
    | null hd => simp only [hd]

theorem reads_entries (type : String) : Reads (readEntries type) HasEntries := by
  intro d entries
  rw [readEntries]
  constructor
  · intro hread
    split at hread
    · next hd =>
        cases hread
        exact .map hd
    · next hd =>
        cases hread
        exact .null hd
    · cases hread
  · intro hentries
    cases hentries with
    | map hd => simp only [hd]
    | null hd => simp only [hd]

theorem hasEntries_map_iff {entries entries' : List (Datum × Datum)} :
    HasEntries (.map entries) entries' ↔ entries' = entries := by
  constructor
  · intro h
    cases h with
    | map hd => exact (Datum.map.inj hd).symm
    | null hd => cases hd
  · rintro rfl
    exact .map rfl

/-! ### Records -/

/-- All keys of some entries are texts, and none that names a known field repeats an earlier one. -/
structure WellKeyed (known : List String) (entries : List (Datum × Datum)) : Prop where
  named : ∀ entry ∈ entries, ∃ name, entry.1.IsText name
  once : entries.Pairwise fun entry later =>
    ∀ name ∈ known, entry.1.IsText name → ¬ later.1.IsText name

/-- A value is a record with some known fields. -/
structure IsRecord (known : List String) (d : Datum) (entries : List (Datum × Datum)) : Prop where
  mapping : d.HasEntries entries
  keys : WellKeyed known entries

/-- Entries give a value to a field, or leave the field out and with it the value that it starts
with. -/
inductive Gives {β : Type} (entries : List (Datum × Datum)) (name : String)
    (holds : Datum → β → Prop) (start : β) : β → Prop where
  | given {key found : Datum} {value : β} : (key, found) ∈ entries → key.IsText name →
      holds found value → Gives entries name holds start value
  | missing : (∀ entry ∈ entries, ¬ entry.1.IsText name) → Gives entries name holds start start

variable {known seen : List String} {set : α → String → Datum → Decoded α} {name : String}
  {φ : α → β} {start record record' : α} {entries : List (Datum × Datum)} {key value : Datum}

theorem WellKeyed.eq_of_mem (h : WellKeyed known entries) (hname : name ∈ known)
    {entry entry' : Datum × Datum} (hentry : entry ∈ entries) (hentry' : entry' ∈ entries)
    (hkey : entry.1.IsText name) (hkey' : entry'.1.IsText name) : entry = entry' := by
  have hsymm : Std.Symm fun entry later : Datum × Datum =>
      ∀ name ∈ known, entry.1.IsText name → ¬ later.1.IsText name :=
    ⟨fun _ _ hpair name hname hlater hearlier => hpair name hname hearlier hlater⟩
  by_contra hne
  exact h.once.forall hentry hentry' hne name hname hkey hkey'

/-- What a field holds that entries give a value to is what one of the entries holds. -/
theorem Gives.holds_of_mem {first last : β} (h : Gives entries name holds first last)
    (hkeys : WellKeyed known entries) (hname : name ∈ known) {entry : Datum × Datum}
    (hentry : entry ∈ entries) (hkey : entry.1.IsText name) : holds entry.2 last := by
  cases h with
  | given hmem hkey' hfound =>
      cases hkeys.eq_of_mem hname hentry hmem hkey hkey'
      exact hfound
  | missing hnone => exact absurd hkey (hnone entry hentry)

/-- Fewer known fields ask for less. -/
theorem WellKeyed.mono {fewer : List String} (h : WellKeyed known entries) (hsub : fewer ⊆ known) :
    WellKeyed fewer entries where
  named := h.named
  once := h.once.imp fun hpair name hname => hpair name (hsub hname)

/-- One part of a record is what a field of the document holds: setting the field puts there what is
read, and setting another field leaves the part as it is. -/
structure IsField (known : List String) (set : α → String → Datum → Decoded α) (name : String)
    (holds : Datum → β → Prop) (φ : α → β) : Prop where
  mem : name ∈ known
  own : ∀ {record record' d}, set record name d = .ok record' → holds d (φ record')
  other : ∀ {record record' field d}, field ∈ known → field ≠ name →
    set record field d = .ok record' → φ record' = φ record
  settable : ∀ {record d}, (∃ value, holds d value) → ∃ record', set record name d = .ok record'
  unique : ∀ {d value value'}, holds d value → holds d value' → value = value'

/-- Setting a field reads its value and puts it in the place of one part of a record. -/
theorem IsField.of_update (update : α → β → α) (hreads : Reads read holds)
    (hset : ∀ record d, set record name d = read d >>= fun value => pure (update record value))
    (hpart : ∀ record value, φ (update record value) = value) (hmem : name ∈ known)
    (hother : ∀ {field record record' d}, field ∈ known → set record field d = .ok record' →
      field ≠ name → φ record' = φ record) :
    IsField known set name holds φ where
  mem := hmem
  own {record record' d} h := by
    rw [hset] at h
    obtain ⟨value, hvalue, hupdate⟩ := bind_ok_iff.mp h
    cases hupdate
    rw [hpart]
    exact (hreads d value).mp hvalue
  other hfield hne h := hother hfield h hne
  settable {record d} h := by
    obtain ⟨value, hvalue⟩ := h
    refine ⟨update record value, ?_⟩
    rw [hset, (hreads d value).mpr hvalue]
    rfl
  unique h h' := hreads.unique h h'

/-! ### Reading entry by entry -/

/-- One entry is read before the others: a known field that was not there yet, or a field that is
left alone. -/
theorem foldFields_cons_ok_iff :
    foldFields known set seen record ((key, value) :: entries) = .ok record'
      ↔ ∃ field, key.IsText field
        ∧ (field ∈ known ∧ field ∉ seen ∧ (∃ next, set record field value = .ok next
            ∧ foldFields known set (field :: seen) next entries = .ok record')
          ∨ field ∉ known ∧ foldFields known set seen record entries = .ok record') := by
  rw [foldFields, bind_ok_iff]
  apply exists_congr
  intro field
  rw [reads_fieldName key field]
  apply and_congr_right
  intro _
  by_cases hknown : field ∈ known
  · rw [if_pos (List.contains_iff_mem.mpr hknown)]
    by_cases hseen : field ∈ seen
    · rw [if_pos (List.contains_iff_mem.mpr hseen)]
      simp [hknown, hseen, throw, throwThe, MonadExceptOf.throw, bind, Except.bind]
    · rw [if_neg (mt List.contains_iff_mem.mp hseen)]
      simp [hknown, hseen, bind_ok_iff]
  · rw [if_neg (mt List.contains_iff_mem.mp hknown)]
    simp [hknown]

/-- Entries that are read are well keyed, and give no field that was read before them. -/
theorem wellKeyed_of_foldFields (hsub : seen ⊆ known)
    (h : foldFields known set seen record entries = .ok record') :
    WellKeyed known entries ∧ ∀ entry ∈ entries, ∀ name ∈ seen, ¬ entry.1.IsText name := by
  induction entries generalizing seen record with
  | nil =>
      exact ⟨⟨nofun, .nil⟩, nofun⟩
  | cons entry entries ih =>
      obtain ⟨field, hfield, ⟨hknown, hnew, next, -, hrest⟩ | ⟨hunknown, hrest⟩⟩ :=
        foldFields_cons_ok_iff.mp h
      · obtain ⟨hkeys, hseen⟩ := ih (List.cons_subset.mpr ⟨hknown, hsub⟩) hrest
        refine ⟨⟨?_, ?_⟩, ?_⟩
        · exact List.forall_mem_cons.mpr ⟨⟨field, hfield⟩, hkeys.named⟩
        · refine List.pairwise_cons.mpr ⟨fun later hlater name _ hname => ?_, hkeys.once⟩
          exact hfield.unique hname ▸ hseen later hlater field List.mem_cons_self
        · refine List.forall_mem_cons.mpr ⟨fun name hname hkey => ?_, fun later hlater => ?_⟩
          · exact hnew (hfield.unique hkey ▸ hname)
          · exact fun name hname => hseen later hlater name (List.mem_cons_of_mem field hname)
      · obtain ⟨hkeys, hseen⟩ := ih hsub hrest
        refine ⟨⟨?_, ?_⟩, ?_⟩
        · exact List.forall_mem_cons.mpr ⟨⟨field, hfield⟩, hkeys.named⟩
        · refine List.pairwise_cons.mpr ⟨fun later _ name hname hkey => ?_, hkeys.once⟩
          exact absurd (hfield.unique hkey ▸ hname) hunknown
        · refine List.forall_mem_cons.mpr ⟨fun name hname hkey => ?_, hseen⟩
          exact hunknown (hsub (hfield.unique hkey ▸ hname))

/-- What some entries give to a field can be set in any record. -/
def Settable (set : α → String → Datum → Decoded α) (entries : List (Datum × Datum))
    (name : String) : Prop :=
  ∀ entry ∈ entries, entry.1.IsText name → ∀ record, ∃ next, set record name entry.2 = .ok next

/-- Entries that are well keyed are read if all known fields can be set. -/
theorem exists_foldFields (hkeys : WellKeyed known entries)
    (hseen : ∀ entry ∈ entries, ∀ name ∈ seen, ¬ entry.1.IsText name)
    (hset : ∀ name ∈ known, Settable set entries name) :
    ∃ record', foldFields known set seen record entries = .ok record' := by
  induction entries generalizing seen record with
  | nil =>
      exact ⟨record, rfl⟩
  | cons entry entries ih =>
      obtain ⟨⟨field, hfield⟩, hnamed⟩ := List.forall_mem_cons.mp hkeys.named
      obtain ⟨hfirst, honce⟩ := List.pairwise_cons.mp hkeys.once
      obtain ⟨hnew, hlater⟩ := List.forall_mem_cons.mp hseen
      have hrest : ∀ name ∈ known, Settable set entries name :=
        fun name hname later hmem => hset name hname later (List.mem_cons_of_mem entry hmem)
      by_cases hknown : field ∈ known
      · obtain ⟨next, hnext⟩ := hset field hknown entry List.mem_cons_self hfield record
        have hseen' : ∀ later ∈ entries, ∀ name ∈ field :: seen, ¬ later.1.IsText name :=
          fun later hmem => List.forall_mem_cons.mpr
            ⟨hfirst later hmem field hknown hfield, hlater later hmem⟩
        obtain ⟨last, hlast⟩ := ih ⟨hnamed, honce⟩ hseen' hrest
        have hunseen : field ∉ seen := fun hmem => hnew field hmem hfield
        exact ⟨last, foldFields_cons_ok_iff.mpr
          ⟨field, hfield, .inl ⟨hknown, hunseen, next, hnext, hlast⟩⟩⟩
      · obtain ⟨last, hlast⟩ := ih ⟨hnamed, honce⟩ hlater hrest
        exact ⟨last, foldFields_cons_ok_iff.mpr ⟨field, hfield, .inr ⟨hknown, hlast⟩⟩⟩

/-- A record is read if all known fields can be set. -/
theorem IsRecord.exists_foldFields (h : IsRecord known d entries)
    (hset : ∀ name ∈ known, Settable set entries name) (start : α) :
    ∃ record, foldFields known set [] start entries = .ok record :=
  Datum.exists_foldFields h.keys (fun _ _ _ hmem => absurd hmem List.not_mem_nil) hset

theorem readRecord_ok_iff {type : String} :
    readRecord type known set start d = .ok record
      ↔ ∃ entries, d.IsRecord known entries
        ∧ foldFields known set [] start entries = .ok record := by
  rw [readRecord, bind_ok_iff]
  apply exists_congr
  intro entries
  rw [reads_entries type d entries]
  constructor
  · rintro ⟨hentries, hfold⟩
    exact ⟨⟨hentries, (wellKeyed_of_foldFields (List.nil_subset known) hfold).1⟩, hfold⟩
  · rintro ⟨hrecord, hfold⟩
    exact ⟨hrecord.mapping, hfold⟩

/-! ### Fields -/

theorem Gives.cons_of_ne {holds : Datum → β → Prop} {first last : β} (hkey : ¬ key.IsText name)
    (h : Gives entries name holds first last) :
    Gives ((key, value) :: entries) name holds first last := by
  cases h with
  | given hmem hname hfound =>
      exact .given (List.mem_cons_of_mem _ hmem) hname hfound
  | missing hnone =>
      exact .missing (List.forall_mem_cons.mpr ⟨hkey, hnone⟩)

/-- A field that was read already is not read again. -/
theorem IsField.eq_of_seen (h : IsField known set name holds φ) (hseen : name ∈ seen)
    (hfold : foldFields known set seen record entries = .ok record') : φ record' = φ record := by
  induction entries generalizing seen record with
  | nil =>
      cases hfold
      rfl
  | cons entry entries ih =>
      obtain ⟨field, -, ⟨hknown, hnew, next, hset, hrest⟩ | ⟨-, hrest⟩⟩ :=
        foldFields_cons_ok_iff.mp hfold
      · have hne : field ≠ name := fun heq => hnew (heq ▸ hseen)
        rw [ih (List.mem_cons_of_mem field hseen) hrest, h.other hknown hne hset]
      · exact ih hseen hrest

/-- A record that was read has in each field what the entries give to it. -/
theorem IsField.gives (h : IsField known set name holds φ)
    (hfold : foldFields known set seen record entries = .ok record') :
    Gives entries name holds (φ record) (φ record') := by
  -- The first entry of the field is the only one: it puts the field among those that were seen.
  induction entries generalizing seen record with
  | nil =>
      cases hfold
      exact .missing nofun
  | cons entry entries ih =>
      obtain ⟨field, hfield, ⟨hknown, -, next, hset, hrest⟩ | ⟨hunknown, hrest⟩⟩ :=
        foldFields_cons_ok_iff.mp hfold
      · by_cases hown : field = name
        · subst hown
          rw [h.eq_of_seen List.mem_cons_self hrest]
          exact .given List.mem_cons_self hfield (h.own hset)
        · rw [← h.other hknown hown hset]
          exact (ih hrest).cons_of_ne fun hkey => hown (hfield.unique hkey)
      · refine (ih hrest).cons_of_ne fun hkey => hunknown ?_
        exact hfield.unique hkey ▸ h.mem

/-- What entries give to a field is what a record that was read has there. -/
theorem IsField.gives_iff (h : IsField known set name holds φ) {part : β}
    (hfold : foldFields known set [] start entries = .ok record) :
    Gives entries name holds (φ start) part ↔ φ record = part := by
  have hgiven := h.gives hfold
  have hkeys := (wellKeyed_of_foldFields (List.nil_subset known) hfold).1
  constructor
  · intro hpart
    cases hpart with
    | given hmem hkey hfound =>
        exact h.unique (hgiven.holds_of_mem hkeys h.mem hmem hkey) hfound
    | missing hnone =>
        generalize φ record = part at hgiven
        cases hgiven with
        | given hmem hkey _ => exact absurd hkey (hnone _ hmem)
        | missing _ => rfl
  · rintro rfl
    exact hgiven

/-- A field to which entries give a value can be set to it. -/
theorem IsField.settable_of_gives (h : IsField known set name holds φ)
    (hkeys : WellKeyed known entries) {first part : β}
    (hgives : Gives entries name holds first part) : Settable set entries name := by
  intro entry hentry hkey record
  exact h.settable ⟨part, hgives.holds_of_mem hkeys h.mem hentry hkey⟩

end EnvLayers.Datum
