import EnvLayers.Datum.Decode
import EnvLayers.Proofs.Outcome

/-
Module: EnvLayers.Proofs.Datum.Record
Purpose: Mappings that hold the same but for the items of some lists, and what a record that is read
  from one of them has in common with that of the other.
Main exports: Datum.EntriesAlike, Datum.RecordsAlike, map_readList_congr, Datum.Respects,
  Respects.readRecord
-/

namespace EnvLayers.Datum

/-- Entries that are the same, or lists under the same name with items that are pairwise alike. -/
inductive EntriesAlike (names : List String) (alike : Datum → Datum → Prop) :
    Datum × Datum → Datum × Datum → Prop where
  | same (key value : Datum) : EntriesAlike names alike (key, value) (key, value)
  | items {name : String} {items items' : List Datum} : name ∈ names →
      List.Forall₂ alike items items' →
      EntriesAlike names alike (.text name, .seq items) (.text name, .seq items')

/-- The same value, or mappings whose entries are pairwise the same but for the items of the lists
that stand under some names. -/
inductive RecordsAlike (names : List String) (alike : Datum → Datum → Prop) :
    Datum → Datum → Prop where
  | same (d : Datum) : RecordsAlike names alike d d
  | entries {entries entries' : List (Datum × Datum)} :
      List.Forall₂ (EntriesAlike names alike) entries entries' →
      RecordsAlike names alike (.map entries) (.map entries')

variable {α γ : Type} {names known seen : List String} {alike : Datum → Datum → Prop}
  {set : α → String → Datum → Decoded α} {φ : α → γ} {record record' : α}

/-- Lists of items that come to the same come to the same. -/
theorem map_readList_congr {read : Datum → Decoded α} {items items' : List Datum}
    (hread : ∀ d d', alike d d' → (read d').map φ = (read d).map φ)
    (h : List.Forall₂ alike items items') :
    (readList read (.seq items')).map (List.map φ)
      = (readList read (.seq items)).map (List.map φ) :=
  map_mapM_congr hread h

/-- Reading the same entry, or lists that are alike under a name where they may be, keeps in common
what two records have in common. -/
structure Respects (names known : List String) (alike : Datum → Datum → Prop)
    (set : α → String → Datum → Decoded α) (φ : α → γ) : Prop where
  same : ∀ record record' name d, φ record' = φ record →
    (set record' name d).map φ = (set record name d).map φ
  items : ∀ record record' name items items', φ record' = φ record → name ∈ names → name ∈ known →
    List.Forall₂ alike items items' →
    (set record' name (.seq items')).map φ = (set record name (.seq items)).map φ

/-- Reading one entry and then others keeps in common what each of the two steps does. -/
theorem map_foldFields_cons {key value value' : Datum} {rest rest' : List (Datum × Datum)}
    (hrecord : φ record' = φ record)
    (hvalue : ∀ name, readFieldName key = .ok name → name ∈ known →
      (set record' name value').map φ = (set record name value).map φ)
    (hrest : ∀ seen record record', φ record' = φ record →
      (foldFields known set seen record' rest').map φ
        = (foldFields known set seen record rest).map φ) :
    (foldFields known set seen record' ((key, value') :: rest')).map φ
      = (foldFields known set seen record ((key, value) :: rest)).map φ := by
  rw [foldFields, foldFields]
  cases hname : readFieldName key with
  | error fault =>
      rfl
  | ok name =>
      simp only [bind, Except.bind]
      split
      · next hknown =>
          split
          · rfl
          · exact map_bind_congr (hvalue name hname (List.contains_iff_mem.mp hknown))
              (hrest (name :: seen))
      · exact hrest seen record record' hrecord

theorem Respects.foldFields (h : Respects names known alike set φ)
    {entries entries' : List (Datum × Datum)}
    (hentries : List.Forall₂ (EntriesAlike names alike) entries entries')
    (hrecord : φ record' = φ record) :
    (Datum.foldFields known set seen record' entries').map φ
      = (Datum.foldFields known set seen record entries).map φ := by
  induction hentries generalizing seen record record' with
  | nil =>
      exact congrArg Except.ok hrecord
  | cons hentry _ ih =>
      cases hentry with
      | same key value =>
          refine map_foldFields_cons hrecord (fun name _ _ => ?_) fun _ _ _ => ih
          exact h.same record record' name value hrecord
      | @items name items items' hlisted hitems =>
          refine map_foldFields_cons hrecord (fun found hname hknown => ?_) fun _ _ _ => ih
          obtain rfl : name = found := Except.ok.inj hname
          exact h.items record record' name items items' hrecord hlisted hknown hitems

/-- Records that are read from mappings that are alike have in common what reading respects. -/
theorem Respects.readRecord (h : Respects names known alike set φ) {d d' : Datum}
    (hrecords : RecordsAlike names alike d d') (type : String) (start : α) :
    (Datum.readRecord type known set start d').map φ
      = (Datum.readRecord type known set start d).map φ := by
  cases hrecords with
  | same =>
      rfl
  | entries hentries =>
      exact h.foldFields hentries rfl

end EnvLayers.Datum
