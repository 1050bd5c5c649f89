import EnvLayers.Proofs.Datum.Alternative
import EnvLayers.Proofs.Op.Codec

/-
Module: EnvLayers.Proofs.Op.Declared
Purpose: Which operation an entry of a document declares, said by its fields: the name under the key
  of the kind, the value, and the flag and the separator that may be left out. An entry that fits
  operations of several kinds declares the one whose kind comes first.
Main exports: Op.putFields, Op.Fits, Op.DeclaredBy, Op.decodeAs?_eq_some_iff, Op.decode_ok_iff
-/

namespace EnvLayers.Op

/-- The fields of an operation that puts a value somewhere, in the order of their numbers. -/
def putFields (place : Placement) : List String := [place.key, "value", "path", "separator"]

/-- An entry has the fields of an operation. -/
inductive Fits (d : Datum) : Op → Prop where
  | put {place : Placement} {name value : String} {isPath : Bool} {separator : Option String} :
      d.IsAlternative (putFields place) →
      d.HasField (putFields place) place.key (.text name) →
      d.HasField (putFields place) "value" (.text value) →
      d.HasFlag (putFields place) "path" false isPath →
      d.HasOptionalText (putFields place) "separator" separator →
      Fits d (.put place name value isPath separator)
  | unset {name : String} : d.IsAlternative ["unset"] → d.HasField ["unset"] "unset" (.text name) →
      Fits d (.unset name)

/-- The kinds in their order. -/
def rank : Option Placement → Nat
  | some .define => 0
  | some .append => 1
  | some .prepend => 2
  | none => 3

/-- An entry declares an operation: there is no tag in it, it has the fields of the operation, and
none of an operation whose kind comes before. -/
structure DeclaredBy (d : Datum) (op : Op) : Prop where
  untagged : d.hasTag = false
  fits : op.Fits d
  first : ∀ other, Fits d other → rank op.kind ≤ rank other.kind

variable {d : Datum} {op other : Op} {kind : Option Placement} {place : Placement}

theorem nodup_putFields (place : Placement) : (putFields place).Nodup := by
  cases place <;> decide

theorem decodePut?_eq_some_iff :
    decodePut? place d = some op ↔ op.Fits d ∧ op.kind = some place := by
  have hnames := nodup_putFields place
  constructor
  · intro h
    simp only [decodePut?, Option.bind_eq_bind, Option.bind_eq_some_iff] at h
    obtain ⟨fields, hfields, name, hname, value, hvalue, isPath, hpath, separator, hseparator,
      hop⟩ := h
    cases hop
    have hform := Datum.exists_fieldsOf_iff.mp ⟨fields, hfields⟩
    rw [Datum.requiredText_eq_some_iff hnames hfields] at hname hvalue
    rw [Datum.flag_eq_some_iff hnames hfields] at hpath
    rw [Datum.optionalText_eq_some_iff hnames hfields] at hseparator
    exact ⟨.put hform hname hvalue hpath hseparator, rfl⟩
  · rintro ⟨hfits, hkind⟩
    cases hfits with
    | put hform hname hvalue hpath hseparator =>
        cases hkind
        obtain ⟨fields, hfields⟩ := Datum.exists_fieldsOf_iff.mpr hform
        rw [← Datum.requiredText_eq_some_iff hnames hfields] at hname hvalue
        rw [← Datum.flag_eq_some_iff hnames hfields] at hpath
        rw [← Datum.optionalText_eq_some_iff hnames hfields] at hseparator
        unfold putFields at hfields
        simp [decodePut?, hfields, hname, hvalue, hpath, hseparator]
    | unset _ _ =>
        cases hkind

theorem decodeUnset?_eq_some_iff : decodeUnset? d = some op ↔ op.Fits d ∧ op.kind = none := by
  have hnames : ["unset"].Nodup := List.nodup_singleton _
  constructor
  · intro h
    simp only [decodeUnset?, Option.bind_eq_bind, Option.bind_eq_some_iff] at h
    obtain ⟨fields, hfields, name, hname, hop⟩ := h
    cases hop
    rw [Datum.requiredText_eq_some_iff hnames hfields] at hname
    exact ⟨.unset (Datum.exists_fieldsOf_iff.mp ⟨fields, hfields⟩) hname, rfl⟩
  · rintro ⟨hfits, hkind⟩
    cases hfits with
    | put _ _ _ _ _ =>
        cases hkind
    | unset hform hname =>
        obtain ⟨fields, hfields⟩ := Datum.exists_fieldsOf_iff.mpr hform
        rw [← Datum.requiredText_eq_some_iff hnames hfields] at hname
        simp [decodeUnset?, hfields, hname]

/-- Reading as a kind finds the operation of this kind that fits. -/
theorem decodeAs?_eq_some_iff : decodeAs? kind d = some op ↔ op.Fits d ∧ op.kind = kind := by
  cases kind with
  | none => exact decodeUnset?_eq_some_iff
  | some place => exact decodePut?_eq_some_iff

/-- Of each kind, one operation fits at most. -/
theorem Fits.unique (h : op.Fits d) (hother : other.Fits d) (hkind : op.kind = other.kind) :
    op = other := by
  have hop := decodeAs?_eq_some_iff.mpr ⟨h, hkind⟩
  rw [decodeAs?_eq_some_iff.mpr ⟨hother, rfl⟩] at hop
  exact (Option.some.inj hop).symm

/-! ### The order of the kinds -/

theorem pairwise_rank_kinds : kinds.Pairwise fun kind later => rank kind < rank later := by
  decide

theorem rank_injective : Function.Injective rank := by
  intro kind kind' h
  have hnodup : (kinds.map rank).Nodup := by
    decide
  exact List.inj_on_of_nodup_map hnodup (mem_kinds kind) (mem_kinds kind') h

/-- Reading finds the operation that fits and whose kind comes before that of any other. -/
theorem decode?_eq_some_iff :
    decode? d = some op ↔ op.Fits d ∧ ∀ other, Fits d other → rank op.kind ≤ rank other.kind := by
  have hfound : ∀ op, decode? d = some op →
      op.Fits d ∧ ∀ other, Fits d other → rank op.kind ≤ rank other.kind := by
    intro op h
    rw [decode?_eq_findSome?] at h
    obtain ⟨before, kind, after, hkinds, hkind, hbefore⟩ := List.findSome?_eq_some_iff.mp h
    obtain ⟨hfits, rfl⟩ := decodeAs?_eq_some_iff.mp hkind
    refine ⟨hfits, fun other hother => ?_⟩
    have hmem := mem_kinds other.kind
    have hsorted := pairwise_rank_kinds
    rw [hkinds, List.mem_append, List.mem_cons] at hmem
    rw [hkinds, List.pairwise_append, List.pairwise_cons] at hsorted
    rcases hmem with hearlier | hsame | hlater
    · have hnone := hbefore other.kind hearlier
      rw [decodeAs?_eq_some_iff.mpr ⟨hother, rfl⟩] at hnone
      cases hnone
    · exact Nat.le_of_eq (congrArg rank hsame.symm)
    · exact Nat.le_of_lt (hsorted.2.1.1 _ hlater)
  constructor
  · exact hfound op
  · rintro ⟨hfits, hfirst⟩
    cases h : decode? d with
    | none =>
        rw [decode?_eq_findSome?] at h
        have hnone := List.findSome?_eq_none_iff.mp h op.kind (mem_kinds op.kind)
        rw [decodeAs?_eq_some_iff.mpr ⟨hfits, rfl⟩] at hnone
        cases hnone
    | some found =>
        obtain ⟨hfitsFound, hfirstFound⟩ := hfound found h
        have hkind : op.kind = found.kind :=
          rank_injective (Nat.le_antisymm (hfirst found hfitsFound) (hfirstFound op hfits))
        rw [hfits.unique hfitsFound hkind]

/-- An entry is read as the operation that it declares, and is refused if it declares none. -/
theorem decode_ok_iff : decode d = .ok op ↔ op.DeclaredBy d := by
  rw [decode]
  constructor
  · intro h
    split at h
    · cases h
    · next htag =>
        split at h
        · next found hfound =>
            cases h
            obtain ⟨hfits, hfirst⟩ := decode?_eq_some_iff.mp hfound
            exact ⟨eq_false_of_ne_true htag, hfits, hfirst⟩
        · cases h
  · intro h
    have hfound : decode? d = some op := decode?_eq_some_iff.mpr ⟨h.fits, h.first⟩
    simp [h.untagged, hfound]

end EnvLayers.Op
