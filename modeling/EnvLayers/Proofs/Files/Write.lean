import EnvLayers.Files.Basic
import EnvLayers.Proofs.Outcome

/-
Module: EnvLayers.Proofs.Files.Write
Purpose: What the changes of a file system leave as it was. A path that leads to a place still leads
  there afterwards, and a file that was written holds its text until it is written again.
Main exports: Files.Kept, Files.Extended, Files.Holds, Files.ChangedAt, Files.step_ok_iff,
  Files.find_ok_iff, Files.slot?_ok_iff, Files.extended_of_createDirectories, Files.exists_of_write,
  Files.Holds.readText, Files.Holds.makeExecutable
-/

namespace EnvLayers.Files

variable {f f' f'' : Files} {path text name : String} {place place' : Place} {entry : Entry}

/-! ### What stands at a place after a change -/

@[simp] theorem entry?_root (f : Files) : f.entry? [] = some .directory := if_pos rfl

theorem entry?_put_self (f : Files) (h : place ≠ []) (entry : Entry) :
    Files.entry? (f.put place entry) place = some entry := by
  unfold entry? put
  simp [h]

theorem lookup_filter_of_ne {other : Place} (h : other ≠ place) (entries : List (Place × Entry)) :
    (entries.filter (·.1 ≠ place)).lookup other = entries.lookup other := by
  induction entries with
  | nil =>
      rfl
  | cons first rest ih =>
      by_cases hfirst : first.1 = place
      · rw [List.filter_cons_of_neg (by simpa using hfirst), ih, List.lookup_cons,
          beq_false_of_ne (hfirst ▸ h)]
      · rw [List.filter_cons_of_pos (by simpa using hfirst), List.lookup_cons, List.lookup_cons, ih]

theorem entry?_put_of_ne (f : Files) {other : Place} (h : other ≠ place) (entry : Entry) :
    Files.entry? (f.put place entry) other = f.entry? other := by
  unfold entry? put
  simp only [List.lookup_cons, beq_false_of_ne h, lookup_filter_of_ne h]

/-! ### Changes that leave the way along a path -/

/-- Something stands at every place where something stood, and directories stay directories. -/
structure Kept (f f' : Files) : Prop where
  current : f'.current = f.current
  present : ∀ place, (f.entry? place).isSome → (f'.entry? place).isSome
  directory : ∀ place, f.entry? place = some .directory → f'.entry? place = some .directory

namespace Kept

theorem refl (f : Files) : Kept f f := ⟨rfl, fun _ h => h, fun _ h => h⟩

theorem trans (h : Kept f f') (h' : Kept f' f'') : Kept f f'' where
  current := h'.current.trans h.current
  present := fun place hplace => h'.present place (h.present place hplace)
  directory := fun place hplace => h'.directory place (h.directory place hplace)

theorem put (h : f.entry? place = some .directory → entry = .directory) :
    Kept f (f.put place entry) where
  current := rfl
  present := fun other hother => by
    by_cases hroot : other = []
    · simp [hroot]
    · by_cases hsame : other = place
      · rw [← hsame, entry?_put_self f hroot, Option.isSome_some]
      · rwa [entry?_put_of_ne f hsame]
  directory := fun other hother => by
    by_cases hroot : other = []
    · simp [hroot]
    · by_cases hsame : other = place
      · rw [← hsame, entry?_put_self f hroot, h (hsame ▸ hother)]
      · rwa [entry?_put_of_ne f hsame]

end Kept

theorem checkDirectory_ok_iff :
    f.checkDirectory place = .ok () ↔ f.entry? place = some .directory := by
  unfold checkDirectory
  split <;> simp_all

/-- The ways in which one name is followed. -/
theorem step_ok_iff : f.step place name = .ok place' ↔ f.entry? place = some .directory
    ∧ (name = "." ∧ place' = place ∨ name = ".." ∧ place' = place.dropLast
      ∨ name ≠ "." ∧ name ≠ ".." ∧ checkName name = .ok ()
        ∧ (f.entry? (place ++ [name])).isSome ∧ place' = place ++ [name]) := by
  unfold step
  rw [check_ok_iff, checkDirectory_ok_iff]
  refine and_congr_right fun _ => ?_
  by_cases hdot : name = "."
  · simp [hdot, pure_ok_iff]
  · by_cases hdots : name = ".."
    · simp [hdots, pure_ok_iff]
    · by_cases hthere : (f.entry? (place ++ [name])).isSome
      · simp [hdot, hdots, hthere, check_ok_iff, pure_ok_iff, -bind_pure_comp]
      · simp [hdot, hdots, hthere, check_ok_iff, throw, throwThe, MonadExceptOf.throw]

/-- The ways in which a path leads to an entry. -/
theorem find_ok_iff : f.find path = .ok (place, entry) ↔ checkPath path = .ok ()
    ∧ (Path.names path).foldlM f.step (f.start path) = .ok place ∧ f.entry? place = some entry
    ∧ (Path.endsInSlash path → entry = .directory) := by
  unfold find
  rw [check_ok_iff, bind_ok_iff]
  refine and_congr_right fun _ => ⟨?_, ?_⟩
  · rintro ⟨reached, hreached, hentry⟩
    split at hentry
    · cases hentry
    · next found hfound =>
      split at hentry
      · cases hentry
      · next hslash =>
        obtain ⟨rfl, rfl⟩ := Prod.mk.inj (pure_ok_iff.mp hentry)
        exact ⟨hreached, hfound, by simpa using hslash⟩
  · rintro ⟨hreached, hentry, hslash⟩
    refine ⟨place, hreached, ?_⟩
    rw [hentry]
    exact (if_neg (by simpa using hslash)).trans rfl

/-- The ways in which a path names a place for something new. -/
theorem slot?_ok_iff : f.slot? path = .ok (some place) ↔ checkPath path = .ok ()
    ∧ ∃ parent name, (Path.names path).dropLast.foldlM f.step (f.start path) = .ok parent
      ∧ f.entry? parent = some .directory ∧ (Path.names path).getLast? = some name
      ∧ name ≠ "." ∧ name ≠ ".." ∧ checkName name = .ok () ∧ place = parent ++ [name] := by
  unfold slot?
  rw [check_ok_iff, bind_ok_iff]
  simp only [check_ok_iff, checkDirectory_ok_iff]
  refine and_congr_right fun _ => exists_congr fun parent => ?_
  cases hlast : (Path.names path).getLast? with
  | none =>
      simp [pure_ok_iff]
  | some name =>
      by_cases hdots : name = "." ∨ name = ".."
      · rcases hdots with rfl | rfl <;> simp [pure_ok_iff]
      · rw [not_or] at hdots
        simp [hdots, check_ok_iff, pure_ok_iff, -bind_pure_comp]

namespace Kept

theorem start (h : Kept f f') (path : String) : f'.start path = f.start path := by
  rw [Files.start, Files.start, h.current]

theorem step (h : Kept f f') (hstep : f.step place name = .ok place') :
    f'.step place name = .ok place' := by
  rw [step_ok_iff] at hstep ⊢
  obtain ⟨hdirectory, hname⟩ := hstep
  refine ⟨h.directory _ hdirectory, hname.imp_right (Or.imp_right ?_)⟩
  rintro ⟨hdot, hdots, hshort, hthere, hplace⟩
  exact ⟨hdot, hdots, hshort, h.present _ hthere, hplace⟩

/-- What could be walked before can be walked afterwards. -/
theorem walk (h : Kept f f') {names : List String}
    (hwalk : names.foldlM f.step place = .ok place') :
    names.foldlM f'.step place = .ok place' := by
  induction names generalizing place with
  | nil =>
      exact hwalk
  | cons name names ih =>
      rw [List.foldlM_cons, bind_ok_iff] at hwalk ⊢
      obtain ⟨next, hstep, hrest⟩ := hwalk
      exact ⟨next, h.step hstep, ih hrest⟩

/-- A path that led somewhere leads to what stands there afterwards. -/
theorem find (h : Kept f f') {entry' : Entry} (hfind : f.find path = .ok (place, entry))
    (hentry : f'.entry? place = some entry')
    (hslash : Path.endsInSlash path → entry' = .directory) :
    f'.find path = .ok (place, entry') := by
  rw [find_ok_iff] at hfind ⊢
  obtain ⟨hpath, hwalk, -, -⟩ := hfind
  exact ⟨hpath, h.start path ▸ h.walk hwalk, hentry, hslash⟩

/-- A path that named a place for something new leads to what stands there afterwards. -/
theorem find_slot (h : Kept f f') (hslot : f.slot? path = .ok (some place))
    (hentry : f'.entry? place = some entry) (hslash : Path.endsInSlash path → entry = .directory) :
    f'.find path = .ok (place, entry) := by
  obtain ⟨hpath, parent, name, hwalk, hparent, hlast, hdot, hdots, hshort, rfl⟩ :=
    slot?_ok_iff.mp hslot
  have hnames : Path.names path = (Path.names path).dropLast ++ [name] :=
    (List.dropLast_append_getLast? name hlast).symm
  refine find_ok_iff.mpr ⟨hpath, ?_, hentry, hslash⟩
  rw [hnames, List.foldlM_append, bind_ok_iff]
  refine ⟨parent, h.start path ▸ h.walk hwalk, ?_⟩
  rw [List.foldlM_cons, bind_ok_iff]
  refine ⟨parent ++ [name], step_ok_iff.mpr ⟨h.directory _ hparent, .inr (.inr ?_)⟩, rfl⟩
  exact ⟨hdot, hdots, hshort, by rw [hentry, Option.isSome_some], rfl⟩

end Kept

/-! ### Changes that only add -/

/-- What stood somewhere still stands there. -/
structure Extended (f f' : Files) : Prop where
  current : f'.current = f.current
  entry : ∀ place entry, f.entry? place = some entry → f'.entry? place = some entry

namespace Extended

theorem refl (f : Files) : Extended f f := ⟨rfl, fun _ _ h => h⟩

theorem trans (h : Extended f f') (h' : Extended f' f'') : Extended f f'' where
  current := h'.current.trans h.current
  entry := fun place entry hentry => h'.entry place entry (h.entry place entry hentry)

theorem kept (h : Extended f f') : Kept f f' where
  current := h.current
  present := fun place hplace => by
    obtain ⟨entry, hentry⟩ := Option.isSome_iff_exists.mp hplace
    rw [h.entry place entry hentry, Option.isSome_some]
  directory := fun place => h.entry place .directory

theorem put (h : f.entry? place = none) (entry : Entry) : Extended f (f.put place entry) where
  current := rfl
  entry := fun other found hother => by
    have hne : other ≠ place := by
      rintro rfl
      rw [h] at hother
      cases hother
    rwa [entry?_put_of_ne f hne]

end Extended

theorem extended_of_createDirectory (h : f.createDirectory path = .ok f') : Extended f f' := by
  unfold createDirectory at h
  obtain ⟨slot, -, h⟩ := bind_ok_iff.mp h
  cases slot with
  | none =>
      cases h
  | some place =>
      dsimp only at h
      split at h
      · cases h
      · next hfree =>
        rw [pure_ok_iff] at h
        exact h ▸ .put (Option.not_isSome_iff_eq_none.mp hfree) _

theorem extended_of_createAlong {paths : List String} (h : f.createAlong paths = .ok f') :
    Extended f f' := by
  induction paths generalizing f' with
  | nil =>
      cases h
  | cons path outer ih =>
      unfold createAlong at h
      split at h
      · cases h
        exact .refl f
      · split at h
        · next hcreate =>
          cases h
          exact extended_of_createDirectory hcreate
        · obtain ⟨f₁, houter, h⟩ := bind_ok_iff.mp h
          refine (ih houter).trans ?_
          split at h
          · next hcreate =>
            rw [pure_ok_iff] at h
            exact h ▸ extended_of_createDirectory hcreate
          · split at h
            · rw [pure_ok_iff] at h
              exact h ▸ .refl f₁
            · cases h
        · split at h
          · cases h
            exact .refl f
          · cases h

/-- Making directories leaves what is there. -/
theorem extended_of_createDirectories (h : f.createDirectories path = .ok f') : Extended f f' :=
  extended_of_createAlong h

/-! ### Files that hold a text -/

/-- The path leads to the place, and the file there has the text. -/
def Holds (f : Files) (path text : String) (place : Place) : Prop :=
  ∃ executable, f.find path = .ok (place, .file (some text) executable)

/-- The way along a path is left, and what stands anywhere but at the place. -/
structure ChangedAt (place : Place) (f f' : Files) : Prop where
  kept : Kept f f'
  elsewhere : ∀ other, other ≠ place → f'.entry? other = f.entry? other

theorem ChangedAt.trans (h : ChangedAt place f f') (h' : ChangedAt place f' f'') :
    ChangedAt place f f'' where
  kept := h.kept.trans h'.kept
  elsewhere := fun other hother => (h'.elsewhere other hother).trans (h.elsewhere other hother)

/-- Putting a file where no directory stands. -/
theorem changedAt_put_file (h : f.entry? place ≠ some .directory) (text : Option String)
    (executable : Bool) : ChangedAt place f (f.put place (.file text executable)) where
  kept := .put fun hdirectory => absurd hdirectory h
  elsewhere := fun _ hother => entry?_put_of_ne f hother _

theorem ne_root_of_not_directory (h : f.entry? place ≠ some .directory) : place ≠ [] := by
  rintro rfl
  exact h (entry?_root f)

namespace Holds

theorem readText (h : f.Holds path text place) : f.readText path = .ok text := by
  obtain ⟨executable, hfind⟩ := h
  rw [Files.readText, bind_ok_iff]
  exact ⟨_, hfind, rfl⟩

/-- A file keeps its text while nothing is put in its place. -/
theorem of_kept (h : f.Holds path text place) (hkept : Kept f f')
    (hentry : ∀ entry, f.entry? place = some entry → f'.entry? place = some entry) :
    f'.Holds path text place := by
  obtain ⟨executable, hfind⟩ := h
  obtain ⟨-, -, hplace, hslash⟩ := find_ok_iff.mp hfind
  exact ⟨executable, hkept.find hfind (hentry _ hplace) hslash⟩

end Holds

/-- What writing a file leaves: the text at a place with the last name of the path, and all else as
it was. -/
theorem exists_of_write (h : f.write path text = .ok f') :
    ∃ place, f'.Holds path text place ∧ ChangedAt place f f'
      ∧ place.getLast? = (Path.names path).getLast? := by
  unfold write at h
  obtain ⟨slot, hslot, h⟩ := bind_ok_iff.mp h
  cases slot with
  | none =>
      cases h
  | some place =>
      have hlast : place.getLast? = (Path.names path).getLast? := by
        obtain ⟨-, parent, name, -, -, hlast, -, -, -, rfl⟩ := slot?_ok_iff.mp hslot
        rw [hlast, List.getLast?_concat]
      have hput : Path.endsInSlash path = false ∧ f.entry? place ≠ some .directory
          ∧ ∃ executable, f' = f.put place (.file (some text) executable) := by
        dsimp only at h
        split at h
        · cases h
        · next hslash =>
          refine ⟨by simpa using hslash, ?_⟩
          split at h
          · cases h
          · next old executable hold =>
            exact ⟨by simp [hold], executable, pure_ok_iff.mp h⟩
          · next hfree =>
            exact ⟨by simp [hfree], false, pure_ok_iff.mp h⟩
      obtain ⟨hslash, hfile, executable, rfl⟩ := hput
      have hchanged := changedAt_put_file hfile (some text) executable
      have hentry :=
        entry?_put_self f (ne_root_of_not_directory hfile) (.file (some text) executable)
      refine ⟨place, ⟨executable, hchanged.kept.find_slot hslot hentry ?_⟩, hchanged, hlast⟩
      simp [hslash]

/-- Allowing to run a file leaves its text, and all else as it was. -/
theorem Holds.makeExecutable (h : f.Holds path text place) (hrun : f.makeExecutable path = .ok f') :
    f'.Holds path text place ∧ ChangedAt place f f' := by
  obtain ⟨executable, hfind⟩ := h
  obtain ⟨-, -, hplace, hslash⟩ := find_ok_iff.mp hfind
  have hfile : f.entry? place ≠ some .directory := by simp [hplace]
  have hput : f' = f.put place (.file (some text) true) := by
    unfold Files.makeExecutable at hrun
    obtain ⟨found, hfound, hrun⟩ := bind_ok_iff.mp hrun
    cases hfind.symm.trans hfound
    exact pure_ok_iff.mp hrun
  have hchanged := changedAt_put_file hfile (some text) true
  have hentry := entry?_put_self f (ne_root_of_not_directory hfile) (.file (some text) true)
  subst hput
  have hfound := hchanged.kept.find hfind hentry fun hends => absurd (hslash hends) (by simp)
  exact ⟨⟨true, hfound⟩, hchanged⟩

end EnvLayers.Files
