import EnvLayers.Proofs.Files.Write
import EnvLayers.Proofs.Text.Cut
import EnvLayers.Script.Save

/-
Module: EnvLayers.Proofs.Script.Save
Purpose: What writing the script of an environment leaves in the files. The scripts of two scopes
  have different names, so that neither takes the place of the other.
Main exports: Path.exists_names_join, Environment.Saved, Environment.Placed,
  Environment.exists_of_writeScript, Environment.placed_of_save, Environment.Placed.saved,
  Environment.Placed.save
-/

namespace EnvLayers

namespace Path

theorem isAbsolute_append (start : String) {last : String} (h : '/' ∉ last.toList) :
    isAbsolute (start ++ last) = isAbsolute start := by
  unfold isAbsolute
  rw [String.toList_append]
  cases hstart : start.toList with
  | nil =>
      have hhead : last.toList.head? ≠ some '/' := fun hhead => h (List.mem_of_mem_head? hhead)
      simpa using hhead
  | cons c cs =>
      rfl

/-- The last part of a path that something without a slash is added to. -/
theorem exists_names_append (front : String) : ∃ part : String, ∀ last : String, last ≠ "" →
    '/' ∉ last.toList → (names (front ++ last)).getLast? = some (part ++ last) := by
  have hkept : ∀ parts (part : List Char), part ≠ [] →
      (((parts ++ [part]).filter (· ≠ [])).map String.ofList).getLast?
        = some (String.ofList part) := by
    intro parts part hpart
    rw [List.filter_append, List.filter_cons_of_pos (by simpa using hpart), List.filter_nil,
      List.map_append, List.map_singleton, List.getLast?_concat]
  cases hcut : Text.cutLast '/' front.toList with
  | none =>
      refine ⟨front, fun last hlast hslash => ?_⟩
      have hfront := Text.cutLast_eq_none_iff.mp hcut
      have hpieces : Text.pieces '/' (front ++ last).toList = [] ++ [(front ++ last).toList] :=
        Text.pieces_of_not_mem (by simp [hfront, hslash])
      rw [names, hpieces, hkept [] _ (by simp [hlast]), String.ofList_toList]
  | some cut =>
      obtain ⟨before, after⟩ := cut
      refine ⟨String.ofList after, fun last hlast hslash => ?_⟩
      obtain ⟨hfront, hafter⟩ := Text.cutLast_eq_some hcut
      have hrest : '/' ∉ after ++ last.toList := by simp [hafter, hslash]
      have hpieces : Text.pieces '/' (front ++ last).toList
          = Text.pieces '/' before ++ [after ++ last.toList] := by
        rw [String.toList_append, hfront, List.append_assoc, List.cons_append, Text.pieces_append,
          Text.pieces_of_not_mem hrest]
      rw [names, hpieces, hkept _ _ (by simp [hlast]), String.ofList_append, String.ofList_toList]

/-- The last name of a path that is seen from a directory. -/
theorem exists_names_join (dir start : String) : ∃ part : String, ∀ last : String, last ≠ "" →
    '/' ∉ last.toList → (names (join dir (start ++ last))).getLast? = some (part ++ last) := by
  have hfront : ∃ front : String, ∀ last : String, '/' ∉ last.toList →
      join dir (start ++ last) = front ++ last := by
    unfold join
    by_cases habsolute : isAbsolute start
    · exact ⟨start, fun last h => if_pos ((isAbsolute_append start h).trans habsolute)⟩
    · by_cases hdir : dir = "" || endsInSlash dir
      · refine ⟨dir ++ start, fun last h => ?_⟩
        rw [isAbsolute_append start h, if_neg habsolute, if_pos hdir, String.append_assoc]
      · refine ⟨dir ++ "/" ++ start, fun last h => ?_⟩
        rw [isAbsolute_append start h, if_neg habsolute, if_neg hdir, ← String.append_assoc]
  obtain ⟨front, hfront⟩ := hfront
  obtain ⟨part, hpart⟩ := exists_names_append front
  exact ⟨part, fun last hlast hslash => by rw [hfront last hslash, hpart last hlast hslash]⟩

end Path

namespace Environment

variable {env other : Environment} {f f' : Files} {dir start path : String}

/-- The script of the environment is a file with its text. -/
def Saved (env : Environment) (f : Files) (dir start : String) : Prop :=
  f.readText (env.scriptPath dir start) = .ok (env.scriptText dir start)

/-- The part of the name of a script that tells the scope and the dialect. -/
def scriptEnding (env : Environment) : String :=
  env.scope.name ++ "env." ++ (Dialect.ofOs env.os).extension

theorem exists_names_scriptPath (dir start : String) : ∃ part : String, ∀ env : Environment,
    (Path.names (env.scriptPath dir start)).getLast? = some (part ++ env.scriptEnding) := by
  obtain ⟨part, hpart⟩ := Path.exists_names_join dir start
  refine ⟨part, fun env => ?_⟩
  have hending : env.scriptEnding ≠ "" ∧ '/' ∉ env.scriptEnding.toList := by
    unfold scriptEnding
    cases env.scope <;> cases Dialect.ofOs env.os <;> decide
  rw [← hpart _ hending.1 hending.2, scriptPath, Dialect.fileName, scriptEnding,
    String.append_assoc, String.append_assoc, String.append_assoc]

theorem scriptEnding_ne (h : env.scope ≠ other.scope) : env.scriptEnding ≠ other.scriptEnding := by
  unfold scriptEnding
  cases henv : env.scope <;> cases hother : other.scope <;> rw [henv, hother] at h <;>
    cases Dialect.ofOs env.os <;> cases Dialect.ofOs other.os <;> first | contradiction | decide

/-- What writing a script leaves: the script, at a place with its last name, and what stood
anywhere else. -/
theorem exists_of_writeScript (h : env.writeScript f dir start = .ok f') :
    ∃ place, f'.Holds (env.scriptPath dir start) (env.scriptText dir start) place
      ∧ place.getLast? = (Path.names (env.scriptPath dir start)).getLast?
      ∧ Files.Kept f f' ∧ ∀ other entry, other ≠ place → f.entry? other = some entry →
        f'.entry? other = some entry := by
  unfold writeScript at h
  obtain ⟨f₁, hcreate, h⟩ := bind_ok_iff.mp h
  obtain ⟨f₂, hwrite, h⟩ := bind_ok_iff.mp h
  have hextended := Files.extended_of_createDirectories hcreate
  obtain ⟨place, hholds, hchanged, hlast⟩ := Files.exists_of_write hwrite
  have hrun : f'.Holds (env.scriptPath dir start) (env.scriptText dir start) place
      ∧ Files.ChangedAt place f₁ f' := by
    cases hdialect : Dialect.ofOs env.os with
    | sh =>
        rw [hdialect] at h
        obtain ⟨hholds', hchanged'⟩ := hholds.makeExecutable h
        exact ⟨hholds', hchanged.trans hchanged'⟩
    | bat =>
        rw [hdialect] at h
        rw [pure_ok_iff] at h
        exact h ▸ ⟨hholds, hchanged⟩
  refine ⟨place, hrun.1, hlast, hextended.kept.trans hrun.2.kept, ?_⟩
  intro other entry hother hentry
  rw [hrun.2.elsewhere other hother, hextended.entry other entry hentry]

theorem save_ok_iff : env.save f dir start = .ok (f', path)
    ↔ env.writeScript f dir start = .ok f' ∧ path = env.scriptPath dir start := by
  unfold save
  cases env.writeScript f dir start <;> simp [eq_comm]

theorem exists_of_save_error {cause : Failure} (h : env.save f dir start = .error cause) :
    ∃ fault, cause = .io fault := by
  unfold save at h
  split at h
  · cases h
  · next fault _ => exact ⟨fault, (Except.error.inj h).symm⟩

/-- The script of the environment stands at a place with its last name. -/
def Placed (env : Environment) (f : Files) (dir start : String) : Prop :=
  ∃ place, f.Holds (env.scriptPath dir start) (env.scriptText dir start) place
    ∧ place.getLast? = (Path.names (env.scriptPath dir start)).getLast?

theorem placed_of_save (h : env.save f dir start = .ok (f', path)) : env.Placed f' dir start := by
  obtain ⟨place, hholds, hlast, -⟩ := exists_of_writeScript (save_ok_iff.mp h).1
  exact ⟨place, hholds, hlast⟩

namespace Placed

theorem saved (h : env.Placed f dir start) : env.Saved f dir start := by
  obtain ⟨place, hholds, -⟩ := h
  exact hholds.readText

/-- The script of one scope stays when the one of another scope is written. -/
theorem save (h : env.Placed f dir start) (hscope : env.scope ≠ other.scope)
    (hsave : other.save f dir start = .ok (f', path)) : env.Placed f' dir start := by
  obtain ⟨place, hholds, hlast⟩ := h
  obtain ⟨place', -, hlast', hkept, helsewhere⟩ := exists_of_writeScript (save_ok_iff.mp hsave).1
  have hplace : place ≠ place' := by
    rintro rfl
    obtain ⟨part, hpart⟩ := exists_names_scriptPath dir start
    have hsame := (hpart env).symm.trans (hlast.symm.trans (hlast'.trans (hpart other)))
    exact scriptEnding_ne hscope ((String.append_right_inj part).mp (Option.some.inj hsame))
  exact ⟨place, hholds.of_kept hkept fun entry => helsewhere place entry hplace, hlast⟩

end Placed

end Environment

end EnvLayers
