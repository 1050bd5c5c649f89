import EnvLayers.Yaml.Cursor
import Mathlib.Data.List.TakeWhile

/-
Module: EnvLayers.Proofs.Yaml.Cursor
Purpose: Moving along a text: what is left behind characters, line breaks and gaps.
Main exports: Cursor.skip_skip, Cursor.rest_skip, Cursor.breakLine?_feed, Cursor.breakLine?_eq_none,
  Cursor.readGap_spaces, Cursor.readGap_indent
-/

namespace EnvLayers.Yaml

theorem byteLength_append (front rest : List Char) :
    byteLength (front ++ rest) = byteLength front + byteLength rest := by
  induction front with
  | nil =>
      simp [byteLength]
  | cons c front ih =>
      simp [byteLength, ih, Nat.add_assoc]

namespace Cursor

variable {c : Cursor} {front rest : List Char}

@[simp] theorem skip_zero (c : Cursor) : c.skip 0 = c := by
  simp [skip, byteLength]

theorem skip_skip (c : Cursor) (m n : Nat) : (c.skip m).skip n = c.skip (m + n) := by
  simp [skip, List.take_add, byteLength_append, Nat.add_assoc]

theorem rest_skip (h : c.rest = front ++ rest) : (c.skip front.length).rest = rest := by
  simp [skip, h]

theorem breakLine?_eq_none {d : Char} (h : c.rest = d :: rest) (hd : isBreak d = false) :
    c.breakLine? = none := by
  have hplain : (d == '\n' || d == '\r' || d.toNat == 0x85) = false := by
    simp only [isBreak, Bool.or_eq_false_iff] at hd ⊢
    exact hd.1.1
  unfold breakLine?
  rw [h]
  split
  · next heq =>
    cases heq
    cases hd
  · next heq =>
    cases heq
    rw [hplain, hd]
    rfl
  · rfl

theorem length_rest_skip_le (c : Cursor) (n : Nat) : (c.skip n).rest.length ≤ c.rest.length := by
  simp [skip]

theorem breakLine?_feed (h : c.rest = '\n' :: rest) : c.breakLine? = some ('\n', c.nextLine 1) := by
  unfold breakLine?
  rw [h]
  rfl

theorem breakLine?_end (h : c.rest = []) : c.breakLine? = none := by
  unfold breakLine?
  rw [h]

/-- Where neither a blank nor a line break stands, a gap has ended. -/
theorem readGap_eq_self {limit : Nat} (g : Gap) (h : c.rest.head?.all fun d => !isGap (some d)) :
    c.readGap limit g = some (g, c) := by
  have hend : c.breakLine? = none := by
    cases hrest : c.rest with
    | nil => exact breakLine?_end hrest
    | cons d rest => exact breakLine?_eq_none hrest (by simp_all [isGap])
  rw [readGap]
  split
  · next hbreak =>
    cases hend.symm.trans hbreak
  · split
    · rfl
    · next d _ heq =>
      have hd : isSpace d = false := by simp_all [isGap]
      simp [hd]

theorem readGap_feed {limit : Nat} (g : Gap) (h : c.rest = '\n' :: rest) :
    c.readGap limit g = (c.nextLine 1).readGap limit (g.addBreak '\n') := by
  rw [readGap]
  split
  · next hbreak =>
    cases (breakLine?_feed h).symm.trans hbreak
    rfl
  · next hbreak =>
    cases (breakLine?_feed h).symm.trans hbreak

theorem readGap_space {limit : Nat} (g : Gap) (h : c.rest = ' ' :: rest) :
    c.readGap limit g = (c.skip 1).readGap limit (g.addSpace ' ') := by
  rw [readGap]
  split
  · next hbreak =>
    rw [breakLine?_eq_none h rfl] at hbreak
    cases hbreak
  · split
    · next heq =>
      cases h.symm.trans heq
    · next heq =>
      cases h.symm.trans heq
      simp [isSpace]

/-- Spaces within a line are a gap that is kept as it is. -/
theorem readGap_spaces {limit n : Nat} {d : Char} {g : Gap} (hg : g.broken = false)
    (h : c.rest = List.replicate n ' ' ++ d :: rest) (hd : isGap (some d) = false) :
    c.readGap limit g = some ({ g with spaces := g.spaces ++ List.replicate n ' ' }, c.skip n) := by
  induction n generalizing c g with
  | zero =>
      simpa using readGap_eq_self g (by simp [h, hd])
  | succ n ih =>
      have hspace : g.addSpace ' ' = { g with spaces := g.spaces ++ [' '] } := by
        simp [Gap.addSpace, hg]
      have hrest : (c.skip 1).rest = List.replicate n ' ' ++ d :: rest := by
        simp [skip, h, List.replicate_succ]
      have hbroken : (g.addSpace ' ').broken = false := by
        rw [hspace]
        exact hg
      rw [readGap_space g h, ih hbroken hrest, hspace, skip_skip, Nat.add_comm 1 n,
        List.append_assoc]
      rfl

/-- The blanks at the start of a line leave a gap that goes over lines as it is. -/
theorem readGap_indent {limit n : Nat} {g : Gap} (hg : g.broken = true)
    (h : c.rest = List.replicate n ' ' ++ rest)
    (hrest : rest.head?.all fun d => !isGap (some d)) :
    c.readGap limit g = some (g, c.skip n) := by
  induction n generalizing c with
  | zero =>
      simpa using readGap_eq_self g (by simpa [h] using hrest)
  | succ n ih =>
      have hspace : g.addSpace ' ' = g := by simp [Gap.addSpace, hg]
      have hnext : (c.skip 1).rest = List.replicate n ' ' ++ rest := by
        simp [skip, h, List.replicate_succ]
      rw [readGap_space g h, hspace, ih hnext, skip_skip, Nat.add_comm 1 n]

end Cursor

end EnvLayers.Yaml
