import EnvLayers.Proofs.Shell.Token
import EnvLayers.Text.Lines
import Mathlib.Data.List.Forall2

/-
Module: EnvLayers.Proofs.Shell.Lines
Purpose: A text that ends outside quotes and comments is cut into the same tokens wherever it
  stands, so the tokens of a script are those of its lines.
Main exports: Shell.step_after, Shell.read_after, Shell.Reads, Shell.Reads.append,
  Shell.Reads.render, Shell.Reads.comment, Shell.Reads.names, Shell.Reads.quoted
-/

namespace EnvLayers.Shell

/-! ### The tokens before a text -/

/-- A reader with more tokens before its own. -/
def Reader.after (ts : List Token) (r : Reader) : Reader := { r with tokens := ts ++ r.tokens }

theorem stepBare_after (ts : List Token) (r : Reader) (c : Char) :
    stepBare (r.after ts) c = (stepBare r c).map (Reader.after ts) := by
  have hdelimit : (r.after ts).delimit = r.delimit.after ts := by
    unfold Reader.delimit Reader.after
    split <;> simp
  unfold stepBare
  simp only [apply_ite (Option.map (Reader.after ts)), Option.map_some, Option.map_none, hdelimit]
  simp [Reader.after, Reader.push]

theorem stepDouble_after (ts : List Token) (r : Reader) (c : Char) :
    stepDouble (r.after ts) c = (stepDouble r c).map (Reader.after ts) := by
  unfold stepDouble
  simp only [apply_ite (Option.map (Reader.after ts)), Option.map_some, Option.map_none]
  rfl

/-- A step adds to the tokens and never looks at them. -/
theorem step_after (ts : List Token) (r : Reader) (c : Char) :
    step (r.after ts) c = (step r c).map (Reader.after ts) := by
  have hpush : ∀ (r : Reader) (p : Piece) (quoted : Bool),
      (r.push p quoted).after ts = (r.after ts).push p quoted := fun _ _ _ => rfl
  obtain ⟨place, w, before⟩ := r
  cases place with
  | between =>
      exact stepBare_after ts _ c
  | word =>
      exact stepBare_after ts _ c
  | double =>
      exact stepDouble_after ts _ c
  | comment =>
      simp only [step, apply_ite (Option.map (Reader.after ts)), Option.map_some, ← stepBare_after]
      rfl
  | single =>
      simp only [step, apply_ite (Option.map (Reader.after ts)), Option.map_some]
      rfl
  | operator text =>
      simp only [step, apply_ite (Option.map (Reader.after ts)), Option.map_some, Option.map_none,
        ← stepBare_after]
      simp [Reader.after]
  | escaped back =>
      simp only [step, stepEscaped, apply_ite (Option.map (Reader.after ts)), Option.map_some,
        hpush]
      rfl
  | dollar quoted =>
      simp only [step, stepDollar, apply_ite (Option.map (Reader.after ts)), Option.map_some]
      rfl
  | name text quoted =>
      simp only [step, apply_ite (Option.map (Reader.after ts)), Option.map_some, ← stepBare_after,
        ← stepDouble_after, hpush]
      rfl
  | braces text quoted =>
      simp only [step, apply_ite (Option.map (Reader.after ts)), Option.map_some, hpush]
      rfl
  | command text quoted =>
      simp only [step, apply_ite (Option.map (Reader.after ts)), Option.map_some, hpush]
      rfl

theorem read_after (ts : List Token) (r : Reader) (cs : List Char) :
    read (r.after ts) cs = (read r cs).map (Reader.after ts) := by
  induction cs generalizing r with
  | nil =>
      rfl
  | cons c cs ih =>
      rw [read_cons, read_cons, step_after, Option.bind_map, Option.map_bind]
      congr 1
      funext r'
      exact ih r'

/-! ### Texts that end outside quotes -/

/-- The text is read to its end, outside quotes and comments, as the tokens. -/
def Reads (text : String) (tokens : List Token) : Prop :=
  read ⟨.between, [], []⟩ text.toList = some ⟨.between, [], tokens⟩

namespace Reads

variable {text : String} {tokens : List Token}

theorem tokens?_eq (h : Reads text tokens) : tokens? text = some tokens := by
  rw [tokens?, h]
  rfl

theorem read_eq (h : Reads text tokens) (ts : List Token) :
    read ⟨.between, [], ts⟩ text.toList = some ⟨.between, [], ts ++ tokens⟩ := by
  have hafter := read_after ts ⟨.between, [], []⟩ text.toList
  rw [h] at hafter
  simpa [Reader.after] using hafter

theorem empty : Reads "" [] := rfl

/-- The tokens of two texts, one after the other, are those of the first and those of the second. -/
theorem append {more : String} {tokens' : List Token} (h : Reads text tokens)
    (h' : Reads more tokens') : Reads (text ++ more) (tokens ++ tokens') := by
  rw [Reads, String.toList_append, read_append, h, Option.bind_some]
  exact h'.read_eq tokens

/-- The tokens of lines are those of each line, in order. -/
theorem render {lines : List String} {tokens : List (List Token)}
    (h : List.Forall₂ (fun line ts => Reads (line ++ "\n") ts) lines tokens) :
    Reads (Text.Lines.render "\n" lines) tokens.flatten := by
  induction h with
  | nil =>
      exact empty
  | cons hline _ ih =>
      simpa [Text.Lines.render] using hline.append ih

/-- A comment goes to the end of its line and no further. -/
theorem comment (h : '\n' ∉ text.toList) : Reads ("#" ++ text ++ "\n") [.newline] := by
  have hstay : read ⟨.comment, [], []⟩ text.toList = some ⟨.comment, [], []⟩ := by
    generalize text.toList = cs at h
    induction cs with
    | nil =>
        rfl
    | cons c cs ih =>
        have hne : c ≠ '\n' := fun heq => h (heq ▸ List.mem_cons_self)
        have hstep : step ⟨.comment, [], []⟩ c = some ⟨.comment, [], []⟩ := if_neg hne
        rw [read_cons, hstep, Option.bind_some, ih fun hmem => h (List.mem_cons_of_mem _ hmem)]
  have hstart : read ⟨.between, [], []⟩ "#".toList = some ⟨.comment, [], []⟩ := rfl
  rw [Reads, String.toList_append, String.toList_append, read_append, read_append, hstart,
    Option.bind_some, hstay, Option.bind_some]
  rfl

theorem name_blank {name : String} (h : Graph.isVariableName name) :
    Reads (name ++ " ") [.word (bare name)] := by
  rw [Reads, String.toList_append, read_append, read_name h]
  rfl

theorem name_newline {name : String} (h : Graph.isVariableName name) :
    Reads (name ++ "\n") [.word (bare name), .newline] := by
  rw [Reads, String.toList_append, read_append, read_name h]
  rfl

/-- Names with blanks between them are one word each. -/
theorem names {names : List String} (hne : names ≠ [])
    (h : ∀ name ∈ names, Graph.isVariableName name) :
    Reads (" ".intercalate names ++ "\n") (names.map (.word <| bare ·) ++ [.newline]) := by
  induction names with
  | nil =>
      exact absurd rfl hne
  | cons name rest ih =>
      by_cases hrest : rest = []
      · subst hrest
        simpa using name_newline (h name List.mem_cons_self)
      · rw [String.intercalate_cons_of_ne_nil hrest]
        simpa [String.append_assoc] using (name_blank (h name List.mem_cons_self)).append
          (ih hrest fun other hother => h other (List.mem_cons_of_mem _ hother))

/-- A line that ends with a quoted text. -/
theorem quoted {before : String} {w pieces : Word} {tokens : List Token}
    (hbefore : read ⟨.between, [], []⟩ before.toList = some ⟨.double, w, tokens⟩)
    (h : Quotes text.toList pieces) :
    Reads (before ++ text ++ "\"" ++ "\n") (tokens ++ [.word (w ++ pieces), .newline]) := by
  have hclose : ∀ w ts, read ⟨.double, w, ts⟩ ("\"".toList ++ "\n".toList)
      = some ⟨.between, [], ts ++ [.word w] ++ [.newline]⟩ := fun _ _ => rfl
  simp only [Reads, String.toList_append, List.append_assoc, read_append, hbefore,
    Option.bind_some, h _ _]
  rw [← read_append, hclose]
  simp

end Reads

end EnvLayers.Shell
