import EnvLayers.Proofs.Text.Cut
import EnvLayers.Proofs.Variable.ClosedForm

/-
Module: EnvLayers.Proofs.Variable.Splitting
Purpose: The way back from the text of a variable to its values: where the values are joined by a
  single character that none of them holds, cutting the text at that character gives the values that
  are not empty, with the placeholder in the place of the outer value.
Main exports: SplitsInto, splitsInto_intercalate, Variable.parts, Variable.filterMap_shown_items,
  Environment.splits_flatten
-/

namespace EnvLayers

/-- Cutting a text at a character gives some parts, or the empty text where there are none. The
character stands at neither end of the text and nowhere twice in a row. -/
structure SplitsInto (c : Char) (text : String) (parts : List String) : Prop where
  pieces_eq : (Text.pieces c text.toList).map String.ofList = if parts = [] then [""] else parts
  head_ne : text.toList.head? ≠ some c
  last_ne : text.toList.getLast? ≠ some c
  not_doubled : ¬ [c, c] <:+: text.toList

/-- A text joined from parts that are not empty by a character that none of them holds. -/
theorem splitsInto_intercalate {c : Char} {parts : List String} (hne : ∀ part ∈ parts, part ≠ "")
    (hfree : ∀ part ∈ parts, c ∉ part.toList) :
    SplitsInto c ((String.singleton c).intercalate parts) parts := by
  have htext : ((String.singleton c).intercalate parts).toList
      = [c].intercalate (parts.map String.toList) := by
    rw [String.toList_intercalate, String.toList_singleton]
  by_cases hparts : parts = []
  · subst hparts
    constructor <;> simp [Text.pieces]
  · have hpieces : Text.pieces c ((String.singleton c).intercalate parts).toList
        = parts.map String.toList := by
      rw [htext]
      refine Text.pieces_intercalate (by simpa using hparts) ?_
      simpa using hfree
    have hnil : [] ∉ Text.pieces c ((String.singleton c).intercalate parts).toList := by
      rw [hpieces, List.mem_map]
      rintro ⟨part, hpart, hempty⟩
      exact hne part hpart (String.toList_eq_nil_iff.mp hempty)
    obtain ⟨hhead, hlast, hdoubled⟩ := Text.not_loose_of_pieces hnil
    refine ⟨?_, hhead, hlast, hdoubled⟩
    rw [hpieces, if_neg hparts, List.map_map]
    simp [Function.comp_def]

namespace Variable

/-- The values that a text shows before and after the outer value: those that are not empty. -/
def shownSides (v : Variable) : List String × List String :=
  (v.sides.1.filter (· ≠ ""), v.sides.2.filter (· ≠ ""))

/-- What the text of a variable is joined from: the values around the outer value, and in its place
the placeholder, where there is one and the outer value is kept. -/
def parts (v : Variable) (placeholder : Option String) : List String :=
  v.shownSides.1 ++ (if v.keepsOuter then placeholder.toList else []) ++ v.shownSides.2

theorem parts_none (v : Variable) : v.parts none = v.shownSides.1 ++ v.shownSides.2 := by
  simp [parts]

variable {v : Variable}

/-- The entries of a variable show exactly its parts. -/
theorem filterMap_shown_items (h : v.SingleOuter) (placeholder : Option String) :
    v.items.filterMap (shown placeholder) = v.parts placeholder := by
  have houter : (if v.keepsOuter then [Item.previous] else []).filterMap (shown placeholder)
      = if v.keepsOuter then placeholder.toList else [] := by
    cases v.keepsOuter with
    | true =>
        cases placeholder <;> rfl
    | false =>
        rfl
  conv_lhs => rw [h.items_sides]
  rw [List.filterMap_append, List.filterMap_append, filterMap_shown_map_value, houter,
    filterMap_shown_map_value]
  rfl

/-- Every part is a value of the variable that is not empty, or the placeholder. -/
theorem mem_parts (h : v.SingleOuter) {placeholder : Option String} {part : String}
    (hpart : part ∈ v.parts placeholder) :
    (part ≠ "" ∧ .value part ∈ v.items) ∨ placeholder = some part := by
  rw [← filterMap_shown_items h, List.mem_filterMap] at hpart
  obtain ⟨item, hitem, hshown⟩ := hpart
  cases item with
  | previous =>
      exact .inr hshown
  | value text =>
      by_cases hempty : text = ""
      · simp [shown, hempty] at hshown
      · obtain rfl : text = part := by
          simpa [shown, hempty] using hshown
        exact .inl ⟨hempty, hitem⟩

/-- The text of a variable that is joined by a single character splits into its parts. -/
theorem exists_flatten_splits (h : v.SingleOuter) {placeholder : Option String}
    {pathSeparator : String} {c : Char} (hset : v.isUnset = false)
    (hjoiner : v.joiner pathSeparator = String.singleton c)
    (hvalues : ∀ value, .value value ∈ v.items → c ∉ value.toList)
    (hplaceholder : ∀ outer, placeholder = some outer → outer ≠ "" ∧ c ∉ outer.toList) :
    ∃ text, v.flatten placeholder pathSeparator = some text
      ∧ SplitsInto c text (v.parts placeholder) := by
  refine ⟨(String.singleton c).intercalate (v.parts placeholder), ?_, ?_⟩
  · rw [flatten, hset, hjoiner, filterMap_shown_items h]
    rfl
  · refine splitsInto_intercalate (fun part hpart => ?_) fun part hpart => ?_
    · rcases mem_parts h hpart with ⟨hne, -⟩ | houter
      · exact hne
      · exact (hplaceholder part houter).1
    · rcases mem_parts h hpart with ⟨-, hitem⟩ | houter
      · exact hvalues part hitem
      · exact (hplaceholder part houter).2

end Variable

namespace Environment

open Variable

/-- Flattening loses and doubles nothing. Where the joiner of a variable that operations have made
is a single character, and neither its values nor the placeholder hold that character, the text of
the variable splits into the values before the outer value, the placeholder where the outer value is
kept, and the values after it, without the empty ones. In an environment, the text without the outer
value lacks the placeholder and nothing else. -/
theorem splits_flatten {v : Variable} {name : String} {ops : List Op}
    (hmade : v = (fresh name).applyAll ops) (hset : v.isUnset = false) {pathSeparator : String}
    {c : Char} (hjoiner : v.joiner pathSeparator = String.singleton c)
    (hvalues : ∀ value, .value value ∈ v.items → c ∉ value.toList) {placeholder : Option String}
    (hplaceholder : ∀ outer, placeholder = some outer → outer ≠ "" ∧ c ∉ outer.toList) :
    (∃ text, v.flatten placeholder pathSeparator = some text
        ∧ SplitsInto c text (v.parts placeholder))
      ∧ ∀ (env : Environment) (outer : String), placeholder = some outer →
        env.find? name = some v → env.pathSeparator = pathSeparator →
        ∃ bare full, env.get? name = some bare ∧ env.getOver? name outer = some full
          ∧ SplitsInto c bare (v.shownSides.1 ++ v.shownSides.2)
          ∧ SplitsInto c full
            (v.shownSides.1 ++ (if v.keepsOuter then [outer] else []) ++ v.shownSides.2) := by
  have hsingle : v.SingleOuter := hmade ▸ (singleOuter_fresh name).applyAll ops
  have hfull := exists_flatten_splits hsingle hset hjoiner hvalues hplaceholder
  refine ⟨hfull, ?_⟩
  rintro env outer rfl hfind hseparator
  have hnone : ∀ outer, (none : Option String) = some outer → outer ≠ "" ∧ c ∉ outer.toList := nofun
  obtain ⟨bare, hbare, hbareParts⟩ := exists_flatten_splits hsingle hset hjoiner hvalues hnone
  obtain ⟨full, hfull, hfullParts⟩ := hfull
  refine ⟨bare, full, ?_, ?_, parts_none v ▸ hbareParts, hfullParts⟩
  · rw [get?, hfind, Option.bind_some, hseparator, hbare]
  · rw [getOver?, hfind, Option.bind_some, hseparator, hfull]

/-- Operations that leave empty values on both sides of the outer one, and declare the search path
last of all. -/
def pathOps : List Op :=
  [.append "PATH" "", .prepend "PATH" "/opt/bin", .append "PATH" "/opt/lib bin",
   .prepend "PATH" "", (Op.prepend "PATH" "/bin").asPath]

/-- The environment that these operations make. -/
def pathEnvironment : Environment where
  consumer := "app"
  scope := .run
  os := some .linux
  vars := [(fresh "PATH").applyAll pathOps]
  names_nodup := by decide

theorem splits_flatten_path :
    ∃ bare full, pathEnvironment.get? "PATH" = some bare
      ∧ pathEnvironment.getOver? "PATH" "<prev>" = some full
      ∧ SplitsInto ':' bare ["/bin", "/opt/bin", "/opt/lib bin"]
      ∧ SplitsInto ':' full ["/bin", "/opt/bin", "<prev>", "/opt/lib bin"] := by
  have hvalues : ∀ value, .value value ∈ ((fresh "PATH").applyAll pathOps).items →
      ':' ∉ value.toList := by
    have hitems : ((fresh "PATH").applyAll pathOps).items
        = [.value "/bin", .value "", .value "/opt/bin", .previous, .value "",
          .value "/opt/lib bin"] := rfl
    simp [hitems]
  have hplaceholder : ∀ outer, some "<prev>" = some outer → outer ≠ "" ∧ ':' ∉ outer.toList := by
    rintro _ ⟨⟩
    decide
  exact (splits_flatten rfl rfl rfl hvalues hplaceholder).2 pathEnvironment "<prev>" rfl rfl rfl

end Environment

end EnvLayers
