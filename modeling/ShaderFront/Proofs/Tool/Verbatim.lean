import Mathlib.Data.List.DropRight
import ShaderFront.Proofs.Mixin.ValueText
import ShaderFront.Proofs.Tool.Overrides

/-!
# Texts as values of overrides

The override of a key has the name of the key, an equals sign and a text. A text value is read from
it without the blanks at its two ends; all between them is kept, further equals signs included. So
the key is bound to the text itself just if there is nothing to cut, from the text or from the name,
and the equals sign is the first one (`strings_trimmed`).
-/

namespace ShaderFront

namespace Text

/-! ## What is cut -/

/-- What is left has no blank at either end. -/
theorem trimmed_trim (s : String) : Trimmed (trim s) := by
  have hlist : (trim s).toList = (s.toList.dropWhile isBlank).rdropWhile isBlank :=
    String.toList_ofList
  constructor
  · intro c hc
    rw [hlist] at hc
    have hfront := List.head?_dropWhile_not isBlank s.toList
    obtain ⟨rest, hrest⟩ := List.rdropWhile_prefix isBlank (s.toList.dropWhile isBlank)
    rw [← hrest, List.head?_append, Option.mem_def.1 hc] at hfront
    exact hfront
  · intro c hc
    rw [hlist] at hc
    obtain ⟨hne, rfl⟩ := List.mem_getLast?_eq_getLast hc
    simpa using List.rdropWhile_last_not isBlank (s.toList.dropWhile isBlank) hne

/-- A text is what is left of it, between blanks. -/
theorem exists_trim (s : String) :
    ∃ before after, s = before ++ trim s ++ after ∧ AllBlank before ∧ AllBlank after := by
  obtain ⟨after, hafter, hblank⟩ := exists_dropTrailing isBlank (s.toList.dropWhile isBlank)
  refine ⟨.ofList (s.toList.takeWhile isBlank), .ofList after, ?_, ?_, ?_⟩
  · rw [← String.toList_inj]
    simp only [String.toList_append, String.toList_ofList, trim, trimBlanks, List.append_assoc]
    rw [← hafter, List.takeWhile_append_dropWhile]
  · intro c hc
    rw [String.toList_ofList] at hc
    exact List.mem_takeWhile_imp hc
  · intro c hc
    rw [String.toList_ofList] at hc
    exact hblank c hc

theorem trim_of_trimmed {s : String} (h : Trimmed s) : trim s = s := by
  have hnone : AllBlank "" := by simp [AllBlank]
  simpa using trim_append hnone h hnone

theorem trim_eq_self_iff {s : String} : trim s = s ↔ Trimmed s :=
  ⟨fun h => h ▸ trimmed_trim s, trim_of_trimmed⟩

end Text

namespace Overrides

/-- The override that gives a key a value, as it is typed. -/
def typed (key : ParamKey) (value : String) : String := key.name ++ "=" ++ value

/-- An override can have the name before its equals sign, and it is read as it stands. -/
structure Nameable (name : String) : Prop where
  sign : '=' ∉ name.toList
  trimmed : Text.Trimmed name

variable {keys : KeyTable} {key : ParamKey} {text : String}

/-- A name without an equals sign is split off whole, and nothing else is. -/
theorem splits_typed_iff {name value : String} (sign : '=' ∉ key.name.toList) :
    Splits (typed key text) name value ↔ name = key.name ∧ value = text := by
  have hown : Splits (typed key text) key.name text := by
    refine ⟨?_, sign⟩
    simp [typed]
  constructor
  · intro h
    have hsplit := (split?_eq_some.2 h).symm.trans (split?_eq_some.2 hown)
    simpa using hsplit
  · rintro ⟨rfl, rfl⟩
    exact hown

/-- A name that can stand in an override finds its key, and a text value loses its blanks. -/
theorem binding_typed (declared : keys.find? key.name = some key) (kind : key.kind = .string)
    (nameable : Nameable key.name) :
    binding keys (typed key text) = .ok (key, .string (Text.trim text)) := by
  refine reads_iff.1 (.bound ((splits_typed_iff nameable.sign).2 ⟨rfl, rfl⟩) ?_ ?_)
  · rwa [Text.trim_of_trimmed nameable.trimmed]
  · rw [kind]
    rfl

/-- What binds a key has the name of the key before its first equals sign, between blanks. -/
theorem nameable_of_binding {value : ParamValue}
    (h : binding keys (typed key text) = .ok (key, value)) : Nameable key.name := by
  cases reads_iff.2 h with
  | @bound name _ _ _ split found _ =>
    have hname : key.name = Text.trim name := KeyTable.find?_name found
    have sign : '=' ∉ key.name.toList := by
      intro hmem
      obtain ⟨before, after, heq, -, -⟩ := Text.exists_trim name
      refine split.2 ?_
      rw [heq, ← hname]
      simp [hmem]
    exact ⟨sign, hname ▸ Text.trimmed_trim name⟩

theorem parse_singleton (keys : KeyTable) (text : String) :
    parse keys [text] = (binding keys text).map fun b => .ofList [b] := by
  simp only [parse, addAll]
  cases binding keys text <;> rfl

/-- **A text value is cut at its ends.** For a declared key of texts and the override that gives it
a text:

* if the name can stand in an override, the key is bound to the text without the blanks around it,
  and to nothing else; what is cut is blank, and what is left has no blank at an end;
* the key is bound to the text itself just if the name can stand in an override and the text has no
  blank at an end. -/
theorem strings_trimmed (keys : KeyTable) (key : ParamKey) (text : String)
    (declared : keys.find? key.name = some key) (kind : key.kind = .string) :
    (Nameable key.name →
      parse keys [typed key text] = .ok (.ofList [(key, .string (Text.trim text))]) ∧
      Text.Trimmed (Text.trim text) ∧
      ∃ before after, text = before ++ Text.trim text ++ after ∧
        Text.AllBlank before ∧ Text.AllBlank after) ∧
    ((∃ p, parse keys [typed key text] = .ok p ∧ p.get? key = some (.string text)) ↔
      Nameable key.name ∧ Text.Trimmed text) := by
  have hparse (nameable : Nameable key.name) :
      parse keys [typed key text] = .ok (.ofList [(key, .string (Text.trim text))]) := by
    rw [parse_singleton, binding_typed declared kind nameable]
    rfl
  have hget : (Parameters.ofList [(key, .string (Text.trim text))]).get? key =
      some (.string (Text.trim text)) := Parameters.get?_set_self ..
  refine ⟨fun nameable => ⟨hparse nameable, Text.trimmed_trim text, Text.exists_trim text⟩, ?_, ?_⟩
  · rintro ⟨p, hp, hbound⟩
    have nameable : Nameable key.name := by
      obtain ⟨read, hlast, hread⟩ := (get?_parse hp).1 hbound
      have hmem := (List.mem_filter.1 (List.mem_of_getLast? hlast)).1
      rw [List.mem_singleton.1 hmem] at hread
      exact nameable_of_binding hread
    refine ⟨nameable, Text.trim_eq_self_iff.1 ?_⟩
    cases (hparse nameable).symm.trans hp
    simpa using hget.symm.trans hbound
  · rintro ⟨nameable, trimmed⟩
    refine ⟨_, hparse nameable, ?_⟩
    rw [hget, Text.trim_of_trimmed trimmed]

/-- A key for texts. -/
def title : ParamKey := ⟨"Title", .string⟩

/-- A text with an equals sign in it and a blank before it. -/
theorem strings_trimmed_title :
    let keys : KeyTable := ⟨[title]⟩
    keys.find? "Title" = some title ∧ title.kind = .string ∧
      parse keys [typed title "a = b"] = .ok (.ofList [(title, .string "a = b")]) ∧
      ¬∃ p, parse keys [typed title " a = b"] = .ok p ∧ p.get? title = some (.string " a = b") := by
  intro keys
  have declared : keys.find? "Title" = some title := rfl
  have nameable : Nameable "Title" :=
    ⟨by decide, Text.trimmed_of_visible (by simp [Text.isBlank])⟩
  obtain ⟨bound, -⟩ := strings_trimmed keys title "a = b" declared rfl
  obtain ⟨-, verbatim⟩ := strings_trimmed keys title " a = b" declared rfl
  refine ⟨declared, rfl, (bound nameable).1, fun h => ?_⟩
  exact absurd ((verbatim.1 h).2.first ' ' rfl) (by decide)

/-- A text value with a blank at each end is bound without them. -/
theorem blanks_cut :
    parse ⟨[title]⟩ ["Title= Sky "] = .ok (.ofList [(title, .string "Sky")]) ∧
      ¬∃ p, parse ⟨[title]⟩ ["Title= Sky "] = .ok p ∧ p.get? title = some (.string " Sky ") := by
  have hparse : parse ⟨[title]⟩ ["Title= Sky "] = .ok (.ofList [(title, .string "Sky")]) := rfl
  refine ⟨hparse, ?_⟩
  rintro ⟨p, hp, hbound⟩
  cases hparse.symm.trans hp
  exact absurd hbound (by decide)

end Overrides
end ShaderFront
