import ShaderFront.Proofs.Json.Reading
import ShaderFront.Tool.Check

/-!
# Reports say what the diagnostics say

A report for other programs is read as JSON, and what it says is the list of the diagnostics within
the limit, each with all its parts. The texts in it may be any texts, and a report without
diagnostics is read as an empty list.
-/

namespace ShaderFront

namespace Json

/-- What a JSON text says. Its numbers are whole. -/
inductive Value where
  | null
  | bool (value : Bool)
  | number (value : Int)
  | string (value : String)
  | array (items : List Value)
  | object (members : List (String × Value))

mutual

/-- What a tree says, if all its lexemes denote something. -/
def value? : Json → Option Value
  | .null => some .null
  | .bool b => some (.bool b)
  | .number lexeme => (Cache.whole? lexeme).map .number
  | .string lexeme => (unescape? lexeme).map .string
  | .array items => (values? items).map .array
  | .object members => (memberValues? members).map .object

def values? : List Json → Option (List Value)
  | [] => some []
  | j :: rest => do return (← j.value?) :: (← values? rest)

def memberValues? : List (List Char × Json) → Option (List (String × Value))
  | [] => some []
  | (key, j) :: rest => do return (← unescape? key, ← j.value?) :: (← memberValues? rest)

end

/-- A tree can be written, and says something. -/
structure Says (j : Json) (v : Value) : Prop where
  legal : j.Legal
  value : j.value? = some v

/-- So do the members of an object. -/
structure MembersSay (members : List (List Char × Json)) (values : List (String × Value)) :
    Prop where
  legal : (Json.object members).Legal
  value : memberValues? members = some values

namespace Says

theorem bool (b : Bool) : Says (.bool b) (.bool b) := ⟨.bool b, by rw [value?]⟩

theorem ofNat (n : Nat) : Says (.ofNat n) (.number n) := by
  refine ⟨.number (whole_toString_nat n), ?_⟩
  rw [Json.ofNat, value?, whole?_toString_nat, Option.map_some]

theorem plainText (s : String) : Says (.plainText s) (.string s) := by
  refine ⟨.string (writes_plainText s), ?_⟩
  rw [Json.plainText, value?, unescape?_of_writes (writes_plainText s), Option.map_some]

/-- A list says what its items say. -/
theorem list {α : Type} {l : List α} {f : α → Json} {g : α → Value}
    (h : ∀ a ∈ l, Says (f a) (g a)) : Says (.array (l.map f)) (.array (l.map g)) := by
  refine ⟨.array (List.forall_mem_map.2 fun a ha => (h a ha).legal), ?_⟩
  rw [value?]
  induction l with
  | nil => simp [values?]
  | cons a l ih =>
    obtain ⟨hfirst, hrest⟩ := List.forall_mem_cons.1 h
    obtain ⟨items, hitems, heq⟩ := Option.map_eq_some_iff.1 (ih hrest)
    cases heq
    simp [values?, hfirst.value, hitems]

/-- An object says what its members say. -/
theorem object {members : List (List Char × Json)} {values : List (String × Value)}
    (h : MembersSay members values) : Says (.object members) (.object values) :=
  ⟨h.legal, by rw [value?, h.value, Option.map_some]⟩

end Says

namespace MembersSay

theorem nil : MembersSay [] [] := ⟨.emptyObject, by rw [memberValues?]⟩

theorem cons {name : String} {j : Json} {v : Value} {members : List (List Char × Json)}
    {values : List (String × Value)} (plain : Plain name) (h : Says j v)
    (rest : MembersSay members values) :
    MembersSay ((name.toList, j) :: members) ((name, v) :: values) where
  legal := .member plain h.legal rest.legal
  value := by simp [memberValues?, unescape?_of_writes plain.writes, h.value, rest.value]

end MembersSay
end Json

open Json

/-- What a report is to say of a label. -/
def Label.value (files : SourceFiles) (l : Label) : Value :=
  .object
    [("file", .string ((files.path? l.span.file).getD "<unknown>")),
      ("line", .number l.span.start.line),
      ("column", .number l.span.start.column),
      ("end_line", .number l.span.stop.line),
      ("end_column", .number l.span.stop.column),
      ("message", .string l.message),
      ("primary", .bool l.primary)]

/-- What a report is to say of a diagnostic. -/
def Diagnostic.value (files : SourceFiles) (d : Diagnostic) : Value :=
  .object
    [("code", .string d.code.text),
      ("name", .string d.code.name),
      ("severity", .string d.severity.text),
      ("message", .string d.message),
      ("labels", .array (d.labels.map (·.value files))),
      ("notes", .array (d.notes.map .string)),
      ("suggestions", .array (d.suggestions.map .string))]

theorem says_label (files : SourceFiles) (l : Label) :
    Says (l.toJson files) (l.value files) :=
  .object
    (.cons (by decide) (.plainText _) <| .cons (by decide) (.ofNat _) <|
      .cons (by decide) (.ofNat _) <| .cons (by decide) (.ofNat _) <|
      .cons (by decide) (.ofNat _) <| .cons (by decide) (.plainText _) <|
      .cons (by decide) (.bool _) .nil)

theorem says_diagnostic (files : SourceFiles) (d : Diagnostic) :
    Says (d.toJson files) (d.value files) :=
  .object
    (.cons (by decide) (.plainText _) <| .cons (by decide) (.plainText _) <|
      .cons (by decide) (.plainText _) <| .cons (by decide) (.plainText _) <|
      .cons (by decide) (.list fun l _ => says_label files l) <|
      .cons (by decide) (.list fun s _ => .plainText s) <|
      .cons (by decide) (.list fun s _ => .plainText s) .nil)

namespace Machine

/-- The objects of a report are laid out as the items of a list are. -/
theorem objects_eq_layOutItems (items : List Json) (j : Json) (rest : List Char) :
    objects (j :: items) ('\n' :: rest) = layOutItems 0 (j :: items) rest := by
  induction items generalizing j with
  | nil => rw [objects, layOutItems]
  | cons item items ih =>
    rw [objects, layOutItems, ih]
    · exact List.cons_ne_nil _ _
    · exact List.cons_ne_nil _ _

/-- **A report is read as the list of its objects**, also if there are none. -/
theorem read?_report (files : SourceFiles) (limit : Nat) (s : DiagnosticSink) :
    Json.read? (report files limit s) =
      some (.array ((s.reportable limit).map (·.toJson files))) := by
  have hlegal : ∀ d ∈ s.reportable limit, (d.toJson files).Legal :=
    fun d _ => (says_diagnostic files d).legal
  rw [← List.forall_mem_map] at hlegal
  rw [report]
  generalize (s.reportable limit).map (·.toJson files) = objs at hlegal
  cases objs with
  | nil =>
    have hgap : Blank ['\n', '\n'] := by simp [Blank, isSpace]
    exact (Reads.emptyArray hgap ['\n']).read? blank_newline
  | cons j items =>
    obtain ⟨hfirst, hitems⟩ := List.forall_mem_cons.1 hlegal
    have hread := readsItems_layOut 0 items (fun j hj _ => (hitems j hj).reads_layOut 1) j
      (fun _ => hfirst.reads_layOut 1) (show skipSpace [']', '\n'] = ']' :: ['\n'] from rfl)
    rw [objects_eq_layOutItems]
    exact (Reads.array (hread.blank blank_newline)).read? blank_newline

/-- **A report says what the diagnostics say.** It is read as JSON, and says the list of the
diagnostics within the limit in the order of their places: of each its code, name, severity and
message, its labels with the paths of their files, its notes and its suggestions. -/
theorem report_decodes (s : DiagnosticSink) (files : SourceFiles) (config : Config) :
    (Json.read? (renderReport s files config .machine)).bind value? =
      some (.array ((s.reportable config.errorLimit).map (·.value files))) := by
  rw [renderReport, read?_report]
  exact (Says.list fun d _ => says_diagnostic files d).value

end Machine
end ShaderFront
