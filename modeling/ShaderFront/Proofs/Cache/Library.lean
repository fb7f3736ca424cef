import ShaderFront.Cache.Library
import ShaderFront.Proofs.Cache.Fractions
import ShaderFront.Proofs.Json.Reading

/-!
# What is known of a library

A library documents that it reads back the truth values, whole numbers and texts that it writes,
that it writes numbers that are not finite as null, which it does not read as a number, and how it
derives the coding of a value from those of what the value carries. Of finite fractions it does not
say that they are read back.
-/

namespace ShaderFront

namespace Json

mutual

/-- What follows a tree is not looked at when it is written. -/
theorem renderTo_append (j : Json) (before after : List Char) :
    j.renderTo (before ++ after) = j.renderTo before ++ after := by
  cases j with
  | null | number | string => simp [renderTo, quote]
  | bool b => cases b <;> simp [renderTo]
  | array items =>
    cases items with
    | nil => simp [renderTo]
    | cons item items => simp [renderTo, renderItems_append items, renderTo_append item]
  | object members =>
    cases members with
    | nil => simp [renderTo]
    | cons member members =>
      simp [renderTo, quote, renderMembers_append members, renderTo_append member.2]

theorem renderItems_append (items : List Json) (before after : List Char) :
    renderItems items (before ++ after) = renderItems items before ++ after := by
  cases items with
  | nil => simp [renderItems]
  | cons item items => simp [renderItems, renderItems_append items, renderTo_append item]

theorem renderMembers_append (members : List (List Char × Json)) (before after : List Char) :
    renderMembers members (before ++ after) = renderMembers members before ++ after := by
  cases members with
  | nil => simp [renderMembers]
  | cons member members =>
    simp [renderMembers, quote, renderMembers_append members, renderTo_append member.2]

end

end Json

namespace Cache

open Json

/-- What is written is read back. -/
def Coding.Recovers {α : Type} (c : Coding α) : Prop := ∀ a, c.read? (c.write a) = some a

namespace Library

variable (lib : Library)

/-- One choice of a value: it is written as the text of what it carries, under its name, and read as
what that text is read as. -/
structure Derives {α : Type} (name : String) (carried : Coding α) (choice : α → ParamValue) :
    Prop where
  written : ∀ a, lib.value.write (choice a) = choiceText name (carried.write a)
  read : ∀ a, lib.value.read? (choiceText name (carried.write a)) =
    (carried.read? (carried.write a)).map choice

/-- What a library documents. -/
structure Documented : Prop where
  bool : lib.bool.Recovers
  int : lib.int.Recovers
  uint : lib.uint.Recovers
  text : lib.text.Recovers
  /-- A number that is not finite is written as null. -/
  unfinite : ∀ x : Binary64, x.isFinite = false → lib.float.write x = "null"
  /-- Null is no number. -/
  null : lib.float.read? "null" = none
  unset : lib.value.read? (lib.value.write .unset) = some .unset
  bools : lib.Derives "Bool" lib.bool .bool
  ints : lib.Derives "Int" lib.int .int
  uints : lib.Derives "UInt" lib.uint .uint
  floats : lib.Derives "Float" lib.float .float
  strings : lib.Derives "Str" lib.text .string
  mixins : lib.Derives "Mixin" lib.text .mixin

variable {lib}

/-- A choice is read back as far as what it carries is. -/
theorem Derives.read_written {α : Type} {name : String} {carried : Coding α}
    {choice : α → ParamValue} (h : lib.Derives name carried choice) (a : α) :
    lib.value.read? (lib.value.write (choice a)) = (carried.read? (carried.write a)).map choice := by
  rw [h.written, h.read]

/-- A choice is read back if what it carries is. -/
theorem Derives.recovers {α : Type} {name : String} {carried : Coding α}
    {choice : α → ParamValue} (h : lib.Derives name carried choice) (recovers : carried.Recovers)
    (a : α) : lib.value.read? (lib.value.write (choice a)) = some (choice a) := by
  rw [h.read_written, recovers, Option.map_some]

/-- A value that is no fraction is read back. -/
theorem Documented.recovers (h : lib.Documented) {v : ParamValue} (hv : v.kind? ≠ some .float) :
    lib.value.read? (lib.value.write v) = some v := by
  cases v with
  | unset => exact h.unset
  | bool b => exact h.bools.recovers h.bool b
  | int n => exact h.ints.recovers h.int n
  | uint n => exact h.uints.recovers h.uint n
  | float x => exact absurd rfl hv
  | string s => exact h.strings.recovers h.text s
  | mixin name => exact h.mixins.recovers h.text name

/-- A fraction that is not finite is not read back. -/
theorem Documented.refuses (h : lib.Documented) {x : Binary64} (hx : x.isFinite = false) :
    lib.value.read? (lib.value.write (.float x)) = none := by
  rw [h.floats.read_written, h.unfinite x hx, h.null, Option.map_none]

end Library

/-! ## The library in use -/

/-- A tree whose text is read as the tree. -/
def Readable (j : Json) : Prop := Json.read? j.render = some j

/-- A readable tree is decoded as it was written. -/
theorem Decoder.run_render {α : Type} (d : Decoder α) {j : Json} (h : Readable j) :
    d.run j.render = d maxNesting j := by
  rw [Decoder.run, h, Option.bind_some]

/-- A number lexeme is read, alone and as the payload of a choice. -/
theorem readable_number {l : Lexeme} (h : l.Formed) : Readable (.number l.chars) := by
  have hread : Reads ((Json.number l.chars).renderTo []) (.number l.chars) [] := by
    rw [renderTo]
    exact .number h delimited_nil
  exact hread.read? (List.forall_mem_nil _)

/-- A number in a choice is read, even where its digits are not those of a whole number. -/
theorem readable_choice_number {name : String} (plain : Plain name) {l : Lexeme} (h : l.Formed) :
    Readable (choiceJson name (.number l.chars)) := by
  have hnumber {rest : List Char} (delimited : Delimited rest) :
      Reads ((Json.number l.chars).renderTo rest) (.number l.chars) rest := by
    rw [renderTo]
    exact .number h delimited
  have hread : Reads ((choiceJson name (.number l.chars)).renderTo [])
      (choiceJson name (.number l.chars)) [] := by
    rw [choiceJson, renderTo]
    exact .object (readsMembers_render [] (List.forall_mem_nil _) (List.forall_mem_nil _) []
      (name.toList, .number l.chars) ⟨_, plain.writes⟩ fun _ => hnumber)
  exact hread.read? (List.forall_mem_nil _)

theorem readable_choice {name : String} (plain : Plain name) {j : Json} (h : j.Legal) :
    Readable (choiceJson name j) :=
  (Legal.member plain h .emptyObject).read?_render

/-- A double is written as a number, or as null. -/
theorem readable_binary64 {name : String} (plain : Plain name) (x : Binary64) :
    Readable (binary64 x) ∧ Readable (choiceJson name (binary64 x)) := by
  unfold binary64
  split
  · obtain ⟨l, hformed, hchars⟩ := exists_lexeme ‹x.isFinite = true›
    rw [← hchars]
    exact ⟨readable_number hformed, readable_choice_number plain hformed⟩
  · exact ⟨Legal.null.read?_render, readable_choice plain .null⟩

/-- A choice is written as an object with one member. -/
theorem render_choiceJson (name : String) (j : Json) :
    (choiceJson name j).render = choiceText name j.render := by
  have hclose : j.renderTo ['\x7d'] = j.renderTo [] ++ ['\x7d'] := j.renderTo_append [] _
  simp [choiceJson, Json.render, renderTo, renderMembers, quote, choiceText, hclose]

theorem Decoder.choice_payload {name : String} (plain : Plain name) (depth : Nat) (value : Json) :
    choice (depth + 1) (choiceJson name value) = some (name, some (depth, value)) := by
  simp [choice, choiceJson, members, enter, unescape?_of_writes plain.writes]

/-- What a decoder reads back of a tree it is given. -/
theorem recovers_coding {α : Type} {d : Decoder α} {encode : α → Json}
    (legal : ∀ a, (encode a).Legal) (h : ∀ a, d maxNesting (encode a) = some a) :
    (d.coding encode).Recovers := by
  intro a
  rw [Decoder.read?_coding, Decoder.write_coding, d.run_render (legal a).read?_render, h]

theorem library_value : library.value = decodeValue.coding valueJson := rfl

/-- What a choice of this name carries is decoded by `d`. -/
def DecodesChoice {α : Type} (name : String) (d : Decoder α) (choice : α → ParamValue) : Prop :=
  ∀ value, decodeValue maxNesting (choiceJson name value) = (d maxNesting value).map choice

/-- A choice of a value is derived if what it carries is decoded as it is alone. -/
theorem derives_coding {α : Type} {name : String} {d : Decoder α} {encode : α → Json}
    {choice : α → ParamValue} (decodes : DecodesChoice name d choice)
    (written : ∀ a, valueJson (choice a) = choiceJson name (encode a))
    (readable : ∀ a, Readable (encode a) ∧ Readable (choiceJson name (encode a))) :
    library.Derives name (d.coding encode) choice where
  written a := by
    rw [library_value, Decoder.write_coding, Decoder.write_coding, written, render_choiceJson]
  read a := by
    obtain ⟨hcarried, hchoice⟩ := readable a
    rw [library_value, Decoder.read?_coding, Decoder.read?_coding, Decoder.write_coding,
      ← render_choiceJson, decodeValue.run_render hchoice, decodes, d.run_render hcarried]

theorem choice_maxNesting {name : String} (plain : Plain name) (value : Json) :
    Decoder.choice maxNesting (choiceJson name value) = some (name, some (126, value)) :=
  Decoder.choice_payload plain 126 value

/-- What the choices of a value carry. -/
theorem decodes_choices :
    DecodesChoice "Bool" Decoder.bool .bool ∧
    DecodesChoice "Int" (Decoder.number readInt64?) .int ∧
    DecodesChoice "UInt" (Decoder.number readUInt64?) .uint ∧
    DecodesChoice "Float" (Decoder.number readBinary64?) .float ∧
    DecodesChoice "Str" Decoder.text .string ∧ DecodesChoice "Mixin" Decoder.text .mixin := by
  refine ⟨?_, ?_, ?_, ?_, ?_, ?_⟩ <;>
  · intro value
    simp (disch := decide) only [decodeValue, choice_maxNesting]
    cases value <;> rfl

/-- A whole number within its bounds is read. -/
theorem wholeWithin?_eq {low high n : Int} {cs : List Char} (h : whole? cs = some n)
    (hlow : low ≤ n) (hhigh : n ≤ high) : wholeWithin? low high cs = some n := by
  rw [wholeWithin?, h, Option.filter_some, if_pos (by simp [hlow, hhigh])]

/-- Whole numbers are read back. -/
theorem readInt64?_toString (n : Int64) : readInt64? (toString n.toInt).toList = some n := by
  rw [readInt64?, wholeWithin?_eq (whole?_toString n.toInt) n.minValue_le_toInt n.toInt_le]
  simp

theorem readUInt64?_toString (n : UInt64) : readUInt64? (toString n.toNat).toList = some n := by
  have hlt : n.toNat < UInt64.size := n.toNat_lt
  rw [readUInt64?, wholeWithin?_eq (whole?_toString_nat n.toNat) (by omega) (by omega)]
  simp

/-- **The library in use does what libraries document.** -/
theorem library_documented : library.Documented := by
  have legalBool (b : Bool) : (Json.bool b).Legal := .bool b
  have legalInt (n : Int64) : (Json.number (toString n.toInt).toList).Legal :=
    .number (whole_toString n.toInt)
  have legalUInt (n : UInt64) : (Json.ofNat n.toNat).Legal := .number (whole_toString_nat n.toNat)
  have legalText (s : String) : (textJson s).Legal := .string (writes_textLexeme s)
  have plainUnset : Plain "Unset" := by decide
  have readable {name : String} (plain : Plain name) {j : Json} (h : j.Legal) :
      Readable j ∧ Readable (choiceJson name j) :=
    ⟨h.read?_render, readable_choice plain h⟩
  obtain ⟨hbool, hint, huint, hfloat, hstring, hmixin⟩ := decodes_choices
  exact {
    bool := recovers_coding legalBool fun _ => rfl
    int := recovers_coding legalInt readInt64?_toString
    uint := recovers_coding legalUInt readUInt64?_toString
    text := recovers_coding legalText fun s => unescape?_of_writes (writes_textLexeme s)
    unfinite := by
      intro x hx
      show (binary64 x).render = "null"
      rw [binary64, if_neg (Bool.eq_false_iff.1 hx)]
      rfl
    null := (Decoder.number readBinary64?).run_render Legal.null.read?_render
    unset := decodeValue.run_render (Legal.string plainUnset.writes).read?_render
    bools := derives_coding hbool (fun _ => rfl) fun b => readable (by decide) (legalBool b)
    ints := derives_coding hint (fun _ => rfl) fun n => readable (by decide) (legalInt n)
    uints := derives_coding huint (fun _ => rfl) fun n => readable (by decide) (legalUInt n)
    floats := derives_coding hfloat (fun _ => rfl) fun x => readable_binary64 (by decide) x
    strings := derives_coding hstring (fun _ => rfl)
      fun s => readable (by decide) (legalText s)
    mixins := derives_coding hmixin (fun _ => rfl)
      fun s => readable (by decide) (legalText s) }

end Cache
end ShaderFront
