import Mathlib.Data.List.Induction
import ShaderFront.Proofs.Text.Numerals
import ShaderFront.Proofs.Types.Spelling

/-!
# Names of built-in types

Which texts name a built-in type. A dimension is read as a numeral, and a numeral keeps its value
when zeros are written in front of it or, where it does not follow a name, a plus sign. So a vector
or a matrix has more names than the one that it is shown by, and the others are told by a zero or a
plus sign in them.
-/

namespace ShaderFront

/-! ## Numerals of one digit -/

namespace Text

variable {cs : List Char} {n : Nat}

/-- Only zeros denote zero. -/
theorem eq_replicate_of_digitsValue (hdigits : ∀ c ∈ cs, c.isDigit = true)
    (hvalue : digitsValue cs = 0) : cs = List.replicate cs.length '0' := by
  induction cs using List.reverseRecOn with
  | nil => rfl
  | append_singleton cs c ih =>
    rw [digitsValue_snoc] at hvalue
    obtain ⟨-, hc⟩ := eq_digitChar (hdigits c (by simp))
    have hzero : c = '0' := by rwa [show c.toNat - 48 = 0 by omega] at hc
    rw [List.length_append, List.length_singleton, List.replicate_succ', hzero,
      ← ih (fun c h => hdigits c (by simp [h])) (by omega)]

/-- A digit after any number of zeros. -/
def Padded (n : Nat) (cs : List Char) : Prop :=
  ∃ zeros, cs = List.replicate zeros '0' ++ [n.digitChar]

/-- The same with or without a plus sign before it. -/
def SignedPadded (n : Nat) (cs : List Char) : Prop :=
  Padded n cs ∨ ∃ rest, cs = '+' :: rest ∧ Padded n rest

theorem Padded.ne_nil (h : Padded n cs) : cs ≠ [] := by
  obtain ⟨zeros, rfl⟩ := h
  simp

theorem Padded.isDigit (h : Padded n cs) (hten : n < 10) : ∀ c ∈ cs, c.isDigit = true := by
  obtain ⟨zeros, rfl⟩ := h
  intro c hc
  rcases List.mem_append.1 hc with hzero | hlast
  · rw [List.eq_of_mem_replicate hzero]
    rfl
  · rw [List.mem_singleton.1 hlast, Nat.isDigit_digitChar, decide_eq_true hten]

theorem Padded.not_mem (h : Padded n cs) (hten : n < 10) {c : Char} (hc : c.isDigit = false) :
    c ∉ cs :=
  fun hmem => absurd (h.isDigit hten c hmem) (by simp [hc])

/-- **A numeral of a value that has one digit** is that digit after any number of zeros. -/
theorem readDigits?_iff_padded (h : n < 10) : readDigits? cs = some n ↔ Padded n cs := by
  rw [readDigits?_eq_some_iff]
  constructor
  · rintro ⟨hne, hdigits, hvalue⟩
    rw [List.all_eq_true] at hdigits
    induction cs using List.reverseRecOn with
    | nil => exact absurd rfl hne
    | append_singleton cs c _ =>
      rw [digitsValue_snoc] at hvalue
      obtain ⟨-, hc⟩ := eq_digitChar (hdigits c (by simp))
      have hleading : cs = List.replicate cs.length '0' :=
        eq_replicate_of_digitsValue (fun c h => hdigits c (by simp [h])) (by omega)
      rw [show c.toNat - 48 = n by omega] at hc
      exact ⟨cs.length, by rw [← hleading, ← hc]⟩
  · intro hpadded
    have hdigits := hpadded.isDigit h
    obtain ⟨zeros, rfl⟩ := hpadded
    refine ⟨by simp, List.all_eq_true.2 hdigits, ?_⟩
    rw [digitsValue_snoc, digitsValue_replicate_zero, Nat.toNat_digitChar_of_lt_ten h]
    omega

/-- An unsigned numeral may have a plus sign. -/
theorem readUnsigned?_iff_padded (h : n < 10) : readUnsigned? cs = some n ↔ SignedPadded n cs := by
  simp only [SignedPadded, ← readDigits?_iff_padded h]
  unfold readUnsigned?
  split
  · rename_i rest
    have hsign : readDigits? ('+' :: rest) = none := rfl
    simp [hsign]
  · rename_i hplain
    exact ⟨.inl, fun h => h.resolve_right fun ⟨rest, heq, _⟩ => hplain rest heq⟩

end Text

/-! ## Spellings -/

namespace Ty

open Text

variable {cs dims : List Char} {n : UInt8} {k : ScalarKind} {ty : Ty} {name : String}

theorem dimension_iff : Dimension n ↔ 1 ≤ n.toNat ∧ n.toNat ≤ 4 := .rfl

theorem Dimension.lt_ten (h : Dimension n) : n.toNat < 10 :=
  Nat.lt_of_le_of_lt h.toNat_le (by decide)

/-- A dimension is written as its digit after any number of zeros, and there may be a plus sign. -/
theorem readDimension?_eq_some_iff :
    readDimension? cs = some n ↔ Dimension n ∧ SignedPadded n.toNat cs := by
  have hbounds (m : Nat) : (1 ≤ m && m ≤ maxDimension.toNat) = true ↔ 1 ≤ m ∧ m ≤ 4 := by
    rw [Bool.and_eq_true, decide_eq_true_eq, decide_eq_true_eq]
    rfl
  unfold readDimension?
  rw [Option.map_eq_some_iff]
  constructor
  · rintro ⟨m, hm, rfl⟩
    obtain ⟨hm, hrange⟩ := Option.filter_eq_some_iff.1 hm
    rw [hbounds] at hrange
    have hvalue : (UInt8.ofNat m).toNat = m :=
      UInt8.toNat_ofNat_of_lt' (Nat.lt_of_le_of_lt hrange.2 (by decide))
    have hn : Dimension (UInt8.ofNat m) := by
      rw [dimension_iff, hvalue]
      exact hrange
    exact ⟨hn, (readUnsigned?_iff_padded hn.lt_ten).1 (hvalue.symm ▸ hm)⟩
  · rintro ⟨hn, hwritten⟩
    have hread := (readUnsigned?_iff_padded hn.lt_ten).2 hwritten
    exact ⟨n.toNat, Option.filter_eq_some_iff.2 ⟨hread, (hbounds _).2 hn⟩, UInt8.ofNat_toNat⟩

/-- How the shape of a numeric type is written after its kind. -/
inductive ShapeSpelling (k : ScalarKind) : Ty → List Char → Prop where
  | scalar : ShapeSpelling k (.scalar k) []
  | vector {n : UInt8} {size : List Char} (dimension : Dimension n) (padded : Padded n.toNat size) :
    ShapeSpelling k (.vector k n) size
  | matrix {r c : UInt8} {rows columns : List Char} (rowDimension : Dimension r)
    (rowsPadded : Padded r.toNat rows) (columnDimension : Dimension c)
    (columnsPadded : SignedPadded c.toNat columns) :
    ShapeSpelling k (.matrix k r c) (rows ++ 'x' :: columns)

/-- How the built-in types are written. -/
inductive Spelling : Ty → String → Prop where
  | void : Spelling .void "void"
  | sampler {name : String} (named : name ∈ ["sampler", "sampler2D", "SamplerState"]) :
    Spelling .sampler name
  | numeric {k : ScalarKind} {ty : Ty} {name : String} {dims : List Char}
    (split : name.toList = k.name.toList ++ dims) (shape : ShapeSpelling k ty dims) :
    Spelling ty name

/-- The shape of a numeric type starts with a digit, if it is written at all. -/
theorem ShapeSpelling.isDigit_head (h : ShapeSpelling k ty dims) :
    ∀ c ∈ dims.head?, c.isDigit = true := by
  have hpadded {n : UInt8} {size : List Char} (hn : Dimension n) (padded : Padded n.toNat size)
      (more : List Char) : ∀ c ∈ (size ++ more).head?, c.isDigit = true := by
    have hdigits := padded.isDigit hn.lt_ten
    cases size with
    | nil => exact absurd padded.ne_nil (by simp)
    | cons c size =>
      rintro c' hc
      obtain rfl : c = c' := by simpa using hc
      exact hdigits c List.mem_cons_self
  cases h with
  | scalar => simp
  | vector dimension padded => simpa using hpadded dimension padded []
  | matrix rowDimension rowsPadded => exact hpadded rowDimension rowsPadded _

/-- Where a digit comes first there is no plus sign. -/
theorem readDimension?_iff_padded (h : ∀ c ∈ cs.head?, c.isDigit = true) :
    readDimension? cs = some n ↔ Dimension n ∧ Padded n.toNat cs := by
  rw [readDimension?_eq_some_iff]
  refine and_congr_right fun _ => or_iff_left ?_
  rintro ⟨rest, rfl, -⟩
  exact absurd (h '+' rfl) (by decide)

/-- A shape without an `x` is that of a vector. -/
theorem ofShape?_vector (hne : dims ≠ []) (hx : 'x' ∉ dims) :
    ofShape? k dims = (readDimension? dims).map (.vector k) := by
  simp [ofShape?, hne, hx]

/-- The first `x` stands between rows and columns. -/
theorem ofShape?_matrix {rows : List Char} (hx : 'x' ∉ rows) (columns : List Char) :
    ofShape? k (rows ++ 'x' :: columns) =
      (readDimension? rows).bind fun r => (readDimension? columns).map (.matrix k r) := by
  obtain ⟨htake, hdrop⟩ := parts_append (p := (· != 'x')) rows ('x' :: columns)
    (fun c hc => bne_iff_ne.2 (ne_of_mem_of_not_mem hc hx)) (by simp)
  have hne : (rows ++ 'x' :: columns).isEmpty = false := by simp
  have hmem : (rows ++ 'x' :: columns).contains 'x' = true := by simp
  rw [ofShape?, hne, hmem, htake, hdrop, List.drop_one, List.tail_cons]
  cases readDimension? rows with
  | none => rfl
  | some r => cases readDimension? columns <;> rfl

/-- **How shapes are read.** -/
theorem ofShape?_eq_some_iff (hdims : ∀ c ∈ dims.head?, c.isDigit = true) :
    ofShape? k dims = some ty ↔ ShapeSpelling k ty dims := by
  constructor
  · intro h
    by_cases hempty : dims = []
    · subst hempty
      exact Option.some.inj h ▸ .scalar
    by_cases hx : 'x' ∈ dims
    · obtain ⟨rows, columns, rfl, hrows⟩ := List.eq_append_cons_of_mem hx
      rw [ofShape?_matrix hrows] at h
      obtain ⟨r, hr, h⟩ := Option.bind_eq_some_iff.1 h
      obtain ⟨c, hc, rfl⟩ := Option.map_eq_some_iff.1 h
      -- The rows come first, so they start with a digit. Only the columns can have a plus sign.
      have hhead : ∀ c ∈ rows.head?, c.isDigit = true := by
        cases rows with
        | nil => nofun
        | cons c rows => exact hdims
      obtain ⟨rowDimension, rowsPadded⟩ := (readDimension?_iff_padded hhead).1 hr
      obtain ⟨columnDimension, columnsPadded⟩ := readDimension?_eq_some_iff.1 hc
      exact .matrix rowDimension rowsPadded columnDimension columnsPadded
    · rw [ofShape?_vector hempty hx] at h
      obtain ⟨n, hn, rfl⟩ := Option.map_eq_some_iff.1 h
      obtain ⟨dimension, padded⟩ := (readDimension?_iff_padded hdims).1 hn
      exact .vector dimension padded
  · intro h
    cases h with
    | scalar => rfl
    | vector dimension padded =>
      rw [ofShape?_vector padded.ne_nil (padded.not_mem dimension.lt_ten rfl),
        (readDimension?_iff_padded hdims).2 ⟨dimension, padded⟩]
      rfl
    | matrix rowDimension rowsPadded columnDimension columnsPadded =>
      rw [ofShape?_matrix (rowsPadded.not_mem rowDimension.lt_ten rfl),
        readDimension?_eq_some_iff.2 ⟨rowDimension, .inl rowsPadded⟩,
        readDimension?_eq_some_iff.2 ⟨columnDimension, columnsPadded⟩]
      rfl

theorem name_of_ofName? {s : String} (h : ScalarKind.ofName? s = some k) : k.name = s := by
  unfold ScalarKind.ofName? at h
  simpa using List.find?_some h

/-- Kinds are named without digits. -/
theorem isDigit_name (k : ScalarKind) : ∀ c ∈ k.name.toList, (!c.isDigit) = true :=
  List.all_eq_true.1 (by cases k <;> decide)

/-- What the names of types that are not numeric start with is no kind. -/
theorem name_ne_word (k : ScalarKind) :
    ∀ word ∈ ["void", "sampler", "sampler2D", "SamplerState"],
      word.toList.takeWhile (!·.isDigit) ≠ k.name.toList := by
  cases k <;> decide

/-- **Which names are built in.** -/
theorem ofBuiltinName?_eq_some_iff : ofBuiltinName? name = some ty ↔ Spelling ty name := by
  constructor
  · intro h
    unfold ofBuiltinName? at h
    split at h
    · rename_i hname
      obtain rfl := Option.some.inj h
      exact hname ▸ .void
    split at h
    · rename_i hname
      obtain rfl := Option.some.inj h
      exact .sampler (by simpa using hname)
    · obtain ⟨k, hk, h⟩ := Option.bind_eq_some_iff.1 h
      have hkind : k.name.toList = name.toList.takeWhile (!·.isDigit) := by
        rw [name_of_ofName? hk, String.toList_ofList]
      have hdims : ∀ c ∈ (name.toList.dropWhile (!·.isDigit)).head?, c.isDigit = true := by
        intro c hc
        have hhead := List.head?_dropWhile_not (!·.isDigit) name.toList
        rw [hc] at hhead
        simpa using hhead
      refine .numeric (k := k) ?_ ((ofShape?_eq_some_iff hdims).1 h)
      rw [hkind, List.takeWhile_append_dropWhile]
  · intro h
    cases h with
    | void => rfl
    | sampler named =>
      simp only [List.mem_cons, List.not_mem_nil, or_false] at named
      rcases named with rfl | rfl | rfl <;> rfl
    | @numeric k ty name dims split shape =>
      have hdims := shape.isDigit_head
      obtain ⟨hbase, hrest⟩ := parts_append _ dims (isDigit_name k) (by simpa using hdims)
      rw [← split] at hbase hrest
      -- What stands before the first digit is a kind, and that is so for none of the words.
      have hword : name ∉ ["void", "sampler", "sampler2D", "SamplerState"] := fun hmem =>
        name_ne_word k name hmem hbase
      simp only [List.mem_cons, List.not_mem_nil, or_false, not_or] at hword
      rw [ofBuiltinName?, if_neg hword.1, if_neg (not_or.2 ⟨hword.2.1, not_or.2 hword.2.2⟩)]
      simp only [hbase, hrest, String.ofList_toList, ScalarKind.ofName?_name, Option.bind_some]
      exact (ofShape?_eq_some_iff hdims).2 shape

/-! ## The name that a type is shown by -/

/-- The characters that the name of a type is shown with. -/
def isPlain (c : Char) : Bool := c != '0' && c != '+'

theorem filter_name (k : ScalarKind) : k.name.toList.filter isPlain = k.name.toList := by
  cases k <;> decide

theorem toList_toString_dimension (h : Dimension n) :
    (toString n.toNat).toList = [n.toNat.digitChar] :=
  Nat.toList_repr.trans (Nat.toDigits_of_lt_base h.lt_ten)

theorem isPlain_digitChar (h : Dimension n) : isPlain n.toNat.digitChar = true := by
  have hall : ([1, 2, 3, 4] : List UInt8).all (fun n => isPlain n.toNat.digitChar) = true := rfl
  exact List.all_eq_true.1 hall n h.mem

/-- Without zeros and plus signs a padded dimension is the dimension. -/
theorem filter_padded (h : Dimension n) (padded : SignedPadded n.toNat cs) :
    cs.filter isPlain = (toString n.toNat).toList := by
  have hzeros (zeros : Nat) : (List.replicate zeros '0').filter isPlain = [] :=
    List.filter_eq_nil_iff.2 fun c hc => List.eq_of_mem_replicate hc ▸ by decide
  rw [toList_toString_dimension h]
  rcases padded with ⟨zeros, rfl⟩ | ⟨rest, rfl, zeros, rfl⟩
  · simp [hzeros, isPlain_digitChar h]
  · rw [List.filter_cons_of_neg (by decide)]
    simp [hzeros, isPlain_digitChar h]

/-- **Without zeros and plus signs** a name is the one that its type is shown by. -/
theorem Spelling.toList_display (h : Spelling ty name) (hsampler : ty ≠ .sampler) :
    ty.display.toList = name.toList.filter isPlain := by
  cases h with
  | void => decide
  | sampler => exact absurd rfl hsampler
  | numeric split shape =>
    rw [split, List.filter_append, filter_name]
    cases shape with
    | scalar => simp [display]
    | vector dimension padded =>
      rw [filter_padded dimension (.inl padded), display, String.toList_append]
      rfl
    | matrix rowDimension rowsPadded columnDimension columnsPadded =>
      rw [List.filter_append, filter_padded rowDimension (.inl rowsPadded),
        List.filter_cons_of_pos (by decide), filter_padded columnDimension columnsPadded, display]
      simp only [String.toList_append, List.append_assoc]
      rfl

/-- **The names with zeros or plus signs** are those that no type is shown by, but for two of the
three names of samplers. -/
theorem Spelling.shown_iff (h : Spelling ty name) :
    (ty.display = name ∨ ty = .sampler ∧ (name = "sampler2D" ∨ name = "SamplerState")) ↔
      '0' ∉ name.toList ∧ '+' ∉ name.toList := by
  by_cases hsampler : ty = .sampler
  · subst hsampler
    cases h with
    | sampler named =>
      simp only [List.mem_cons, List.not_mem_nil, or_false] at named
      rcases named with rfl | rfl | rfl <;> decide
    | numeric split shape => cases shape
  · have hshown := h.toList_display hsampler
    simp only [hsampler, false_and, or_false]
    rw [← String.toList_inj, hshown, List.filter_eq_self]
    simp only [isPlain, Bool.and_eq_true, bne_iff_ne]
    constructor
    · exact fun h => ⟨fun hzero => (h _ hzero).1 rfl, fun hplus => (h _ hplus).2 rfl⟩
    · exact fun ⟨hzero, hplus⟩ c hc =>
        ⟨ne_of_mem_of_not_mem hc hzero, ne_of_mem_of_not_mem hc hplus⟩

/-- **The names of built-in types.** A name is built in exactly if it spells a type. It is the name
that the type is shown by or another name of samplers exactly if there is no zero and no plus sign in
it. And in a table of items a name is free exactly if it spells no type and no struct and no synonym
has it. -/
theorem builtin_spelled (name : String) :
    (∀ ty, ofBuiltinName? name = some ty ↔ Spelling ty name) ∧
      (∀ ty, ofBuiltinName? name = some ty →
        ((ty.display = name ∨ ty = .sampler ∧ (name = "sampler2D" ∨ name = "SamplerState")) ↔
          '0' ∉ name.toList ∧ '+' ∉ name.toList)) ∧
      ∀ t : ItemTable, t.type? name = none ↔
        (∀ ty, ¬Spelling ty name) ∧ t.struct? name = none ∧ t.synonyms.lookup name = none := by
  refine ⟨fun ty => ofBuiltinName?_eq_some_iff,
    fun ty h => (ofBuiltinName?_eq_some_iff.1 h).shown_iff, fun t => ?_⟩
  simp only [← ofBuiltinName?_eq_some_iff]
  unfold ItemTable.type?
  cases ofBuiltinName? name with
  | some ty => simp
  | none => cases t.struct? name <;> simp

/-- A matrix with a plus sign and a zero before its columns, and the name that it is shown by. -/
theorem builtin_spelled_signed :
    Spelling (.matrix .half 2 3) "half2x+03" ∧ (Ty.matrix .half 2 3).display ≠ "half2x+03" ∧
      (Ty.matrix .half 2 3).display = "half2x3" := by
  have hsigned : ofBuiltinName? "half2x+03" = some (.matrix .half 2 3) := by decide
  have hplain : ofBuiltinName? "half2x3" = some (.matrix .half 2 3) := by decide
  refine ⟨((builtin_spelled "half2x+03").1 _).1 hsigned, fun hshown => ?_, ?_⟩
  · exact (((builtin_spelled "half2x+03").2.1 _ hsigned).1 (.inl hshown)).1 (by decide)
  · exact (((builtin_spelled "half2x3").2.1 _ hplain).2 (by decide)).resolve_right nofun

/-- Two names of one vector, and only one of them is shown. -/
theorem padded_name_accepted :
    ofBuiltinName? "float03" = some (.vector .float 3) ∧
      ofBuiltinName? "float3" = some (.vector .float 3) ∧
      (Ty.vector .float 3).display ≠ "float03" := by
  decide

end Ty
end ShaderFront
