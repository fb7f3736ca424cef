import Mathlib.Data.String.Basic
import ShaderFront.Analysis.Typing

/-!
# The grammar of swizzles

A swizzle picks components of a value by their letters. There are two sets of letters, in the order
of the positions; the letters of one swizzle are from the same set. The rule measures a member in
bytes and looks for a set before it looks at positions. Still it accepts exactly the members of the
grammar (`IsSwizzle`), since all letters of the sets are ASCII and no letter is in both of them.
-/

namespace ShaderFront

/-- One to four letters of a set, all at positions below the size of a value. -/
structure Selects (set : List Char) (size : Nat) (member : String) : Prop where
  nonempty : 1 ≤ member.length
  short : member.length ≤ 4
  below : ∀ c ∈ member.toList, ∃ i < size, set[i]? = some c

/-- The members by which components of a value with `size` of them can be picked. -/
def IsSwizzle (size : Nat) (member : String) : Prop :=
  Selects ['x', 'y', 'z', 'w'] size member ∨ Selects ['r', 'g', 'b', 'a'] size member

/-- A type is a row of so many components: a scalar for one, and a vector for more. -/
def Ty.IsRow (k : ScalarKind) (count : Nat) : Ty → Prop
  | .scalar k' => k' = k ∧ count = 1
  | .vector k' n => k' = k ∧ n.toNat = count ∧ 1 < count
  | _ => False

/-! ## Letters and positions -/

/-- Letters of one byte each. -/
theorem utf8ByteSize_of_ascii {s : String} (h : ∀ c ∈ s.toList, c.val ≤ 127) :
    s.utf8ByteSize = s.length := by
  have hchars (cs : List Char) (hcs : ∀ c ∈ cs, c.val ≤ 127) : String.utf8Len cs = cs.length := by
    induction cs with
    | nil => rfl
    | cons c cs ih =>
      obtain ⟨hc, hrest⟩ := List.forall_mem_cons.1 hcs
      rw [String.utf8Len_cons, ih hrest, Char.utf8Size_eq_one_iff.2 hc, List.length_cons]
  rw [← String.ofList_toList (s := s), String.utf8ByteSize_ofList, String.length_ofList]
  exact hchars s.toList h

/-- In a set each letter has one position. -/
theorem position_iff {set : List Char} (distinct : set.Nodup) (size : Nat) (c : Char) :
    (∃ i < size, set[i]? = some c) ↔ c ∈ set ∧ set.idxOf c < size := by
  constructor
  · rintro ⟨i, hi, hc⟩
    obtain ⟨hlt, rfl⟩ := List.getElem?_eq_some_iff.1 hc
    exact ⟨List.getElem_mem hlt, by rwa [distinct.idxOf_getElem i hlt]⟩
  · rintro ⟨hmem, hlt⟩
    exact ⟨_, hlt, List.getElem?_idxOf hmem⟩

theorem swizzleSets_distinct : ∀ set ∈ swizzleSets, set.Nodup := by decide

theorem swizzleSets_ascii : ∀ set ∈ swizzleSets, ∀ c ∈ set, c.val ≤ 127 := by
  simp [swizzleSets]

theorem swizzleSets_disjoint : ∀ set ∈ swizzleSets, ∀ other ∈ swizzleSets,
    ∀ c ∈ set, c ∈ other → other = set := by
  simp [swizzleSets]

/-- The set that holds all letters of a member is the one that is found. -/
theorem find?_swizzleSets {set cs : List Char} (hset : set ∈ swizzleSets) (nonempty : cs ≠ [])
    (letters : ∀ c ∈ cs, c ∈ set) :
    swizzleSets.find? (fun other => cs.all other.contains) = some set := by
  have hall (other : List Char) : cs.all other.contains = true ↔ ∀ c ∈ cs, c ∈ other := by
    simp
  cases hfound : swizzleSets.find? fun other => cs.all other.contains with
  | none => exact absurd ((hall set).2 letters) (List.find?_eq_none.1 hfound set hset)
  | some other =>
    have hother : ∀ c ∈ cs, c ∈ other := by simpa using List.find?_some hfound
    obtain ⟨c, hc⟩ := List.exists_mem_of_ne_nil cs nonempty
    rw [swizzleSets_disjoint set hset other (List.mem_of_find?_eq_some hfound) c
      (letters c hc) (hother c hc)]

/-- The type of so many components is the only row of them. -/
theorem Ty.isRow_iff {k : ScalarKind} {count : Nat} (nonempty : 1 ≤ count) (short : count ≤ 4)
    {t : Ty} :
    t.IsRow k count ↔ t = if count = 1 then .scalar k else .vector k (UInt8.ofNat count) := by
  have hcount : (UInt8.ofNat count).toNat = count :=
    UInt8.toNat_ofNat_of_lt' (Nat.lt_of_le_of_lt short (by decide))
  constructor
  · intro h
    cases t with
    | scalar k' =>
      obtain ⟨rfl, rfl⟩ := h
      rfl
    | vector k' n =>
      obtain ⟨rfl, rfl, hmany⟩ := h
      rw [if_neg (by omega), UInt8.ofNat_toNat]
    | _ => exact h.elim
  · rintro rfl
    split
    · rename_i hone
      exact ⟨rfl, hone⟩
    · exact ⟨rfl, hcount, by omega⟩

/-! ## The rule -/

section Rule

variable {k : ScalarKind} {size : UInt8} {member : String} {t : Ty}

/-- The rule on a member whose letters are from one set. -/
theorem swizzle?_of_letters {set : List Char} (hset : set ∈ swizzleSets)
    (letters : ∀ c ∈ member.toList, c ∈ set) :
    swizzle? k size member = some t ↔
      Selects set size.toNat member ∧ t.IsRow k member.length := by
  have hbytes : member.utf8ByteSize = member.length :=
    utf8ByteSize_of_ascii fun c hc => swizzleSets_ascii set hset c (letters c hc)
  have hmax : Ty.maxDimension.toNat = 4 := rfl
  simp only [swizzle?, hbytes, hmax]
  by_cases hlength : member.length < 1 ∨ 4 < member.length
  · rw [if_pos hlength]
    refine iff_of_false nofun ?_
    rintro ⟨⟨nonempty, short, -⟩, -⟩
    omega
  · obtain ⟨nonempty, short⟩ : 1 ≤ member.length ∧ member.length ≤ 4 := by omega
    have hne : member.toList ≠ [] := by
      rw [← List.length_pos_iff, String.length_toList]
      exact nonempty
    have position := position_iff (swizzleSets_distinct set hset) size.toNat
    have hselects : Selects set size.toNat member ↔
        (member.toList.all fun c => set.idxOf c < size.toNat) = true := by
      simp only [List.all_eq_true, decide_eq_true_eq]
      exact ⟨fun h c hc => ((position c).1 (h.below c hc)).2, fun h =>
        ⟨nonempty, short, fun c hc => (position c).2 ⟨letters c hc, h c hc⟩⟩⟩
    rw [if_neg hlength, find?_swizzleSets hset hne letters, hselects,
      Ty.isRow_iff nonempty short]
    simp only [Option.ite_none_right_eq_some, Option.some.injEq]
    exact and_congr_right' eq_comm

/-- What is accepted has its letters from one set. -/
theorem letters_of_swizzle? (h : swizzle? k size member = some t) :
    ∃ set ∈ swizzleSets, ∀ c ∈ member.toList, c ∈ set := by
  simp only [swizzle?] at h
  split at h
  · cases h
  split at h
  · cases h
  · rename_i set hfound
    exact ⟨set, List.mem_of_find?_eq_some hfound, by simpa using List.find?_some hfound⟩

theorem Selects.letters {set : List Char} {size : Nat} (h : Selects set size member) :
    ∀ c ∈ member.toList, c ∈ set := by
  intro c hc
  obtain ⟨i, -, hi⟩ := h.below c hc
  exact List.mem_of_getElem? hi

theorem isSwizzle_iff {size : Nat} :
    IsSwizzle size member ↔ ∃ set ∈ swizzleSets, Selects set size member := by
  simp [IsSwizzle, swizzleSets]

/-- A member is accepted just if it is in the grammar, and its type is the row of its letters. -/
theorem swizzle?_eq_some_iff :
    swizzle? k size member = some t ↔
      IsSwizzle size.toNat member ∧ t.IsRow k member.length := by
  rw [isSwizzle_iff]
  constructor
  · intro h
    obtain ⟨set, hset, letters⟩ := letters_of_swizzle? h
    obtain ⟨hselects, hrow⟩ := (swizzle?_of_letters hset letters).1 h
    exact ⟨⟨set, hset, hselects⟩, hrow⟩
  · rintro ⟨⟨set, hset, hselects⟩, hrow⟩
    exact (swizzle?_of_letters hset hselects.letters).2 ⟨hselects, hrow⟩

end Rule

/-- There is a row of any number of components that a swizzle can have. -/
theorem IsSwizzle.exists_isRow {size : Nat} {member : String} (h : IsSwizzle size member)
    (k : ScalarKind) : ∃ t : Ty, t.IsRow k member.length := by
  obtain ⟨nonempty, short, -⟩ | ⟨nonempty, short, -⟩ := h <;>
    exact ⟨_, (Ty.isRow_iff nonempty short).2 rfl⟩

/-- **Swizzles are accepted by their grammar.** For a value of any element kind with any number of
components, and any text:

* the rule accepts the text just if it is one to four letters of one set, at positions below the
  number of components;
* the type it gives has the element kind, and is a scalar for one letter and a vector of as many
  components as there are letters for more;
* so does the analysis: it types a member of such a value, behind any synonyms, by the rule, and
  reports the text just if it is not in the grammar. -/
theorem swizzles_by_grammar (k : ScalarKind) (size : UInt8) (member : String) :
    ((swizzle? k size member).isSome = true ↔ IsSwizzle size.toNat member) ∧
    (∀ t, swizzle? k size member = some t ↔
      IsSwizzle size.toNat member ∧ t.IsRow k member.length) ∧
    ∀ (r : Rules) (ty : Ty) (span : Span),
      ty.resolve = .vector k size ∨ ty.resolve = .scalar k ∧ size = 1 →
      let out := r.member ty member span
      out.value = swizzle? k size member ∧
        (IsSwizzle size.toNat member ∧ out.findings = [] ∨
          ¬IsSwizzle size.toNat member ∧ out.findings = [⟨.badSwizzle member ty, span⟩]) := by
  have haccepted : (swizzle? k size member).isSome = true ↔ IsSwizzle size.toNat member := by
    rw [Option.isSome_iff_exists]
    constructor
    · rintro ⟨t, ht⟩
      exact (swizzle?_eq_some_iff.1 ht).1
    · intro h
      obtain ⟨t, hrow⟩ := h.exists_isRow k
      exact ⟨t, swizzle?_eq_some_iff.2 ⟨h, hrow⟩⟩
  refine ⟨haccepted, fun t => swizzle?_eq_some_iff, fun r ty span hty => ?_⟩
  intro out
  have hout : out = .orReject (swizzle? k size member) (.badSwizzle member ty) span := by
    obtain hvector | ⟨hscalar, rfl⟩ := hty
    · simp only [out, Rules.member, hvector, Rules.swizzle]
    · simp only [out, Rules.member, hscalar, Rules.swizzle]
  rw [hout, ← haccepted]
  cases swizzle? k size member with
  | some t => exact ⟨rfl, .inl ⟨rfl, rfl⟩⟩
  | none => exact ⟨rfl, .inr ⟨nofun, rfl⟩⟩

/-- A color behind a synonym, by its letters backwards and by letters of two sets. -/
theorem swizzles_by_grammar_color :
    let color : Ty := .synonym "color" (.vector .half 3)
    color.resolve = .vector .half 3 ∧ IsSwizzle 3 "bgr" ∧ ¬IsSwizzle 3 "xg" ∧
      ∀ r span, (Rules.member r color "bgr" span).value = some (.vector .half 3) ∧
        (Rules.member r color "xg" span).findings = [⟨.badSwizzle "xg" color, span⟩] := by
  intro color
  have hmixed : swizzle? .half 3 "xg" = none := by decide
  obtain ⟨haccepted, htypes, hmember⟩ := swizzles_by_grammar .half 3 "bgr"
  obtain ⟨haccepted', -, hmember'⟩ := swizzles_by_grammar .half 3 "xg"
  have hgrammar : IsSwizzle 3 "bgr" := haccepted.1 (by decide)
  have hmixed' : ¬IsSwizzle 3 "xg" := fun h => by
    simpa [hmixed] using haccepted'.2 h
  refine ⟨rfl, hgrammar, hmixed', fun r span => ⟨?_, ?_⟩⟩
  · rw [(hmember r color span (.inl rfl)).1]
    exact (htypes _).2 ⟨hgrammar, rfl, rfl, by decide⟩
  · obtain ⟨h, -⟩ | ⟨-, h⟩ := (hmember' r color span (.inl rfl)).2
    · exact absurd h hmixed'
    · exact h

end ShaderFront
