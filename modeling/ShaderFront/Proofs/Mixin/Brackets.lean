import Mathlib.Data.List.Basic
import Mathlib.Data.List.Infix

/-!
# Words of brackets

Openings carry a label, closings do not. What matters of a word is counted on its prefixes: it is
overdrawn if some prefix closes more than it opens, and an opening is unmatched if what follows it
is not overdrawn. Nothing here runs a stack; that a stack ends up with the unmatched openings is
what `unmatched_snoc_opening` and `unmatched_snoc_closing` say.
-/

namespace ShaderFront

/-- Slots that are opened and closed, as brackets. -/
inductive SlotBracket where
  | opening (label : String)
  | closing
  deriving DecidableEq, Repr

namespace SlotBracket

/-- How many openings a word has. -/
def opens (word : List SlotBracket) : Nat :=
  word.countP fun
    | .opening _ => true
    | .closing => false

/-- How many closings a word has. -/
def closes (word : List SlotBracket) : Nat := word.count .closing

/-- Some prefix closes more than it opens. -/
def Overdrawn (word : List SlotBracket) : Prop := ∃ part, part <+: word ∧ opens part < closes part

section Counts

variable (label : String) (word : List SlotBracket)

@[simp] theorem opens_nil : opens [] = 0 := rfl

@[simp] theorem closes_nil : closes [] = 0 := rfl

@[simp] theorem opens_opening : opens (.opening label :: word) = opens word + 1 :=
  List.countP_cons_of_pos rfl

@[simp] theorem opens_closing : opens (.closing :: word) = opens word :=
  List.countP_cons_of_neg (by simp)

@[simp] theorem closes_opening : closes (.opening label :: word) = closes word :=
  List.count_cons_of_ne (by simp)

@[simp] theorem closes_closing : closes (.closing :: word) = closes word + 1 :=
  List.count_cons_self

end Counts

/-- How many openings in front would keep a word from being overdrawn. -/
def deficit : List SlotBracket → Nat
  | [] => 0
  | .opening _ :: word => deficit word - 1
  | .closing :: word => deficit word + 1

/-- The deficit is the most by which the closings lead anywhere in the word. -/
theorem lt_deficit_iff {word : List SlotBracket} {n : Nat} :
    n < deficit word ↔ ∃ part, part <+: word ∧ n + opens part < closes part := by
  induction word generalizing n with
  | nil => simp [deficit]
  | cons b word ih =>
    cases b with
    | opening label =>
      rw [deficit, Nat.lt_sub_iff_add_lt, ih]
      constructor
      · rintro ⟨part, hpart, hlt⟩
        refine ⟨.opening label :: part, List.cons_prefix_cons.2 ⟨rfl, hpart⟩, ?_⟩
        rw [opens_opening, closes_opening]
        omega
      · rintro ⟨part, hpart, hlt⟩
        rcases List.prefix_cons_iff.1 hpart with rfl | ⟨rest, rfl, hrest⟩
        · simp at hlt
        · rw [opens_opening, closes_opening] at hlt
          exact ⟨rest, hrest, by omega⟩
    | closing =>
      cases n with
      | zero =>
        refine iff_of_true (Nat.succ_pos _) ⟨[.closing], ?_, by decide⟩
        exact List.cons_prefix_cons.2 ⟨rfl, List.nil_prefix⟩
      | succ n =>
        rw [deficit, Nat.add_lt_add_iff_right, ih]
        constructor
        · rintro ⟨part, hpart, hlt⟩
          refine ⟨.closing :: part, List.cons_prefix_cons.2 ⟨rfl, hpart⟩, ?_⟩
          rw [opens_closing, closes_closing]
          omega
        · rintro ⟨part, hpart, hlt⟩
          rcases List.prefix_cons_iff.1 hpart with rfl | ⟨rest, rfl, hrest⟩
          · simp at hlt
          · rw [opens_closing, closes_closing] at hlt
            exact ⟨rest, hrest, by omega⟩

/-- A word is overdrawn if it has a deficit. -/
theorem overdrawn_iff {word : List SlotBracket} : Overdrawn word ↔ 0 < deficit word := by
  simp only [Overdrawn, lt_deficit_iff, Nat.zero_add]

instance (word : List SlotBracket) : Decidable (Overdrawn word) :=
  decidable_of_iff _ overdrawn_iff.symm

/-- What follows does not make up for it. -/
theorem Overdrawn.append {word : List SlotBracket} (h : Overdrawn word) (rest : List SlotBracket) :
    Overdrawn (word ++ rest) := by
  obtain ⟨part, hpart, hlt⟩ := h
  exact ⟨part, hpart.trans (List.prefix_append word rest), hlt⟩

/-- The labels of the openings that are not closed again, in order. -/
def unmatched : List SlotBracket → List String
  | [] => []
  | .opening label :: word =>
    if Overdrawn word then unmatched word else label :: unmatched word
  | .closing :: word => unmatched word

/-! ## One bracket more -/

theorem deficit_snoc_opening (word : List SlotBracket) (label : String) :
    deficit (word ++ [.opening label]) = deficit word := by
  induction word with
  | nil => rfl
  | cons b word ih => cases b <;> simp only [List.cons_append, deficit, ih]

theorem unmatched_snoc_opening (word : List SlotBracket) (label : String) :
    unmatched (word ++ [.opening label]) = unmatched word ++ [label] := by
  induction word with
  | nil => rfl
  | cons b word ih =>
    cases b with
    | opening other =>
      simp only [List.cons_append, unmatched, overdrawn_iff, deficit_snoc_opening, ih]
      split <;> rfl
    | closing => simp only [List.cons_append, unmatched, ih]

/-- A closing closes the last opening that is unmatched, and is one too many if there is none. -/
theorem snoc_closing (word : List SlotBracket) :
    deficit (word ++ [.closing]) =
        (if unmatched word = [] then deficit word + 1 else deficit word) ∧
      unmatched (word ++ [.closing]) = (unmatched word).dropLast := by
  induction word with
  | nil => exact ⟨rfl, rfl⟩
  | cons b word ih =>
    obtain ⟨hdeficit, hunmatched⟩ := ih
    cases b with
    | closing =>
      simp only [List.cons_append, deficit, unmatched, hdeficit, hunmatched, and_true]
      by_cases hnone : unmatched word = [] <;> simp [hnone]
    | opening label =>
      simp only [List.cons_append, deficit, unmatched, overdrawn_iff, hdeficit, hunmatched]
      by_cases hnone : unmatched word = [] <;> by_cases hover : deficit word = 0
      · simp [hnone, hover]
      · have hpos : 0 < deficit word := Nat.pos_of_ne_zero hover
        simp [hnone, hpos]
        omega
      · simp [hnone, hover, List.dropLast_cons_of_ne_nil hnone]
      · have hpos : 0 < deficit word := Nat.pos_of_ne_zero hover
        simp [hnone, hpos]

theorem overdrawn_snoc_opening {word : List SlotBracket} {label : String} :
    Overdrawn (word ++ [.opening label]) ↔ Overdrawn word := by
  rw [overdrawn_iff, overdrawn_iff, deficit_snoc_opening]

/-- A closing overdraws a word in which everything opened is closed. -/
theorem overdrawn_snoc_closing {word : List SlotBracket} (h : ¬Overdrawn word) :
    Overdrawn (word ++ [.closing]) ↔ unmatched word = [] := by
  rw [overdrawn_iff] at h
  rw [overdrawn_iff, (snoc_closing word).1]
  split
  · exact iff_of_true (Nat.succ_pos _) ‹_›
  · exact iff_of_false h ‹_›

/-- A closing takes the last opening that is unmatched. -/
theorem unmatched_snoc_closing (word : List SlotBracket) :
    unmatched (word ++ [.closing]) = (unmatched word).dropLast :=
  (snoc_closing word).2

end SlotBracket
end ShaderFront
