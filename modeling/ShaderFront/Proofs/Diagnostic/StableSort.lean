import Mathlib.Order.Lattice
import Mathlib.Data.List.Basic

/-!
# Stable sorts

A list is sorted stably by a key if the keys ascend and the entries of each key are those it had
before, in the order they had. That leaves no choice (`StablySorted.unique`), and whoever sorts part
of a list gets part of what sorting the list gives (`StablySorted.sublist`). Both come from one
fact: a list whose keys ascend is known by its entries of each key.
-/

namespace ShaderFront

variable {α κ : Type*} [LinearOrder κ] (key : α → κ)

/-- Keys do not fall from one entry to a later one. -/
def KeysAscend (l : List α) : Prop := l.Pairwise fun a b => key a ≤ key b

/-- The entries of one key. -/
def ofKey (k : κ) (l : List α) : List α := l.filter (key · = k)

/-- `sorted` is `base` sorted by a key, where entries of one key stay in their order. -/
structure StablySorted (base sorted : List α) : Prop where
  ascending : KeysAscend key sorted
  stable : ∀ k, ofKey key k sorted = ofKey key k base

variable {key}

theorem ofKey_cons_eq {a : α} {k : κ} (h : key a = k) (l : List α) :
    ofKey key k (a :: l) = a :: ofKey key k l := by
  simp [ofKey, h]

theorem ofKey_cons_ne {a : α} {k : κ} (h : key a ≠ k) (l : List α) :
    ofKey key k (a :: l) = ofKey key k l := by
  simp [ofKey, h]

/-- Only the keys of entries have to be looked at, so a stable sort can be checked. -/
theorem stablySorted_iff {base sorted : List α} : StablySorted key base sorted ↔
    KeysAscend key sorted ∧
      ∀ a ∈ sorted ++ base, ofKey key (key a) sorted = ofKey key (key a) base := by
  constructor
  · intro h
    exact ⟨h.ascending, fun a _ => h.stable (key a)⟩
  · rintro ⟨ascending, stable⟩
    refine ⟨ascending, fun k => ?_⟩
    by_cases hk : ∃ a ∈ sorted ++ base, key a = k
    · obtain ⟨a, hmem, rfl⟩ := hk
      exact stable a hmem
    · have hnone (l : List α) (hl : l ⊆ sorted ++ base) : ofKey key k l = [] := by
        refine List.filter_eq_nil_iff.2 fun a hmem => ?_
        exact fun heq => hk ⟨a, hl hmem, of_decide_eq_true heq⟩
      rw [hnone sorted (List.subset_append_left ..), hnone base (List.subset_append_right ..)]

instance [DecidableEq α] (base sorted : List α) : Decidable (StablySorted key base sorted) :=
  haveI : Decidable (KeysAscend key sorted) :=
    inferInstanceAs (Decidable (sorted.Pairwise fun a b => key a ≤ key b))
  decidable_of_iff' _ stablySorted_iff

/-- No key is smaller than that of the head. -/
theorem KeysAscend.ofKey_eq_nil {a : α} {l : List α} (h : KeysAscend key (a :: l)) {k : κ}
    (hk : k < key a) : ofKey key k (a :: l) = [] := by
  refine List.filter_eq_nil_iff.2 fun b hb => ?_
  have hle : key a ≤ key b := by
    rcases List.mem_cons.1 hb with rfl | hmem
    · exact le_rfl
    · exact List.rel_of_pairwise_cons h hmem
  simpa using (hk.trans_le hle).ne'

/-- If keys ascend in both lists, what is found key by key is found in one go. -/
theorem sublist_of_ofKey {l l' : List α} (h : KeysAscend key l) (h' : KeysAscend key l')
    (hkeys : ∀ k, (ofKey key k l).Sublist (ofKey key k l')) : l.Sublist l' := by
  induction l' generalizing l with
  | nil =>
    cases l with
    | nil => exact .slnil
    | cons a l => simpa [ofKey] using hkeys (key a)
  | cons b l' ih =>
    have hl' : KeysAscend key l' := List.Pairwise.of_cons h'
    -- The head of the second list can be passed over if the rest has all of its key.
    have pass (hrest : (ofKey key (key b) l).Sublist (ofKey key (key b) l')) :
        l.Sublist (b :: l') := by
      refine (ih h hl' fun k => ?_).cons b
      by_cases hk : key b = k
      · exact hk ▸ hrest
      · exact ofKey_cons_ne hk l' ▸ hkeys k
    cases l with
    | nil => exact List.nil_sublist _
    | cons a l =>
      rcases lt_trichotomy (key a) (key b) with hlt | heq | hgt
      · have hnone := hkeys (key a)
        rw [h'.ofKey_eq_nil hlt, ofKey_cons_eq rfl] at hnone
        cases hnone
      · have hsame := hkeys (key b)
        rw [ofKey_cons_eq heq, ofKey_cons_eq rfl] at hsame
        cases hsame with
        | cons _ hrest => exact pass (ofKey_cons_eq heq l ▸ hrest)
        | cons_cons _ hrest =>
          refine (ih (List.Pairwise.of_cons h) hl' fun k => ?_).cons_cons _
          by_cases hk : key b = k
          · exact hk ▸ hrest
          · have hother := hkeys k
            rwa [ofKey_cons_ne hk, ofKey_cons_ne (heq ▸ hk)] at hother
      · exact pass (h.ofKey_eq_nil hgt ▸ List.nil_sublist _)

namespace StablySorted

variable {base base' sorted sorted' : List α}

/-- What is left out before sorting is left out after sorting. -/
theorem sublist (h : StablySorted key base sorted) (h' : StablySorted key base' sorted')
    (hbase : base.Sublist base') : sorted.Sublist sorted' :=
  sublist_of_ofKey h.ascending h'.ascending fun k => by
    rw [h.stable, h'.stable]
    exact hbase.filter _

theorem unique (h : StablySorted key base sorted) (h' : StablySorted key base sorted') :
    sorted' = sorted :=
  (h'.sublist h (.refl base)).antisymm (h.sublist h' (.refl base))

end StablySorted

/-- Sorting by merging is stable. -/
theorem stablySorted_mergeSort (l : List α) :
    StablySorted key l (l.mergeSort fun a b => key a ≤ key b) := by
  have htrans : ∀ a b c : α, decide (key a ≤ key b) = true → decide (key b ≤ key c) = true →
      decide (key a ≤ key c) = true := by
    simpa using fun a b c => le_trans (a := key a)
  have htotal : ∀ a b : α, (decide (key a ≤ key b) || decide (key b ≤ key a)) = true := by
    simpa using fun a b => le_total (key a) (key b)
  constructor
  · simpa [KeysAscend] using List.pairwise_mergeSort htrans htotal l
  · intro k
    -- The entries of one key are in order as they are, so they are found again in the sorted list.
    have hordered : (ofKey key k l).Pairwise fun a b => decide (key a ≤ key b) = true := by
      refine List.pairwise_of_forall_mem_list fun a ha b hb => ?_
      simp only [ofKey, List.mem_filter, decide_eq_true_eq] at ha hb
      simp [ha.2, hb.2]
    have hfound : (ofKey key k l).Sublist (l.mergeSort fun a b => key a ≤ key b) :=
      List.sublist_mergeSort htrans htotal hordered List.filter_sublist
    have hkept := hfound.filter (key · = k)
    have hcount := ((List.mergeSort_perm l fun a b => key a ≤ key b).filter (key · = k)).length_eq
    rw [ofKey, List.filter_filter] at hkept
    simp only [Bool.and_self] at hkept
    exact (hkept.eq_of_length hcount.symm).symm

end ShaderFront
