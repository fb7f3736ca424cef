import Mathlib.Data.List.Sort
import ShaderFront.Mixin.Bindings

/-!
# Scopes by what they bind

A scope keeps its bindings in the order of the keys, each key once (`Parameters.Ordered`). So it is
known by the values of the keys (`Ordered.ext`), and these are the last ones the keys were bound to
(`get?_bindAll`).
-/

namespace ShaderFront

/-- What a key is bound to if each is bound once. -/
theorem lookup_of_nodup {α β : Type} [BEq α] [LawfulBEq α] {entries : List (α × β)}
    (h : (entries.map (·.1)).Nodup) {a : α} {b : β} :
    entries.lookup a = some b ↔ (a, b) ∈ entries := by
  rw [List.lookup_eq_some_iff]
  constructor
  · rintro ⟨before, after, rfl, -⟩
    simp
  · intro hmem
    obtain ⟨before, after, rfl⟩ := List.append_of_mem hmem
    refine ⟨before, after, rfl, fun entry hentry => ?_⟩
    rw [List.map_append, List.map_cons, List.nodup_append] at h
    have hne := h.2.2 entry.1 (List.mem_map_of_mem hentry) a List.mem_cons_self
    simpa using fun he : a = entry.1 => hne he.symm

theorem ParamValue.read?_own_kind {value : ParamValue} {kind : ParamKind}
    (h : value.kind? = some kind) : value.read? kind = some value := by
  cases value <;> cases h <;> rfl

namespace ParamKey

theorem before_iff {a b : ParamKey} :
    a.before b = true ↔ a.name < b.name ∨ a.name = b.name ∧ a.kind.rank < b.kind.rank := by
  simp [before]

theorem before_irrefl (a : ParamKey) : a.before a ≠ true := by
  simp [before_iff]

theorem before_trans {a b c : ParamKey} (hab : a.before b = true) (hbc : b.before c = true) :
    a.before c = true := by
  rw [before_iff] at hab hbc ⊢
  rcases hab with hab | ⟨hname, hab⟩ <;> rcases hbc with hbc | ⟨hname', hbc⟩
  · exact .inl (String.lt_trans hab hbc)
  · exact .inl (hname' ▸ hab)
  · exact .inl (hname ▸ hbc)
  · exact .inr ⟨hname.trans hname', hab.trans hbc⟩

theorem before_of_not_before {a b : ParamKey} (hne : a ≠ b) (h : ¬b.before a = true) :
    a.before b = true := by
  rw [before_iff] at h ⊢
  obtain ⟨name, kind⟩ := a
  obtain ⟨name', kind'⟩ := b
  by_cases hname : name = name'
  · subst hname
    have hkind : kind ≠ kind' := fun he => hne (by rw [he])
    refine .inr ⟨rfl, ?_⟩
    cases kind <;> cases kind' <;> simp_all [ParamKind.rank]
  · refine .inl ?_
    by_contra hlt
    have hle : ¬name' < name := fun hlt' => h (.inl hlt')
    exact hname (String.le_antisymm (String.not_lt.1 hle) (String.not_lt.1 hlt))

end ParamKey

namespace Parameters

/-- Bindings stand in the order of their keys, each key once. -/
def Ordered (p : Parameters) : Prop := p.entries.Pairwise fun e e' => e.1.before e'.1 = true

/-- Bindings made in order, on top of those there are. -/
def bindAll (p : Parameters) (bindings : List (ParamKey × ParamValue)) : Parameters :=
  bindings.foldl (fun p (k, v) => p.set k v) p

theorem fst_mem_put {key : ParamKey} {value : ParamValue} {entries : List (ParamKey × ParamValue)}
    {entry : ParamKey × ParamValue} (h : entry ∈ put key value entries) :
    entry.1 = key ∨ entry ∈ entries := by
  induction entries with
  | nil => exact .inl (by rw [List.mem_singleton.1 h])
  | cons head rest ih =>
    obtain ⟨k, v⟩ := head
    unfold put at h
    split at h
    · rcases List.mem_cons.1 h with rfl | hmem
      · exact .inl rfl
      · exact .inr (List.mem_cons_of_mem _ hmem)
    · split at h
      · rcases List.mem_cons.1 h with rfl | hmem
        · exact .inl rfl
        · exact .inr hmem
      · rcases List.mem_cons.1 h with rfl | hmem
        · exact .inr List.mem_cons_self
        · exact (ih hmem).imp_right (List.mem_cons_of_mem _)

theorem Ordered.set {p : Parameters} (h : p.Ordered) (key : ParamKey) (value : ParamValue) :
    (p.set key value).Ordered := by
  obtain ⟨entries⟩ := p
  simp only [Ordered, Parameters.set] at h ⊢
  induction entries with
  | nil => exact List.pairwise_singleton _ _
  | cons head rest ih =>
    obtain ⟨k, v⟩ := head
    obtain ⟨hhead, hrest⟩ := List.pairwise_cons.1 h
    unfold put
    split
    · rename_i hk
      subst hk
      exact List.pairwise_cons.2 ⟨hhead, hrest⟩
    · rename_i hk
      split
      · rename_i hbefore
        refine List.pairwise_cons.2 ⟨List.forall_mem_cons.2 ⟨hbefore, fun entry hentry => ?_⟩, h⟩
        exact ParamKey.before_trans hbefore (hhead entry hentry)
      · rename_i hbefore
        refine List.pairwise_cons.2 ⟨fun entry hentry => ?_, ih hrest⟩
        rcases fst_mem_put hentry with heq | hmem
        · exact heq ▸ ParamKey.before_of_not_before hk hbefore
        · exact hhead entry hmem

theorem Ordered.bindAll {p : Parameters} (h : p.Ordered)
    (bindings : List (ParamKey × ParamValue)) : (p.bindAll bindings).Ordered := by
  induction bindings generalizing p with
  | nil => exact h
  | cons b rest ih => exact ih (h.set b.1 b.2)

theorem ordered_ofList (bindings : List (ParamKey × ParamValue)) : (ofList bindings).Ordered :=
  Ordered.bindAll List.Pairwise.nil bindings

theorem Ordered.get?_eq_some {p : Parameters} (h : p.Ordered) {key : ParamKey}
    {value : ParamValue} : p.get? key = some value ↔ (key, value) ∈ p.entries := by
  refine lookup_of_nodup (List.pairwise_map.2 (h.imp fun {e e'} hbefore heq => ?_))
  exact ParamKey.before_irrefl e.1 (heq ▸ hbefore)

/-- **Scopes that give every key the same value are the same.** -/
theorem Ordered.ext {p q : Parameters} (hp : p.Ordered) (hq : q.Ordered)
    (h : ∀ key, p.get? key = q.get? key) : p = q := by
  let before (e e' : ParamKey × ParamValue) : Prop := e.1.before e'.1 = true
  have : Std.Irrefl before := ⟨fun e => ParamKey.before_irrefl e.1⟩
  have : Std.Antisymm before :=
    ⟨fun e e' h h' => absurd (ParamKey.before_trans h h') (ParamKey.before_irrefl e.1)⟩
  have hentries : p.entries = q.entries := by
    refine List.Pairwise.eq_of_mem_iff (r := before) hp hq fun (key, value) => ?_
    rw [← hp.get?_eq_some, ← hq.get?_eq_some, h key]
  cases p
  cases q
  exact congrArg _ hentries

/-- A key has the last value it was bound to. -/
theorem get?_bindAll (p : Parameters) (bindings : List (ParamKey × ParamValue)) (key : ParamKey) :
    (p.bindAll bindings).get? key = (bindings.reverse.lookup key).or (p.get? key) := by
  induction bindings generalizing p with
  | nil => rfl
  | cons b rest ih =>
    obtain ⟨k, v⟩ := b
    have hstep : p.bindAll ((k, v) :: rest) = (p.set k v).bindAll rest := rfl
    rw [hstep, ih, List.reverse_cons, List.lookup_append, Option.or_assoc]
    congr 1
    by_cases hkey : key = k
    · subst hkey
      simp [get?_set_self]
    · have hne : (key == k) = false := by simpa using hkey
      simp [get?_set_ne _ _ _ _ hkey, List.lookup_cons, hne]

theorem get?_ofList (bindings : List (ParamKey × ParamValue)) (key : ParamKey) :
    (ofList bindings).get? key = bindings.reverse.lookup key :=
  (get?_bindAll {} bindings key).trans (Option.or_none)

/-! ## The list of a scope -/

/-- All bindings of a scope in some order, each of them once. -/
structure Lists (p : Parameters) (bound : List (ParamKey × ParamValue)) : Prop where
  once : bound.Nodup
  mem : ∀ key value, (key, value) ∈ bound ↔ p.get? key = some value

/-- A binding under the name of its key. -/
def named (binding : ParamKey × ParamValue) : String × ParamValue := (binding.1.name, binding.2)

/-- Names in order, where a name may follow itself. -/
def nameAtMost (a b : String × ParamValue) : Bool := !(b.1 < a.1)

theorem nameAtMost_iff {a b : String × ParamValue} : nameAtMost a b = true ↔ a.1 ≤ b.1 := by
  rw [nameAtMost, Bool.not_eq_true', decide_eq_false_iff_not, String.not_lt]

theorem Ordered.nodup {p : Parameters} (h : p.Ordered) : p.entries.Nodup := by
  refine List.Pairwise.imp (fun {e e'} hbefore heq => ?_) h
  subst heq
  exact ParamKey.before_irrefl e.1 hbefore

theorem Ordered.lists {p : Parameters} (h : p.Ordered) : p.Lists p.entries :=
  ⟨h.nodup, fun _ _ => h.get?_eq_some.symm⟩

/-- The list of a scope is made of its bindings, each of them once. -/
theorem Ordered.toList_perm {p : Parameters} (h : p.Ordered)
    {bound : List (ParamKey × ParamValue)} (hbound : p.Lists bound) :
    (bound.map named).Perm p.toList := by
  have hentries : bound.Perm p.entries := by
    refine (List.perm_ext_iff_of_nodup hbound.once h.nodup).2 fun (key, value) => ?_
    rw [hbound.mem, h.get?_eq_some]
  exact hentries.map named

theorem Ordered.mem_toList {p : Parameters} (h : p.Ordered) {name : String} {value : ParamValue} :
    (name, value) ∈ p.toList ↔ ∃ key, key.name = name ∧ p.get? key = some value := by
  constructor
  · intro hmem
    obtain ⟨⟨key, v⟩, hentry, heq⟩ := List.mem_map.1 hmem
    cases heq
    exact ⟨key, rfl, h.get?_eq_some.2 hentry⟩
  · rintro ⟨key, rfl, hget⟩
    exact List.mem_map_of_mem (h.get?_eq_some.1 hget)

/-- **The list of a scope is the sort of its bindings by name**, whatever order they are taken
from, if no two of them have one name. -/
theorem Ordered.toList_eq_sort {p : Parameters} (h : p.Ordered)
    (names : (p.toList.map (·.1)).Pairwise (· < ·)) {bound : List (ParamKey × ParamValue)}
    (hbound : p.Lists bound) : (bound.map named).mergeSort nameAtMost = p.toList := by
  have hperm : ((bound.map named).mergeSort nameAtMost).Perm p.toList :=
    (List.mergeSort_perm _ _).trans (h.toList_perm hbound)
  have hsorted : ((bound.map named).mergeSort nameAtMost).Pairwise fun a b =>
      nameAtMost a b = true := by
    refine List.pairwise_mergeSort (fun a b c hab hbc => ?_) (fun a b => ?_) _
    · exact nameAtMost_iff.2 (String.le_trans (nameAtMost_iff.1 hab) (nameAtMost_iff.1 hbc))
    · rw [Bool.or_eq_true, nameAtMost_iff, nameAtMost_iff]
      exact String.le_total a.1 b.1
  have hlisted : p.toList.Pairwise fun a b => nameAtMost a b = true :=
    (List.pairwise_map.1 names).imp fun hlt =>
      nameAtMost_iff.2 (String.not_lt.1 (String.lt_asymm hlt))
  -- Two bindings of one name are one binding.
  have hdistinct : (p.toList.map (·.1)).Nodup := by
    refine names.imp fun {a b} hlt heq => ?_
    subst heq
    exact String.lt_irrefl a hlt
  refine hperm.eq_of_pairwise (fun a b ha hb hab hba => ?_) hsorted hlisted
  have hname : a.1 = b.1 := String.le_antisymm (nameAtMost_iff.1 hab) (nameAtMost_iff.1 hba)
  exact List.inj_on_of_nodup_map hdistinct (hperm.mem_iff.1 ha) hb hname

end Parameters
end ShaderFront
