import ShaderFront.Analysis.Items

/-!
# Names that types are shown by

A type can be written by the name it is shown by. For a built-in type that is read off the name,
and for what a synonym stands for it is an invariant of collected items: whatever a name means when
it is first collected, it means from there on, and the types behind synonyms were named before.
-/

namespace ShaderFront

namespace Ty

/-- The numeric types over a kind. -/
def numeric (k : ScalarKind) : List Ty :=
  .scalar k :: [1, 2, 3, 4].flatMap fun n => .vector k n :: [1, 2, 3, 4].map (.matrix k n)

/-- The types that have built-in names. -/
def builtIn : List Ty := .void :: .sampler :: ScalarKind.all.flatMap numeric

theorem mem_of_readDimension? {cs : List Char} {n : UInt8} (h : readDimension? cs = some n) :
    n ∈ ([1, 2, 3, 4] : List UInt8) := by
  unfold readDimension? at h
  obtain ⟨m, hm, rfl⟩ := Option.map_eq_some_iff.1 h
  obtain ⟨-, hbounds⟩ := Option.filter_eq_some_iff.1 hm
  rw [Bool.and_eq_true, decide_eq_true_eq, decide_eq_true_eq] at hbounds
  have hlargest : maxDimension.toNat = 4 := rfl
  obtain rfl | rfl | rfl | rfl : m = 1 ∨ m = 2 ∨ m = 3 ∨ m = 4 := by omega
  all_goals decide

theorem mem_numeric_of_ofShape? {k : ScalarKind} {dims : List Char} {ty : Ty}
    (h : ofShape? k dims = some ty) : ty ∈ numeric k := by
  unfold ofShape? at h
  split at h
  · cases h
    exact List.mem_cons_self
  refine List.mem_cons_of_mem _ (List.mem_flatMap.2 ?_)
  split at h
  · obtain ⟨rows, hrows, h⟩ := Option.bind_eq_some_iff.1 h
    obtain ⟨columns, hcolumns, h⟩ := Option.bind_eq_some_iff.1 h
    cases h
    exact ⟨rows, mem_of_readDimension? hrows,
      List.mem_cons_of_mem _ (List.mem_map.2 ⟨columns, mem_of_readDimension? hcolumns, rfl⟩)⟩
  · obtain ⟨n, hn, rfl⟩ := Option.map_eq_some_iff.1 h
    exact ⟨n, mem_of_readDimension? hn, List.mem_cons_self⟩

theorem mem_builtIn_of_name {name : String} {ty : Ty} (h : ofBuiltinName? name = some ty) :
    ty ∈ builtIn := by
  unfold ofBuiltinName? at h
  split at h
  · cases h
    exact List.mem_cons_self
  split at h
  · cases h
    exact List.mem_cons_of_mem _ List.mem_cons_self
  · obtain ⟨k, -, h⟩ := Option.bind_eq_some_iff.1 h
    exact List.mem_cons_of_mem _ (List.mem_cons_of_mem _
      (List.mem_flatMap.2 ⟨k, k.mem_all, mem_numeric_of_ofShape? h⟩))

theorem ofBuiltinName?_builtIn : ∀ ty ∈ builtIn,
    ofBuiltinName? ty.display = some ty ∧ ty.resolve = ty := by
  decide +kernel

/-- A built-in type can be written by the name it is shown by, and it is no synonym. -/
theorem ofBuiltinName?_display {name : String} {ty : Ty} (h : ofBuiltinName? name = some ty) :
    ofBuiltinName? ty.display = some ty ∧ ty.resolve = ty :=
  ofBuiltinName?_builtIn ty (mem_builtIn_of_name h)

end Ty

namespace ItemTable

variable {t : ItemTable} {name : String} {ty : Ty}

@[simp] theorem value_resolve (t : ItemTable) (written : WrittenType) :
    (t.resolve written).value = t.type? written.name := Reported.value_orReject ..

theorem value_resolveParams (t : ItemTable) (params : List Field) :
    (t.resolveParams params).value = params.map fun p => (p.name, t.type? p.type.name) := by
  induction params with
  | nil => rfl
  | cons p rest ih => simp [resolveParams, ih]

/-- What a name means it means still when more is collected. -/
theorem type?_addItem (h : t.type? name = some ty) (item : Item) :
    (t.addItem item).value.type? name = some ty := by
  have hne {other : String} (hfree : ¬(t.type? other).isSome = true) : other ≠ name := by
    rintro rfl
    exact hfree (h ▸ rfl)
  cases item with
  | global => exact h
  | function f =>
    simp only [addItem, addFunction]
    split <;> exact h
  | struct s =>
    simp only [addItem, addStruct]
    split
    · exact h
    · rename_i hfree
      have hother : (s.name == name) = false := beq_false_of_ne (hne hfree)
      simpa [type?, struct?, List.find?_append, hother] using h
  | typedef d =>
    simp only [addItem, addTypedef]
    split
    · exact h
    · rename_i hfree
      have hother : (name == d.name) = false := beq_false_of_ne (hne hfree).symm
      rw [Reported.value_bind]
      split
      · simpa [type?, struct?, List.lookup_append, List.lookup_cons, hother] using h
      · exact h

/-- The type behind the synonyms is named by the name it is shown by. -/
def Names (t : ItemTable) (ty : Ty) : Prop := t.type? ty.resolve.display = some ty.resolve

/-- Whatever synonyms stand for has a name. -/
def NamesAll (t : ItemTable) : Prop := ∀ d ∈ t.synonyms, t.Names d.2

/-- Whatever has a name can be written without synonyms. -/
theorem NamesAll.names (ht : t.NamesAll) (h : t.type? name = some ty) : t.Names ty := by
  have hname := h
  unfold type? at h
  split at h
  · rename_i built hbuilt
    cases h
    obtain ⟨hdisplay, hresolve⟩ := Ty.ofBuiltinName?_display hbuilt
    rw [Names, hresolve, type?, hdisplay]
  · split at h
    · cases h
      exact hname
    · obtain ⟨target, htarget, rfl⟩ := Option.map_eq_some_iff.1 h
      obtain ⟨before, after, hsplit, -⟩ := List.lookup_eq_some_iff.1 htarget
      exact ht (name, target) (hsplit ▸ List.mem_append_right _ List.mem_cons_self)

theorem NamesAll.addItem (ht : t.NamesAll) (item : Item) : (t.addItem item).value.NamesAll := by
  have hold : ∀ d ∈ t.synonyms, (t.addItem item).value.Names d.2 :=
    fun d hd => type?_addItem (ht d hd) item
  cases item with
  | global => exact ht
  | function f =>
    simp only [ItemTable.addItem, addFunction] at hold ⊢
    split <;> exact ht
  | struct s =>
    simp only [ItemTable.addItem, addStruct] at hold ⊢
    split
    · exact ht
    · rename_i hfree
      rw [if_neg hfree] at hold
      exact hold
  | typedef d =>
    have hnew : ∀ target, t.type? d.target.name = some target →
        (t.addItem (.typedef d)).value.Names target :=
      fun target htarget => type?_addItem (ht.names htarget) _
    simp only [ItemTable.addItem, addTypedef] at hold hnew ⊢
    split
    · exact ht
    · rename_i hfree
      rw [if_neg hfree, Reported.value_bind] at hold hnew
      rw [value_resolve] at hold hnew
      rw [Reported.value_bind, value_resolve]
      split
      · rename_i target htarget
        rw [htarget] at hold hnew
        intro entry hentry
        rcases List.mem_append.1 hentry with hmem | hmem
        · exact hold entry hmem
        · cases List.mem_singleton.1 hmem
          exact hnew target rfl
      · exact ht

theorem NamesAll.addItems (ht : t.NamesAll) (items : List Item) :
    (t.addItems items).value.NamesAll := by
  induction items generalizing t with
  | nil => exact ht
  | cons item rest ih => exact ih (ht.addItem item)

/-- **What is behind a synonym can be written.** In a table of collected items whatever is named
has, behind its synonyms, a type that is named by the name it is shown by. -/
theorem type?_display {items : List Item}
    (h : (ItemTable.addItems {} items).value.type? name = some ty) :
    (ItemTable.addItems {} items).value.type? ty.resolve.display = some ty.resolve :=
  (NamesAll.addItems (t := {}) nofun items).names h

end ItemTable
end ShaderFront
