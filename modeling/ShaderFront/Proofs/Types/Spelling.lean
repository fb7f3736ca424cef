import ShaderFront.Proofs.Analysis.TypeNames

/-!
# Types that are spelled as they are shown

A table of items spells a type if the name that the type is shown by means that very type. Whatever
has a name is spelled, and stays so when more is collected. So in a table of collected items all
types that it holds are spelled, and what is spelled there is closed: dimensions are in range and
structs are known, behind synonyms as well.
-/

namespace ShaderFront

namespace Ty

/-- A vector size or a matrix dimension. -/
def Dimension (n : UInt8) : Prop := 1 ≤ n ∧ n ≤ maxDimension

instance (n : UInt8) : Decidable (Dimension n) :=
  inferInstanceAs (Decidable (1 ≤ n ∧ n ≤ maxDimension))

theorem Dimension.toNat_le {n : UInt8} (h : Dimension n) : n.toNat ≤ 4 := h.2

theorem Dimension.mem {n : UInt8} (h : Dimension n) : n ∈ ([1, 2, 3, 4] : List UInt8) := by
  have hbounds : 1 ≤ n.toNat ∧ n.toNat ≤ 4 := h
  obtain hn | hn | hn | hn : n.toNat = 1 ∨ n.toNat = 2 ∨ n.toNat = 3 ∨ n.toNat = 4 := by omega
  all_goals simp [← UInt8.toNat_inj, hn]

theorem mem_builtIn_of_mem_numeric {k : ScalarKind} {ty : Ty} (h : ty ∈ numeric k) :
    ty ∈ builtIn :=
  List.mem_cons_of_mem _ (List.mem_cons_of_mem _ (List.mem_flatMap.2 ⟨k, k.mem_all, h⟩))

theorem scalar_mem_numeric (k : ScalarKind) : .scalar k ∈ numeric k := List.mem_cons_self

theorem vector_mem_numeric (k : ScalarKind) {n : UInt8} (h : Dimension n) :
    .vector k n ∈ numeric k :=
  List.mem_cons_of_mem _ (List.mem_flatMap.2 ⟨n, h.mem, List.mem_cons_self⟩)

theorem matrix_mem_numeric (k : ScalarKind) {r c : UInt8} (hr : Dimension r) (hc : Dimension c) :
    .matrix k r c ∈ numeric k :=
  List.mem_cons_of_mem _ (List.mem_flatMap.2
    ⟨r, hr.mem, List.mem_cons_of_mem _ (List.mem_map.2 ⟨c, hc.mem, rfl⟩)⟩)

end Ty

namespace ItemTable

open Ty

/-- Dimensions are in range and structs are known, behind synonyms as well. -/
def Closed (t : ItemTable) : Ty → Prop
  | .vector _ n => Dimension n
  | .matrix _ r c => Dimension r ∧ Dimension c
  | .struct name => (t.struct? name).isSome = true
  | .synonym _ target => t.Closed target
  | .void | .scalar _ | .sampler => True

instance decidableClosed (t : ItemTable) : (ty : Ty) → Decidable (t.Closed ty)
  | .vector _ n => inferInstanceAs (Decidable (Dimension n))
  | .matrix _ r c => inferInstanceAs (Decidable (Dimension r ∧ Dimension c))
  | .struct name => inferInstanceAs (Decidable ((t.struct? name).isSome = true))
  | .synonym _ target => decidableClosed t target
  | .void | .scalar _ | .sampler => .isTrue trivial

/-- Built-in types need no items. -/
theorem closed_builtIn : ∀ ty ∈ builtIn, ({} : ItemTable).Closed ty := by decide +kernel

/-- The name that a type is shown by means that type. -/
def Spells (t : ItemTable) (ty : Ty) : Prop := t.type? ty.display = some ty

instance (t : ItemTable) (ty : Ty) : Decidable (t.Spells ty) :=
  inferInstanceAs (Decidable (_ = _))

variable {t : ItemTable} {name : String} {ty : Ty}

/-- What a name can mean. -/
theorem type?_cases (h : t.type? name = some ty) :
    ofBuiltinName? name = some ty ∨ (ty = .struct name ∧ (t.struct? name).isSome = true) ∨
      ∃ target, (name, target) ∈ t.synonyms ∧ ty = .synonym name target := by
  unfold type? at h
  split at h
  · rename_i built hbuilt
    exact .inl (hbuilt.trans h)
  · split at h
    · rename_i hknown
      cases h
      exact .inr (.inl ⟨rfl, hknown⟩)
    · obtain ⟨target, htarget, rfl⟩ := Option.map_eq_some_iff.1 h
      obtain ⟨before, after, hsplit, -⟩ := List.lookup_eq_some_iff.1 htarget
      exact .inr (.inr ⟨target, hsplit ▸ List.mem_append_right _ List.mem_cons_self, rfl⟩)

/-- Built-in types are spelled by their names whatever the items are. -/
theorem spells_builtIn (h : ty ∈ builtIn) : t.Spells ty := by
  rw [Spells, type?, (ofBuiltinName?_builtIn ty h).1]

/-- **Whatever has a name is spelled.** -/
theorem spells_of_type? (h : t.type? name = some ty) : t.Spells ty := by
  rcases type?_cases h with hbuilt | ⟨rfl, -⟩ | ⟨target, -, rfl⟩
  · exact spells_builtIn (mem_builtIn_of_name hbuilt)
  · exact h
  · exact h

/-- What is shown by the name of a built-in type, and not of a struct or a synonym, is one. -/
theorem Spells.mem_builtIn (h : t.Spells ty) (struct : ∀ name, ty ≠ .struct name)
    (synonym : ∀ name target, ty ≠ .synonym name target) : ty ∈ builtIn := by
  rcases type?_cases h with hbuilt | ⟨hstruct, -⟩ | ⟨target, -, hsynonym⟩
  · exact mem_builtIn_of_name hbuilt
  · exact absurd hstruct (struct _)
  · exact absurd hsynonym (synonym _ target)

/-- A vector that can be spelled has one to four components. -/
theorem Spells.vector {k : ScalarKind} {n : UInt8} (h : t.Spells (.vector k n)) :
    Dimension n :=
  closed_builtIn _ (h.mem_builtIn nofun nofun)

theorem Spells.matrix {k : ScalarKind} {r c : UInt8} (h : t.Spells (.matrix k r c)) :
    Dimension r ∧ Dimension c :=
  closed_builtIn _ (h.mem_builtIn nofun nofun)

/-- A struct that can be spelled is defined. -/
theorem Spells.struct (h : t.Spells (.struct name)) : (t.struct? name).isSome = true := by
  rcases type?_cases h with hbuilt | ⟨-, hknown⟩ | ⟨target, -, hsynonym⟩
  · cases closed_builtIn _ (mem_builtIn_of_name hbuilt)
  · exact hknown
  · cases hsynonym

@[simp] theorem spells_scalar (k : ScalarKind) : t.Spells (.scalar k) :=
  spells_builtIn (mem_builtIn_of_mem_numeric (scalar_mem_numeric k))

@[simp] theorem spells_vector {k : ScalarKind} {n : UInt8} :
    t.Spells (.vector k n) ↔ Dimension n :=
  ⟨Spells.vector, fun h => spells_builtIn (mem_builtIn_of_mem_numeric (vector_mem_numeric k h))⟩

@[simp] theorem spells_matrix {k : ScalarKind} {r c : UInt8} :
    t.Spells (.matrix k r c) ↔ Dimension r ∧ Dimension c :=
  ⟨Spells.matrix, fun h =>
    spells_builtIn (mem_builtIn_of_mem_numeric (matrix_mem_numeric k h.1 h.2))⟩

/-! ## Collected items -/

/-- The types that a table of items holds. -/
inductive Holds (t : ItemTable) (ty : Ty) : Prop where
  | field {s : StructInfo} {name : String} (mem : s ∈ t.structs)
      (entry : (name, some ty) ∈ s.fields)
  | target {name : String} (mem : (name, ty) ∈ t.synonyms)
  | parameter {sig : FunctionSig} {name : String} (mem : sig ∈ t.functions)
      (entry : (name, some ty) ∈ sig.params)
  | result {sig : FunctionSig} (mem : sig ∈ t.functions) (returns : sig.returns = some ty)

/-- One of these fields or parameters is written with this name and with a type that means this. -/
def Gives (t : ItemTable) (fields : List Field) (name : String) (ty : Ty) : Prop :=
  ∃ f ∈ fields, f.name = name ∧ t.type? f.type.name = some ty

/-- A parameter has the type that its written type names. -/
theorem resolveParams_gives {params : List Field}
    (h : (name, some ty) ∈ (t.resolveParams params).value) : t.Gives params name ty := by
  rw [value_resolveParams] at h
  obtain ⟨p, hp, heq⟩ := List.mem_map.1 h
  exact ⟨p, hp, congrArg Prod.fst heq, congrArg Prod.snd heq⟩

/-- A field has the type that its written type names. -/
theorem resolveFields_gives {done : List (String × Option Ty)} {fields : List Field}
    (h : (name, some ty) ∈ (t.resolveFields done fields).value) :
    (name, some ty) ∈ done ∨ t.Gives fields name ty := by
  induction fields generalizing done with
  | nil => exact .inl h
  | cons f rest ih =>
    have hrest (hgives : t.Gives rest name ty) : t.Gives (f :: rest) name ty := by
      obtain ⟨g, hg, hmeans⟩ := hgives
      exact ⟨g, List.mem_cons_of_mem _ hg, hmeans⟩
    unfold resolveFields at h
    split at h
    · exact (ih h).imp_right hrest
    · rw [Reported.value_bind, value_resolve] at h
      rcases ih h with hmem | hgives
      · rcases List.mem_append.1 hmem with hold | hnew
        · exact .inl hold
        · have heq := List.mem_singleton.1 hnew
          exact .inr ⟨f, List.mem_cons_self, (congrArg Prod.fst heq).symm,
            (congrArg Prod.snd heq).symm⟩
      · exact .inr (hrest hgives)

/-- A type that is given has a name. -/
theorem Gives.named {fields : List Field} (h : t.Gives fields name ty) :
    ∃ n, t.type? n = some ty := by
  obtain ⟨f, -, -, hmeans⟩ := h
  exact ⟨f.type.name, hmeans⟩

/-- **What an item brings in was named by what is above it.** -/
theorem Holds.of_addItem {item : Item} (h : (t.addItem item).value.Holds ty) :
    t.Holds ty ∨ ∃ n, t.type? n = some ty := by
  cases item with
  | global => exact .inl h
  | function f =>
    simp only [addItem, addFunction] at h
    split at h
    · exact .inl h
    · cases h with
      | field mem entry => exact .inl (.field mem entry)
      | target mem => exact .inl (.target mem)
      | parameter mem entry =>
        rcases List.mem_append.1 mem with hold | hnew
        · exact .inl (.parameter hold entry)
        · cases List.mem_singleton.1 hnew
          exact .inr (resolveParams_gives entry).named
      | result mem returns =>
        rcases List.mem_append.1 mem with hold | hnew
        · exact .inl (.result hold returns)
        · cases List.mem_singleton.1 hnew
          exact .inr ⟨f.returns.name, (t.value_resolve f.returns).symm.trans returns⟩
  | struct s =>
    simp only [addItem, addStruct] at h
    split at h
    · exact .inl h
    · cases h with
      | field mem entry =>
        rcases List.mem_append.1 mem with hold | hnew
        · exact .inl (.field hold entry)
        · cases List.mem_singleton.1 hnew
          exact .inr ((resolveFields_gives entry).resolve_left List.not_mem_nil).named
      | target mem => exact .inl (.target mem)
      | parameter mem entry => exact .inl (.parameter mem entry)
      | result mem returns => exact .inl (.result mem returns)
  | typedef d =>
    simp only [addItem, addTypedef] at h
    split at h
    · exact .inl h
    · rw [Reported.value_bind, value_resolve] at h
      split at h
      · rename_i target htarget
        cases h with
        | field mem entry => exact .inl (.field mem entry)
        | target mem =>
          rcases List.mem_append.1 mem with hold | hnew
          · exact .inl (.target hold)
          · cases List.mem_singleton.1 hnew
            exact .inr ⟨d.target.name, htarget⟩
        | parameter mem entry => exact .inl (.parameter mem entry)
        | result mem returns => exact .inl (.result mem returns)
      · exact .inl h

/-- Whatever the table holds is spelled by it. -/
def SpellsAll (t : ItemTable) : Prop := ∀ ty, t.Holds ty → t.Spells ty

/-- **An item keeps all types of a table spelled.** What it adds is named by itself or by types
before it. -/
theorem SpellsAll.addItem (all : t.SpellsAll) (item : Item) :
    (t.addItem item).value.SpellsAll := by
  intro ty h
  rcases h.of_addItem with hold | ⟨n, hnamed⟩
  · exact type?_addItem (all ty hold) item
  · exact type?_addItem (spells_of_type? hnamed) item

theorem SpellsAll.addItems (all : t.SpellsAll) (items : List Item) :
    (t.addItems items).value.SpellsAll := by
  induction items generalizing t with
  | nil => exact all
  | cons item rest ih => exact ih (all.addItem item)

theorem spellsAll_empty : ({} : ItemTable).SpellsAll := by
  intro ty h
  cases h with
  | field mem | target mem | parameter mem | result mem => cases mem

/-- **Collected items spell whatever they hold.** -/
theorem spellsAll_collect (u : ShaderUnit) : (collect u).value.SpellsAll :=
  spellsAll_empty.addItems u.items

/-! ## What is spelled is closed -/

/-- What a synonym that is spelled stands for. -/
theorem SpellsAll.target (all : t.SpellsAll) {target : Ty} (h : t.Spells (.synonym name target)) :
    t.Spells target := by
  rcases type?_cases h with hbuilt | ⟨hstruct, -⟩ | ⟨other, hmem, hsynonym⟩
  · have hplain := (ofBuiltinName?_display hbuilt).2
    exact absurd hplain (resolve_ne_synonym _ _ _)
  · cases hstruct
  · cases hsynonym
    exact all target (.target hmem)

/-- What a synonym stands for can be spelled. -/
theorem SpellsAll.resolve (all : t.SpellsAll) (h : t.Spells ty) : t.Spells ty.resolve := by
  induction ty with
  | synonym name target ih => exact ih (all.target h)
  | _ => exact h

theorem SpellsAll.closed (all : t.SpellsAll) (h : t.Spells ty) : t.Closed ty := by
  induction ty with
  | vector => exact h.vector
  | matrix => exact h.matrix
  | struct => exact h.struct
  | synonym name target ih => exact ih (all.target h)
  | void | scalar | sampler => trivial

/-- A type that is closed has few components. -/
theorem Closed.componentCount_le (h : t.Closed ty) : ty.componentCount ≤ 16 := by
  induction ty with
  | vector k n => exact Nat.le_trans (Dimension.toNat_le h) (by decide)
  | matrix k r c => exact Nat.mul_le_mul (Dimension.toNat_le h.1) (Dimension.toNat_le h.2)
  | synonym name target ih => exact ih h
  | scalar => exact Nat.le_of_ble_eq_true rfl
  | void | sampler | struct => exact Nat.zero_le _

end ItemTable
end ShaderFront
