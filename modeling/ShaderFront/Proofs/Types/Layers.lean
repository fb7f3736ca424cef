import Mathlib.Order.WellFounded
import ShaderFront.Proofs.Types.Spelling

/-!
# Structs lie in layers

A struct is collected after everything that its fields can name, and its own name comes to mean
something only when its fields are done. So what an item adds to the table of items holds only what
was there before, and no struct lies in itself: not directly, not by way of other structs, and not
behind synonyms. Synonyms end, each in a built-in type or in a struct of the table.
-/

namespace ShaderFront
namespace ItemTable

/-- The second struct has a field whose type is the first one, behind any synonyms. -/
def Within (t : ItemTable) (inner outer : String) : Prop :=
  ∃ s ∈ t.structs, s.name = outer ∧
    ∃ field ty, (field, some ty) ∈ s.fields ∧ ty.resolve = .struct inner

/-- A type whose synonyms, each of which the table knows under its name, lead to a built-in type or
to a struct of the table. -/
inductive Ends (t : ItemTable) : Ty → Prop where
  | builtIn {name : String} {ty : Ty} (named : Ty.ofBuiltinName? name = some ty) : Ends t ty
  | struct {name : String} (known : (t.struct? name).isSome = true) : Ends t (.struct name)
  | synonym {name : String} {target : Ty} (known : t.type? name = some (.synonym name target))
      (rest : Ends t target) : Ends t (.synonym name target)

variable {t : ItemTable} {inner outer : String}

/-- A name that means nothing is that of no struct. -/
theorem struct?_eq_none {name : String} (h : ¬(t.type? name).isSome = true) :
    t.struct? name = none := by
  cases hstruct : t.struct? name with
  | none => rfl
  | some s =>
    refine absurd ?_ h
    unfold type?
    split
    · rfl
    · rw [hstruct]
      rfl

/-- Where whatever is held is spelled, the structs that fields have are known. -/
theorem Within.known (all : t.SpellsAll) (h : t.Within inner outer) :
    (t.struct? inner).isSome = true := by
  obtain ⟨s, hs, -, field, ty, hentry, hresolve⟩ := h
  have hspells : t.Spells ty.resolve := all.resolve (all ty (.field hs hentry))
  exact (hresolve ▸ hspells).struct

/-- **An item puts structs that are known into one that was not.** -/
theorem Within.of_addItem (all : t.SpellsAll) {item : Item}
    (h : (t.addItem item).value.Within inner outer) :
    t.Within inner outer ∨ (t.struct? outer = none ∧ (t.struct? inner).isSome = true) := by
  cases item with
  | global => exact .inl h
  | function f =>
    simp only [addItem, addFunction] at h
    split at h
    · exact .inl h
    · exact .inl h
  | typedef d =>
    simp only [addItem, addTypedef] at h
    split at h
    · exact .inl h
    · rw [Reported.value_bind] at h
      split at h
      · exact .inl h
      · exact .inl h
  | struct s =>
    simp only [addItem, addStruct] at h
    split at h
    · exact .inl h
    · rename_i hfree
      obtain ⟨info, hinfo, rfl, field, ty, hentry, hresolve⟩ := h
      rcases List.mem_append.1 hinfo with hold | hnew
      · exact .inl ⟨info, hold, rfl, field, ty, hentry, hresolve⟩
      · cases List.mem_singleton.1 hnew
        -- The fields were resolved by the table that does not have the struct yet.
        obtain ⟨written, hnamed⟩ :=
          ((resolveFields_gives hentry).resolve_left List.not_mem_nil).named
        have hspells : t.Spells ty.resolve := all.resolve (spells_of_type? hnamed)
        exact .inr ⟨struct?_eq_none hfree, (hresolve ▸ hspells).struct⟩

/-- What lies in a struct that is known stays accessible when more is collected: nothing is added
to it, nor to any struct in it. -/
theorem acc_addItem (all : t.SpellsAll) (item : Item) {name : String} (h : Acc t.Within name)
    (known : (t.struct? name).isSome = true) : Acc (t.addItem item).value.Within name := by
  induction h with
  | intro name _ ih =>
    refine ⟨name, fun inner hinner => ?_⟩
    rcases hinner.of_addItem all with hold | ⟨hfresh, -⟩
    · exact ih inner hold (hold.known all)
    · rw [hfresh] at known
      cases known

theorem wellFounded_addItem (all : t.SpellsAll) (h : WellFounded t.Within) (item : Item) :
    WellFounded (t.addItem item).value.Within := by
  refine ⟨fun outer => ⟨outer, fun inner hinner => ?_⟩⟩
  have known : (t.struct? inner).isSome = true := by
    rcases hinner.of_addItem all with hold | ⟨-, hknown⟩
    · exact hold.known all
    · exact hknown
  exact acc_addItem all item (h.apply inner) known

theorem wellFounded_addItems (all : t.SpellsAll) (h : WellFounded t.Within) (items : List Item) :
    WellFounded (t.addItems items).value.Within := by
  induction items generalizing t with
  | nil => exact h
  | cons item rest ih => exact ih (all.addItem item) (wellFounded_addItem all h item)

/-- Where whatever is held is spelled, what is spelled ends. -/
theorem SpellsAll.ends (all : t.SpellsAll) {ty : Ty} (h : t.Spells ty) : t.Ends ty := by
  induction ty with
  | synonym name target ih => exact .synonym h (ih (all.target h))
  | _ =>
    rcases type?_cases h with hbuilt | ⟨hstruct, hknown⟩ | ⟨target, -, hsynonym⟩
    · exact .builtIn hbuilt
    · exact hstruct ▸ .struct hknown
    · cases hsynonym

/-- **No struct lies in itself.** In the table of items that is collected from a unit, whatever
items it has and in whatever order, going from structs into structs that lie in them comes to an
end; so none lies in itself, however indirectly. All structs that lie in others are known, and the
synonyms of every type that the table holds or has a name for end in a built-in type or in a struct
that is known. -/
theorem collected_layers (u : ShaderUnit) :
    WellFounded (collect u).value.Within ∧
    (∀ name, ¬Relation.TransGen (collect u).value.Within name name) ∧
    (∀ inner outer, (collect u).value.Within inner outer →
      ((collect u).value.struct? inner).isSome = true) ∧
    (∀ ty, (collect u).value.Holds ty → (collect u).value.Ends ty) ∧
    ∀ name ty, (collect u).value.type? name = some ty → (collect u).value.Ends ty := by
  have all := spellsAll_collect u
  have hstart : WellFounded ({} : ItemTable).Within :=
    ⟨fun outer => ⟨outer, fun inner ⟨_, mem, _⟩ => nomatch mem⟩⟩
  have hwf : WellFounded (collect u).value.Within :=
    wellFounded_addItems spellsAll_empty hstart u.items
  refine ⟨hwf, fun name => ?_, fun inner outer h => h.known all, fun ty h => ?_,
    fun name ty h => ?_⟩
  · exact hwf.transGen.irrefl.irrefl name
  · exact all.ends (all ty h)
  · exact all.ends (spells_of_type? h)

/-- A struct, a synonym of it, a struct with a field of the synonym, and one that names itself. -/
def layered : ShaderUnit where
  items :=
    [.struct ⟨"Light", [⟨"power", ⟨"float", .point 0 1 16⟩, .point 0 1 22⟩], .point 0 1 1⟩,
      .typedef { name := "Lamp", target := ⟨"Light", .point 0 2 9⟩, span := .point 0 2 1 },
      .struct ⟨"Room", [⟨"lamp", ⟨"Lamp", .point 0 3 15⟩, .point 0 3 20⟩], .point 0 3 1⟩,
      .struct ⟨"List", [⟨"rest", ⟨"List", .point 0 4 15⟩, .point 0 4 20⟩], .point 0 4 1⟩]

/-- One struct lies in another behind a synonym, and so the other one does not lie in it. -/
theorem collected_layers_layered :
    (collect layered).value.Within "Light" "Room" ∧
      ¬(collect layered).value.Within "Room" "Light" ∧
      ((collect layered).value.struct? "List").isSome = true := by
  have hroom : ⟨"Room", [("lamp", some (.synonym "Lamp" (.struct "Light")))], .point 0 3 1⟩ ∈
      (collect layered).value.structs := by decide +kernel
  have hwithin : (collect layered).value.Within "Light" "Room" :=
    ⟨_, hroom, rfl, "lamp", _, List.mem_cons_self, rfl⟩
  refine ⟨hwithin, fun hback => ?_, by decide +kernel⟩
  exact (collected_layers layered).2.1 "Light" (.tail (.single hwithin) hback)

end ItemTable
end ShaderFront
