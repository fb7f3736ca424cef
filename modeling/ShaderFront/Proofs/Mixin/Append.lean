import ShaderFront.Mixin.Tree

/-!
# Appending trees

`t.append extra` is `t` with all that `extra` holds written after it: its classes and definitions
follow those of `t`, its array slots are appended to those of `t` name by name, and its single slots
take the place of those of `t`.

An `Edit` is one change of a tree that does not look at it. The main statement is `append_apply`:
editing the second tree and appending comes to the same as appending and then editing.
-/

namespace ShaderFront.Tree

/-- Enters what the second list holds into the first one, name by name. -/
def merge {α β : Type} (enter : β → Option α → α) (base : List (String × α)) :
    List (String × β) → List (String × α)
  | [] => base
  | (name, b) :: rest => merge enter (alter name (enter b) base) rest

/-- The second tree on top of the first: its single slots replace those of the first one, and
everything else comes after what is there. -/
def append (t extra : Tree) : Tree where
  classes := t.classes ++ extra.classes
  defines := t.defines ++ extra.defines
  slots := merge (fun child _ => child) t.slots extra.slots
  arrays := merge (fun items before => before.getD [] ++ items) t.arrays extra.arrays

/-- Each name comes once, and names are in order. -/
def Ascending {α : Type} (entries : List (String × α)) : Prop :=
  entries.Pairwise fun a b => a.1 < b.1

/-- Slots are kept in the order of their names. -/
structure Ordered (t : Tree) : Prop where
  slots : Ascending t.slots
  arrays : Ascending t.arrays

end Tree

/-- One change of a tree that does not look at it. -/
inductive Edit where
  | addClass (c : ClassRef)
  | addDefine (name value : String)
  | setSlot (name : String) (child : Tree)
  | pushItem (name : String) (child : Tree)

/-- What an edit does to a tree. -/
def Edit.apply : Edit → Tree → Tree
  | .addClass c, t => t.addClass c
  | .addDefine name value, t => t.addDefine name value
  | .setSlot name child, t => t.setSlot name child
  | .pushItem name child, t => t.pushItem name child

namespace Tree

/-! ## Altering the value of a name -/

section Alter

variable {α β : Type}

theorem lt_of_ne_of_not_lt {a b : String} (hne : a ≠ b) (hlt : ¬ b < a) : a < b := by
  by_cases h : a < b
  · exact h
  · exact absurd (String.le_antisymm (String.not_lt.1 hlt) (String.not_lt.1 h)) hne

theorem alter_alter_self (name : String) (f g : Option α → α) (entries : List (String × α)) :
    alter name f (alter name g entries) = alter name (fun a => f (some (g a))) entries := by
  induction entries with
  | nil => simp [alter]
  | cons entry rest ih =>
    obtain ⟨n, a⟩ := entry
    by_cases hn : n = name
    · simp [alter, hn]
    · by_cases hb : name < n
      · simp [alter, hn, hb]
      · simp [alter, hn, hb, ih]

theorem alter_comm_of_lt {m n : String} (h : m < n) (f g : Option α → α)
    (entries : List (String × α)) :
    alter m f (alter n g entries) = alter n g (alter m f entries) := by
  have hmn : m ≠ n := fun he => String.lt_irrefl n (he ▸ h)
  have hnm : ¬ n < m := String.lt_asymm h
  induction entries with
  | nil => simp [alter, h, hnm, hmn, hmn.symm]
  | cons entry rest ih =>
    obtain ⟨k, a⟩ := entry
    by_cases hkm : k = m
    · subst hkm
      simp [alter, hmn, hnm]
    · by_cases hb : m < k
      · by_cases hkn : k = n
        · simp [alter, hkn, h, hnm, hmn, hmn.symm]
        · by_cases hn : n < k
          · simp [alter, hkm, hkn, hb, hn, h, hnm, hmn, hmn.symm]
          · simp [alter, hkm, hkn, hb, hn, hnm, hmn]
      · have hkm' : k < m := lt_of_ne_of_not_lt hkm hb
        have hkn : k ≠ n := fun he => hnm (he ▸ hkm')
        have hn : ¬ n < k := String.lt_asymm (String.lt_trans hkm' h)
        simp [alter, hkm, hkn, hb, hn, ih]

/-- Changes of two names commute. -/
theorem alter_comm {m n : String} (hmn : m ≠ n) (f g : Option α → α)
    (entries : List (String × α)) :
    alter m f (alter n g entries) = alter n g (alter m f entries) := by
  by_cases h : m < n
  · exact alter_comm_of_lt h f g entries
  · exact (alter_comm_of_lt (lt_of_ne_of_not_lt hmn.symm h) g f entries).symm

/-- An entry of an altered list is the altered one, or it was there before. -/
theorem mem_alter {name : String} {f : Option α → α} {entries : List (String × α)}
    {entry : String × α} (h : entry ∈ alter name f entries) :
    (∃ old, entry = (name, f old)) ∨ entry ∈ entries := by
  induction entries with
  | nil => exact .inl ⟨none, List.mem_singleton.1 h⟩
  | cons head rest ih =>
    obtain ⟨n, a⟩ := head
    unfold alter at h
    split at h
    · rename_i hn
      subst hn
      rcases List.mem_cons.1 h with rfl | hmem
      · exact .inl ⟨some a, rfl⟩
      · exact .inr (List.mem_cons_of_mem _ hmem)
    · split at h
      · rcases List.mem_cons.1 h with rfl | hmem
        · exact .inl ⟨none, rfl⟩
        · exact .inr hmem
      · rcases List.mem_cons.1 h with rfl | hmem
        · exact .inr List.mem_cons_self
        · exact (ih hmem).imp_right (List.mem_cons_of_mem _)

/-- A change keeps the order of names. -/
theorem ascending_alter (name : String) (f : Option α → α) {entries : List (String × α)}
    (h : Ascending entries) : Ascending (alter name f entries) := by
  induction entries with
  | nil => simp [alter, Ascending]
  | cons entry rest ih =>
    obtain ⟨n, a⟩ := entry
    obtain ⟨hhead, hrest⟩ := List.pairwise_cons.1 h
    unfold alter
    split
    · exact List.pairwise_cons.2 ⟨hhead, hrest⟩
    · rename_i hn
      split
      · rename_i hb
        refine List.pairwise_cons.2 ⟨fun other hother => ?_, h⟩
        rcases List.mem_cons.1 hother with rfl | hmem
        · exact hb
        · exact String.lt_trans hb (hhead other hmem)
      · rename_i hb
        refine List.pairwise_cons.2 ⟨fun other hother => ?_, ih hrest⟩
        rcases mem_alter hother with ⟨old, rfl⟩ | hmem
        · exact lt_of_ne_of_not_lt hn hb
        · exact hhead other hmem

end Alter

/-! ## Merging two lists of named values -/

section Merge

variable {α β : Type} {enter : β → Option α → α}

theorem merge_alter_of_notMem {name : String} (f : Option α → α) (base : List (String × α))
    {entries : List (String × β)} (h : ∀ entry ∈ entries, entry.1 ≠ name) :
    merge enter (alter name f base) entries = alter name f (merge enter base entries) := by
  induction entries generalizing base with
  | nil => rfl
  | cons entry rest ih =>
    obtain ⟨n, b⟩ := entry
    have hn : n ≠ name := h (n, b) List.mem_cons_self
    have hrest : ∀ entry ∈ rest, entry.1 ≠ name := fun e he => h e (List.mem_cons_of_mem _ he)
    simp only [merge]
    rw [alter_comm hn, ih _ hrest]

/-- A change of the second list is a change of the result: `g` does to an entered value what `f`
does to the value before it is entered. -/
theorem merge_alter (enter : β → Option α → α) (name : String) {f : Option β → β}
    {g : Option α → α}
    (hnone : ∀ a, enter (f none) a = g a)
    (hsome : ∀ b a, enter (f (some b)) a = g (some (enter b a)))
    (base : List (String × α)) {entries : List (String × β)} (h : Ascending entries) :
    merge enter base (alter name f entries) = alter name g (merge enter base entries) := by
  have hnew : enter (f none) = g := funext hnone
  induction entries generalizing base with
  | nil => simp [alter, merge, hnew]
  | cons entry rest ih =>
    obtain ⟨n, b⟩ := entry
    obtain ⟨hhead, hrest⟩ := List.pairwise_cons.1 h
    rw [alter]
    split
    · rename_i hn
      subst hn
      have hmem : ∀ entry ∈ rest, entry.1 ≠ n := fun other hother he =>
        String.lt_irrefl n (by simpa [he] using hhead other hother)
      have hold : enter (f (some b)) = fun a => g (some (enter b a)) := funext (hsome b)
      simp only [merge]
      rw [← merge_alter_of_notMem g _ hmem, alter_alter_self, hold]
    · rename_i hn
      split
      · rename_i hb
        have hmem : ∀ entry ∈ (n, b) :: rest, entry.1 ≠ name := by
          intro other hother he
          rcases List.mem_cons.1 hother with rfl | hmem
          · exact hn he
          · exact String.lt_asymm hb (by simpa [he] using hhead other hmem)
        rw [← merge_alter_of_notMem g base hmem, ← hnew]
        rfl
      · simp only [merge]
        exact ih _ hrest

theorem lookup_alter_self (name : String) (f : Option α → α) {entries : List (String × α)}
    (h : Ascending entries) :
    (alter name f entries).lookup name = some (f (entries.lookup name)) := by
  induction entries with
  | nil => simp [alter]
  | cons entry rest ih =>
    obtain ⟨n, a⟩ := entry
    obtain ⟨hhead, hrest⟩ := List.pairwise_cons.1 h
    rw [alter]
    split
    · rename_i hn
      simp [hn]
    · rename_i hn
      have hne : (name == n) = false := by simpa using fun he => hn he.symm
      split
      · rename_i hb
        have hnone : rest.lookup name = none := by
          refine List.lookup_eq_none_iff.2 fun other hother => ?_
          have hlt : name < other.1 := String.lt_trans hb (hhead other hother)
          simpa using fun he : name = other.1 => String.lt_irrefl name (he ▸ hlt)
        simp [List.lookup_cons, hne, hnone]
      · simp [List.lookup_cons, hne, ih hrest]

/-- A name of the second list is entered on top of what the first one has. -/
theorem lookup_merge (name : String) {base : List (String × α)} (hbase : Ascending base)
    {entries : List (String × β)} (h : Ascending entries) :
    (merge enter base entries).lookup name =
      match entries.lookup name with
      | some b => some (enter b (base.lookup name))
      | none => base.lookup name := by
  induction entries generalizing base with
  | nil => rfl
  | cons entry rest ih =>
    obtain ⟨n, b⟩ := entry
    obtain ⟨hhead, hrest⟩ := List.pairwise_cons.1 h
    rw [merge, ih (ascending_alter n _ hbase) hrest]
    by_cases hn : name = n
    · subst hn
      have hnone : rest.lookup name = none := by
        refine List.lookup_eq_none_iff.2 fun other hother => ?_
        simpa using fun he : name = other.1 => String.lt_irrefl name (he ▸ hhead other hother)
      simp [hnone, lookup_alter_self name _ hbase]
    · have hne : (name == n) = false := by simpa using hn
      simp [List.lookup_cons, hne, lookup_alter_ne n name _ hn]

end Merge

/-! ## Appending -/

theorem ordered_empty : Ordered empty := ⟨List.Pairwise.nil, List.Pairwise.nil⟩

/-- Edits keep slots in order. -/
theorem Ordered.apply {t : Tree} (h : t.Ordered) (e : Edit) : (e.apply t).Ordered := by
  cases e with
  | addClass c => exact ⟨h.slots, h.arrays⟩
  | addDefine name value => exact ⟨h.slots, h.arrays⟩
  | setSlot name child => exact ⟨ascending_alter name _ h.slots, h.arrays⟩
  | pushItem name child => exact ⟨h.slots, ascending_alter name _ h.arrays⟩

/-- Nothing is appended by an empty tree. -/
theorem append_empty (t : Tree) : t.append empty = t := by
  obtain ⟨classes, defines, slots, arrays⟩ := t
  simp [append, empty, merge]

/-- Single slots of the second tree take the place of those of the first. -/
theorem slot?_append {t extra : Tree} (ht : t.Ordered) (h : extra.Ordered) (name : String) :
    (t.append extra).slot? name = (extra.slot? name).or (t.slot? name) := by
  simp only [slot?, append, lookup_merge name ht.slots h.slots]
  cases extra.slots.lookup name <;> rfl

/-- Array slots of the second tree follow those of the first. -/
theorem array?_append {t extra : Tree} (ht : t.Ordered) (h : extra.Ordered) (name : String) :
    (t.append extra).array? name =
      match extra.array? name with
      | some items => some ((t.array? name).getD [] ++ items)
      | none => t.array? name := by
  simp only [array?, append, lookup_merge name ht.arrays h.arrays]
  cases extra.arrays.lookup name <;> rfl

/-- **Edits commute with appending.** -/
theorem append_apply (t : Tree) {extra : Tree} (h : extra.Ordered) (e : Edit) :
    t.append (e.apply extra) = e.apply (t.append extra) := by
  cases e with
  | addClass c => simp [Edit.apply, addClass, append]
  | addDefine name value => simp [Edit.apply, addDefine, append]
  | setSlot name child =>
    have hslots := merge_alter (fun child _ => child) name (f := fun _ => child)
      (g := fun _ => child) (fun _ => rfl) (fun _ _ => rfl) t.slots h.slots
    simp [Edit.apply, setSlot, append, hslots]
  | pushItem name child =>
    have harrays := merge_alter (fun items before => before.getD [] ++ items) name
      (f := fun items => items.getD [] ++ [child]) (g := fun items => items.getD [] ++ [child])
      (fun _ => by simp) (fun _ _ => by simp) t.arrays h.arrays
    simp [Edit.apply, pushItem, append, harrays]

end Tree
end ShaderFront
