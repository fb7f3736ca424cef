import ShaderFront.Proofs.Analysis.Assembly
import ShaderFront.Proofs.Analysis.Lookups

/-!
# Bodies are checked independently

The analysis of a forest is put together from the checks of its items, each by itself, so what it
says of one item depends on what was collected, on the globals above the item, on the item and on
the nodes below it. Hence a body may be edited, and adjacent functions may change places, without
an effect on anything else but the order of what is reported.
-/

namespace ShaderFront

open Transformer Reported Relation

/-! ## What an item has in sight -/

/-- What a global declares. -/
def Item.declared? : Item → Option (String × WrittenType × Span)
  | .global d => some (d.name, d.type, d.span)
  | .function _ | .struct _ | .typedef _ => none

/-- What the globals above an item declare. -/
def ShaderUnit.globalsAbove (u : ShaderUnit) (i : Nat) : List (String × WrittenType × Span) :=
  (u.items.take i).filterMap Item.declared?

/-- Two units hold an item, over the same nodes. Where they hold it the same globals are in scope,
and under each name the same item was collected. -/
structure ShaderUnit.SameSight (u u' : ShaderUnit) (i i' : Nat) (item : Item) : Prop where
  get : u.items[i]? = some item
  get' : u'.items[i']? = some item
  table : (ItemTable.collect u).value.Agree (ItemTable.collect u').value
  globals : u'.globalsAbove i' = u.globalsAbove i
  nodes : u.arena.AgreesAt u'.arena (u.arena.below item.children)

namespace Rules

variable {r r' : Rules}

/-- The place past a global. -/
def pastGlobal (r : Rules) (p : Place) (global : String × WrittenType × Span) : Place :=
  (p.declare global.1 (r.declaredType global.1 global.2.1).value global.2.2).value

/-- Past items the globals among them are declared. -/
theorem foldl_past (r : Rules) (p : Place) (items : List Item) :
    items.foldl r.past p = (items.filterMap Item.declared?).foldl r.pastGlobal p := by
  induction items generalizing p with
  | nil => rfl
  | cons item rest ih =>
    rw [List.foldl_cons, ih]
    cases item <;> rfl

theorem Agree.past (h : r.Agree r') : r'.past = r.past := by
  funext p item
  cases item with
  | global d => simp only [Rules.past, h.declaredType]
  | function | struct | typedef => rfl

theorem Agree.check (h : r.Agree r') (mode : TransformMode) (a : Arena) (p : Place)
    (item : Item) : r'.check mode a p item = r.check mode a p item := by
  rw [Rules.check, h.transformer, Rules.check]

theorem Agree.checks (h : r.Agree r') (mode : TransformMode) (a : Arena) (p : Place)
    (items : List Item) : r'.checks mode a p items = r.checks mode a p items := by
  induction items generalizing p with
  | nil => rfl
  | cons item rest ih => simp only [Rules.checks, h.check, h.past, ih]

end Rules

/-! ## What is said of an item -/

/-- An analysis of a unit, with the checks it is put together from. -/
structure ShaderUnit.Checked (u : ShaderUnit) (config : AnalysisConfig) (r : Analysis)
    (checks : List (Arena × Analyzer)) : Prop where
  ended : analyze u config = .ok r
  each : u.checks config = .ok checks
  made : r.MadeOf u checks

/-- Two analyses say the same of an item: its block of findings is the same, and at some expressions
are the same types and the same nodes. -/
structure Analysis.SameAt (r r' : Analysis) (checks checks' : List (Arena × Analyzer)) (i i' : Nat)
    (nodes : Set ExprId) : Prop where
  block : ∃ c c', checks[i]? = some c ∧ checks'[i']? = some c' ∧ c'.2.findings = c.2.findings
  types : ∀ id ∈ nodes, r'.types.get? id = r.types.get? id
  exprs : ∀ id ∈ nodes, r'.unit.arena.expr? id = r.unit.arena.expr? id

/-- The types and the nodes of an item are those of its check. -/
theorem Analysis.MadeOf.covers {r : Analysis} {u : ShaderUnit} {checks : List (Arena × Analyzer)}
    (h : r.MadeOf u checks) {i : Nat} {item : Item} {c : Arena × Analyzer}
    (get : u.items[i]? = some item) (hc : checks[i]? = some c) :
    Analyzer.Covers u.arena r.types r.unit.arena item c := by
  obtain ⟨hitem, rfl⟩ := List.getElem?_eq_some_iff.1 get
  obtain ⟨hcheck, rfl⟩ := List.getElem?_eq_some_iff.1 hc
  exact h.items.get hitem hcheck

section Units

variable {u u' : ShaderUnit} {config : AnalysisConfig} {r r' : Analysis}
  {checks checks' : List (Arena × Analyzer)}

theorem ShaderUnit.Forest.checked (forest : u.Forest) (ended : analyze u config = .ok r) :
    ∃ checks, u.Checked config r checks := by
  obtain ⟨checks, hchecks, hmade⟩ := (analyze_checks forest config).exists_ok ended
  exact ⟨checks, ended, hchecks, hmade⟩

/-- **What is in sight of an item decides what is said of it.** -/
theorem ShaderUnit.SameSight.sameAt {i i' : Nat} {item : Item} (h : u.SameSight u' i i' item)
    (hr : u.Checked config r checks) (hr' : u'.Checked config r' checks') :
    r.SameAt r' checks checks' i i' (u.arena.extent item.children) := by
  obtain ⟨c, hc, hcheck⟩ := Analyzer.checks_getElem? hr.each h.get
  obtain ⟨c', hc', hcheck'⟩ := Analyzer.checks_getElem? hr'.each h.get'
  have hrules : (u.rules config).Agree (u'.rules config) := ⟨h.table, rfl⟩
  have hplace : (u'.items.take i').foldl (u'.rules config).past {} =
      (u.items.take i).foldl (u.rules config).past {} := by
    rw [hrules.past, Rules.foldl_past, Rules.foldl_past]
    exact congrArg (List.foldl _ _) h.globals
  rw [hplace, hrules.check] at hcheck'
  obtain ⟨hfindings, hbelow⟩ := Analyzer.check_local h.nodes hcheck hcheck'
  have hcovers (id : ExprId) (hid : id ∈ u.arena.extent item.children) :
      r'.types.get? id = r.types.get? id ∧
        r'.unit.arena.expr? id = r.unit.arena.expr? id := by
    obtain ⟨htypes, hexpr⟩ := hr.made.covers h.get hc id hid
    obtain ⟨htypes', hexpr'⟩ := hr'.made.covers h.get' hc' id (h.nodes.mem_below hid)
    obtain ⟨heq, heq'⟩ := hbelow id hid
    exact ⟨by rw [htypes', heq, htypes], by rw [hexpr', heq', hexpr]⟩
  exact ⟨⟨c, c', hc, hc', hfindings⟩, fun id hid => (hcovers id hid).1,
    fun id hid => (hcovers id hid).2⟩

/-! ## Editing a body -/

/-- A function is given another body. The nodes of the other items stay as they are. -/
structure ShaderUnit.BodyEdited (u : ShaderUnit) (k : Nat) (u' : ShaderUnit) : Prop where
  items : ∃ f body, u.items[k]? = some (.function f) ∧
    u'.items = u.items.set k (.function { f with body := body })
  nodes : ∀ i item, i ≠ k → u.items[i]? = some item →
    u.arena.AgreesAt u'.arena (u.arena.below item.children)

/-- Bodies are not collected. -/
theorem ItemTable.addItems_body (t : ItemTable) {items : List Item} {k : Nat} {f : Function}
    (get : items[k]? = some (.function f)) (body : StmtId) :
    t.addItems (items.set k (.function { f with body := body })) = t.addItems items := by
  induction items generalizing t k with
  | nil => cases get
  | cons item rest ih =>
    cases k with
    | zero =>
      cases get
      rfl
    | succ k =>
      rw [List.set_cons_succ, ItemTable.addItems]
      simp only [ih _ get, ItemTable.addItems]

/-- A function declares nothing, and what it is set to does not either. -/
theorem filterMap_declared?_set {items : List Item} {k : Nat} {f : Function}
    (get : items[k]? = some (.function f)) (g : Function) (i : Nat) :
    ((items.set k (.function g)).take i).filterMap Item.declared? =
      (items.take i).filterMap Item.declared? := by
  induction items generalizing i k with
  | nil => cases get
  | cons item rest ih =>
    cases i with
    | zero => rfl
    | succ i =>
      cases k with
      | zero =>
        cases get
        rfl
      | succ k =>
        rw [List.set_cons_succ, List.take_succ_cons, List.take_succ_cons, List.filterMap_cons,
          List.filterMap_cons, ih get]

namespace ShaderUnit.BodyEdited

variable {k : Nat} (h : u.BodyEdited k u')
include h

theorem collect : ItemTable.collect u' = ItemTable.collect u := by
  obtain ⟨f, body, get, hitems⟩ := h.items
  rw [ItemTable.collect, hitems, ItemTable.addItems_body _ get, ItemTable.collect]

theorem globalsAbove (i : Nat) : u'.globalsAbove i = u.globalsAbove i := by
  obtain ⟨f, body, get, hitems⟩ := h.items
  rw [ShaderUnit.globalsAbove, hitems, filterMap_declared?_set get, ShaderUnit.globalsAbove]

/-- **Another body is not seen from the other items.** -/
theorem sameSight {i : Nat} {item : Item} (hne : i ≠ k) (get : u.items[i]? = some item) :
    u.SameSight u' i i item where
  get := get
  get' := by
    obtain ⟨f, body, -, hitems⟩ := h.items
    rw [hitems, List.getElem?_set_ne hne.symm, get]
  table := h.collect ▸ .refl _
  globals := h.globalsAbove i
  nodes := h.nodes i item hne get

end ShaderUnit.BodyEdited

end Units

theorem TypeTable.ext_get? {t t' : TypeTable} (hsize : t'.slots.size = t.slots.size)
    (h : ∀ id, t'.get? id = t.get? id) : t' = t := by
  obtain ⟨slots⟩ := t
  obtain ⟨slots'⟩ := t'
  refine congrArg TypeTable.mk (Array.ext hsize fun i hi' hi => ?_)
  have heq := h ⟨i⟩
  rwa [get?, get?, Array.getElem?_eq_getElem hi', Array.getElem?_eq_getElem hi] at heq

theorem Analyzer.length_checks {rules : Rules} {mode : TransformMode} {a : Arena} {p : Place}
    {items : List Item} {checks : List (Arena × Analyzer)}
    (h : rules.checks mode a p items = .ok checks) : checks.length = items.length := by
  induction items generalizing p checks with
  | nil =>
    cases h
    rfl
  | cons item rest ih =>
    obtain ⟨c, -, h⟩ := of_bind_ok h
    obtain ⟨others, hothers, h⟩ := of_bind_ok h
    cases h
    rw [List.length_cons, ih hothers, List.length_cons]

/-! ## Swapping functions -/

section Swapped

variable {u : ShaderUnit} {config : AnalysisConfig} {r r' : Analysis}
  {checks checks' : List (Arena × Analyzer)} {above below : List Item} {f g : Function}

/-- Functions leave nothing behind, so their checks are swapped with them. -/
theorem Analyzer.checks_swap {rules : Rules} {mode : TransformMode} {a : Arena} {p : Place}
    (h : rules.checks mode a p (above ++ .function f :: .function g :: below) = .ok checks) :
    ∃ checks', rules.checks mode a p (above ++ .function g :: .function f :: below) = .ok checks' ∧
      checks'.Perm checks ∧
      ((above ++ .function g :: .function f :: below).zip checks').Perm
        ((above ++ .function f :: .function g :: below).zip checks) := by
  rw [checks_append] at h
  obtain ⟨cs, hcs, h⟩ := of_bind_ok h
  obtain ⟨others, hothers, h⟩ := of_bind_ok h
  cases h
  obtain ⟨c, hc, hothers⟩ := of_bind_ok hothers
  obtain ⟨others', hothers', heq⟩ := of_bind_ok hothers
  cases heq
  obtain ⟨d, hd, hothers'⟩ := of_bind_ok hothers'
  obtain ⟨ds, hds, heq⟩ := of_bind_ok hothers'
  cases heq
  have hlength := length_checks hcs
  refine ⟨cs ++ d :: c :: ds, ?_, (List.Perm.swap c d ds).append_left cs, ?_⟩
  · rw [checks_append]
    exact bind_ok hcs (bind_ok (bind_ok hd (bind_ok (bind_ok hc (bind_ok hds rfl)) rfl)) rfl)
  · rw [List.zip_append hlength.symm, List.zip_append hlength.symm]
    exact (List.Perm.swap _ _ _).append_left _

/-- The order of the checks does not show in the types and the nodes. -/
theorem Analysis.MadeOf.same_of_perm {items : List Item} (h : r.MadeOf u checks)
    (h' : r'.MadeOf { u with items := items } checks') (hitems : items.Perm u.items)
    (hzip : (items.zip checks').Perm (u.items.zip checks)) :
    r'.types = r.types ∧ r'.unit.arena = r.unit.arena := by
  have hsame (id : ExprId) : r'.types.get? id = r.types.get? id ∧
      r'.unit.arena.expr? id = r.unit.arena.expr? id := by
    by_cases hreach : u.Reaches id
    · obtain ⟨node, hnode, hbelow⟩ := ShaderUnit.mem_extent_items.2 hreach
      obtain ⟨item, hitem, hchild⟩ := List.mem_flatMap.1 hnode
      obtain ⟨hlength, hcovers⟩ := List.forall₂_iff_zip.1 h.items
      obtain ⟨-, hcovers'⟩ := List.forall₂_iff_zip.1 h'.items
      obtain ⟨i, hi, rfl⟩ := List.mem_iff_getElem.1 hitem
      have hmem : (u.items[i], checks[i]) ∈ u.items.zip checks :=
        List.mem_iff_getElem.2 ⟨i, by rw [List.length_zip]; omega, List.getElem_zip⟩
      obtain ⟨htypes, hexpr⟩ := hcovers hmem id ⟨node, hchild, hbelow⟩
      obtain ⟨htypes', hexpr'⟩ := hcovers' (hzip.mem_iff.2 hmem) id ⟨node, hchild, hbelow⟩
      exact ⟨htypes'.trans htypes.symm, hexpr'.trans hexpr.symm⟩
    · have hreach' : ¬ShaderUnit.Reaches { u with items := items } id := by
        rintro ⟨root, ⟨item, hitem, hroot⟩, hbelow⟩
        exact hreach ⟨root, ⟨item, hitems.mem_iff.1 hitem, hroot⟩, hbelow⟩
      obtain ⟨htypes, hexpr⟩ := h.elsewhere id hreach
      obtain ⟨htypes', hexpr'⟩ := h'.elsewhere id hreach'
      exact ⟨htypes'.trans htypes.symm, hexpr'.trans hexpr.symm⟩
  refine ⟨TypeTable.ext_get? (h'.slots.trans h.slots.symm) fun id => (hsame id).1, ?_⟩
  have hexprs : r'.unit.arena.exprs = r.unit.arena.exprs :=
    Array.ext_getElem? fun i => (hsame ⟨i⟩).2
  rw [h'.unit, h.unit]
  exact congrArg (Arena.mk · u.arena.stmts) hexprs

/-- Items in another order refer to the same nodes. -/
theorem ShaderUnit.Forest.of_perm (forest : u.Forest) {items : List Item}
    (h : items.Perm u.items) : ShaderUnit.Forest { u with items := items } where
  acyclic := forest.acyclic
  unshared := ((h.flatMap_right Item.children).append_right _).nodup_iff.2 forest.unshared

/-- **Functions of different names may be swapped.** The analysis comes to the same types and the
same nodes, and it reports the same in another order. -/
theorem ShaderUnit.Checked.swap (forest : u.Forest)
    (items : u.items = above ++ .function f :: .function g :: below) (hne : f.name ≠ g.name)
    (hr : u.Checked config r checks) :
    ∃ r', analyze { u with items := above ++ .function g :: .function f :: below } config = .ok r' ∧
      r'.types = r.types ∧ r'.unit.arena = r.unit.arena ∧ r'.diagnostics.Perm r.diagnostics := by
  have hitems : (above ++ .function g :: .function f :: below).Perm u.items := by
    rw [items]
    exact (List.Perm.swap _ _ _).append_left _
  obtain ⟨hfindings, hagree⟩ := ItemTable.addItems_swap (t := {}) above below hne
  have heach := hr.each
  rw [ShaderUnit.checks, items] at heach
  obtain ⟨checks', hchecks', hperm, hzip⟩ := Analyzer.checks_swap heach
  have hrules : (u.rules config).Agree
      (ShaderUnit.rules { u with items := above ++ .function g :: .function f :: below } config) :=
    ⟨by rw [ShaderUnit.rules, ItemTable.collect, items]; exact hagree, rfl⟩
  rw [← hrules.checks] at hchecks'
  obtain ⟨r', ended, made⟩ :=
    (analyze_checks (forest.of_perm hitems) config).symm.exists_ok hchecks'
  obtain ⟨htypes, harena⟩ := hr.made.same_of_perm made hitems (by rw [items]; exact hzip)
  refine ⟨r', ended, htypes, harena, ?_⟩
  unfold Analysis.diagnostics
  rw [made.findings, hr.made.findings]
  refine ((List.Perm.append ?_ (hperm.flatMap_right _))).map _
  rw [ItemTable.collect, ItemTable.collect, items]
  exact hfindings

end Swapped

/-! ## Independence -/

/-- **Bodies are checked independently.** An analysis of a forest is put together from one check an
item. What is said of an item is the same in every unit that has the same in sight of it. So another
body changes nothing about other items, and neither does another order of two functions, but for the
order of what is reported. -/
theorem bodies_independent {u : ShaderUnit} (forest : u.Forest) (config : AnalysisConfig) :
    (u.WellFormed → ∃ r, analyze u config = .ok r) ∧
    (∀ r, analyze u config = .ok r → ∃ checks, u.Checked config r checks) ∧
    ∀ r checks, u.Checked config r checks →
      (∀ u' r' checks', u'.Checked config r' checks' →
        ∀ i i' item, u.SameSight u' i i' item →
          r.SameAt r' checks checks' i i' (u.arena.extent item.children)) ∧
      (∀ u' k, u.BodyEdited k u' → ItemTable.collect u' = ItemTable.collect u ∧
        ∀ r' checks', u'.Checked config r' checks' →
          ∀ i item, i ≠ k → u.items[i]? = some item →
            r.SameAt r' checks checks' i i (u.arena.extent item.children)) ∧
      ∀ above f g below, u.items = above ++ .function f :: .function g :: below →
        f.name ≠ g.name → ∃ r',
          analyze { u with items := above ++ .function g :: .function f :: below } config = .ok r' ∧
          r'.types = r.types ∧ r'.unit.arena = r.unit.arena ∧
          r'.diagnostics.Perm r.diagnostics := by
  refine ⟨fun wf => Stripping.analyze_ok wf config, fun r ended => forest.checked ended,
    fun r checks hr => ⟨?_, ?_, ?_⟩⟩
  · intro u' r' checks' hr' i i' item h
    exact h.sameAt hr hr'
  · intro u' k h
    refine ⟨h.collect, fun r' checks' hr' i item hne get => ?_⟩
    exact (h.sameSight hne get).sameAt hr hr'
  · intro above f g below items hne
    exact hr.swap forest items hne

/-- A function that returns its parameter, a vector, as a `float`. -/
def shortening (name type : String) (body : StmtId) : Function :=
  ⟨name, [⟨"x", ⟨type, default⟩, default⟩], ⟨"float", default⟩, body, default⟩

/-- A unit with such functions. -/
def shorteningUnit (functions : List Function) : ShaderUnit where
  items := functions.map .function
  arena :=
    { exprs := #[⟨.ident "x", .point 0 1 9⟩, ⟨.paren ⟨0⟩, .point 0 1 8⟩, ⟨.ident "x", .point 0 2 8⟩]
      stmts := #[⟨.returns (some ⟨1⟩), .point 0 1 1⟩, ⟨.returns (some ⟨2⟩), .point 0 2 1⟩,
        ⟨.empty, .point 0 3 1⟩] }

/-- Two functions are reported in the order in which they stand. If the first one is emptied, the
type of what the second one returns stays. -/
theorem bodies_independent_shortening :
    let f := shortening "f" "float3" ⟨0⟩
    let g := shortening "g" "float2" ⟨1⟩
    ∃ r r' r'', analyze (shorteningUnit [f, g]) {} = .ok r ∧
      analyze (shorteningUnit [g, f]) {} = .ok r' ∧
      analyze (shorteningUnit [{ f with body := ⟨2⟩ }, g]) {} = .ok r'' ∧
      r'.types = r.types ∧ r'.unit.arena = r.unit.arena ∧ r'.diagnostics.Perm r.diagnostics ∧
      r'.diagnostics ≠ r.diagnostics ∧
      r.types.get? ⟨2⟩ = some (.vector .float 2) ∧ r''.types.get? ⟨2⟩ = r.types.get? ⟨2⟩ := by
  intro f g
  let edited := shorteningUnit [{ f with body := ⟨2⟩ }, g]
  have wf : (shorteningUnit [f, g]).WellFormed :=
    ShaderUnit.Ascending.wellFormed ⟨by decide, by decide, by decide⟩
  have wf' : edited.WellFormed :=
    ShaderUnit.Ascending.wellFormed ⟨by decide, by decide, by decide⟩
  obtain ⟨hok, hchecked, hall⟩ := bodies_independent ⟨wf.acyclic, by decide⟩ {}
  obtain ⟨hok', hchecked', -⟩ := bodies_independent (u := edited) ⟨wf'.acyclic, by decide⟩ {}
  obtain ⟨r, hr⟩ := hok wf
  obtain ⟨r'', hr''⟩ := hok' wf'
  obtain ⟨checks, hchecks⟩ := hchecked r hr
  obtain ⟨checks', hchecks'⟩ := hchecked' r'' hr''
  obtain ⟨-, hedit, hswap⟩ := hall r checks hchecks
  obtain ⟨r', hr', htypes, harena, hperm⟩ := hswap [] f g [] rfl (by decide)
  have hbody : (shorteningUnit [f, g]).BodyEdited 0 edited :=
    ⟨⟨f, ⟨2⟩, rfl, rfl⟩, fun _ _ _ _ => ⟨fun _ _ => rfl, fun _ _ => rfl⟩⟩
  obtain ⟨-, hedited⟩ := hedit edited 0 hbody
  have hsame := hedited r'' checks' hchecks' 1 (.function g) (by decide) rfl
  have hfound : (analyze (shorteningUnit [f, g]) {}).map
      (fun r => (r.diagnostics.map (·.labels.map (·.span)), r.types.get? ⟨2⟩)) =
      .ok ([[.point 0 1 9], [.point 0 2 8]], some (.vector .float 2)) := by
    decide +kernel
  have hfound' : (analyze (shorteningUnit [g, f]) {}).map
      (fun r => r.diagnostics.map (·.labels.map (·.span))) =
      .ok [[.point 0 2 8], [.point 0 1 9]] := by
    decide +kernel
  obtain ⟨r₁, hr₁, heq⟩ := of_map_ok hfound
  cases hr.symm.trans hr₁
  obtain ⟨hspans, htype⟩ := Prod.ext_iff.1 heq
  obtain ⟨r₂, hr₂, hspans'⟩ := of_map_ok hfound'
  cases hr'.symm.trans hr₂
  refine ⟨r, r', r'', hr, hr', hr'', htypes, harena, hperm, fun hequal => ?_, htype,
    hsame.types ⟨2⟩ ⟨.inr ⟨1⟩, List.mem_singleton_self _, ?_⟩⟩
  · rw [hequal] at hspans'
    exact absurd (hspans.symm.trans hspans') (by decide)
  · exact .single (Arena.refers_stmt.2 ⟨_, rfl, List.mem_singleton_self _⟩)

end ShaderFront
