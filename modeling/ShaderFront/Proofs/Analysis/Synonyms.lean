import ShaderFront.Proofs.Analysis.Run
import ShaderFront.Proofs.Syntax.Lockstep

/-!
# Types behind synonyms

Two types are the same if the types behind their synonyms are. What is asked of the shape of a type
has one answer for types that are the same. From there the relation is lifted to what the analysis
carries along: names in sight, collected items and operands. Findings are of one kind if they have
one code and one place; a message shows a type by its name, and so it may differ.
-/

namespace ShaderFront

/-- The types are the same behind their synonyms. -/
def Ty.Same (ty ty' : Ty) : Prop := ty'.resolve = ty.resolve

namespace Ty.Same

variable {ty ty' left left' right right' : Ty}

theorem refl (ty : Ty) : ty.Same ty := rfl

/-- What a rule asks of a type does not depend on the synonym it is named by. -/
theorem element? (h : ty.Same ty') : ty'.element? = ty.element? := by
  unfold Ty.element?
  rw [h]

theorem withElement (h : ty.Same ty') (k : ScalarKind) : ty'.withElement k = ty.withElement k := by
  unfold Ty.withElement
  rw [h]

theorem componentCount (h : ty.Same ty') : ty'.componentCount = ty.componentCount := by
  unfold Ty.componentCount
  rw [h]

theorem isScalar (h : ty.Same ty') : ty'.isScalar = ty.isScalar := by
  unfold Ty.isScalar
  rw [h]

theorem isVector (h : ty.Same ty') : ty'.isVector = ty.isVector := by
  unfold Ty.isVector
  rw [h]

theorem isMatrix (h : ty.Same ty') : ty'.isMatrix = ty.isMatrix := by
  unfold Ty.isMatrix
  rw [h]

theorem isNumeric (h : ty.Same ty') : ty'.isNumeric = ty.isNumeric := by
  rw [Ty.isNumeric, h.element?, Ty.isNumeric]

theorem isVoid (h : ty.Same ty') : ty'.isVoid = ty.isVoid := by
  unfold Ty.isVoid
  rw [h]

theorem scalarKind? (hl : left.Same left') (hr : right.Same right') :
    left'.scalarKind? right' = left.scalarKind? right := by
  unfold Ty.scalarKind?
  rw [hl, hr]

/-- The tables combine types by what they stand for. -/
theorem combining (place : Combining) (hl : left.Same left') (hr : right.Same right') :
    place.apply left' right' = place.apply left right := by
  cases place <;> unfold Combining.apply <;> dsimp only
  case operator | expression => unfold combine?; rw [hl, hr]
  case multiplication => unfold product?; rw [hl, hr]
  case division => unfold quotient?; rw [hl, hr]

/-- So does a store compare them. -/
theorem ofStore? (hl : left.Same left') (hr : right.Same right') :
    Conversion.ofStore? left' right' = Conversion.ofStore? left right := by
  unfold Conversion.ofStore?
  rw [hl, hr]

theorem indexed? (h : ty.Same ty') : Rules.indexed? ty' = Rules.indexed? ty := by
  unfold Rules.indexed?
  rw [h]

theorem totalComponents {types types' : List Ty} (h : List.Forall₂ Ty.Same types types') :
    Ty.totalComponents types' = Ty.totalComponents types := by
  induction h with
  | nil => rfl
  | cons h _ ih => rw [Ty.totalComponents, h.componentCount, ih, Ty.totalComponents]

end Ty.Same

/-- What is known of two types: the same, or nothing of either. -/
abbrev SameKnown : Option Ty → Option Ty → Prop := Option.Rel Ty.Same

theorem SameKnown.refl (known : Option Ty) : SameKnown known known := by
  cases known with
  | none => exact .none
  | some ty => exact .some rfl

theorem SameKnown.of_eq {known known' : Option Ty} (h : known' = known) :
    SameKnown known known' := h ▸ refl known

/-- Both are known to stand for one type, or neither is known. -/
theorem SameKnown.map_resolve {known known' : Option Ty} (h : SameKnown known known') :
    known'.map Ty.resolve = known.map Ty.resolve := by
  cases h with
  | none => rfl
  | some h => exact congrArg some h

/-- Problems of one code at one place. -/
structure Finding.SameKind (f f' : Finding) : Prop where
  code : f'.problem.code = f.problem.code
  span : f'.span = f.span

theorem Finding.SameKind.refl (f : Finding) : f.SameKind f := ⟨rfl, rfl⟩

instance : Std.Refl Finding.SameKind := ⟨Finding.SameKind.refl⟩

/-- Code, severity and places are the same. -/
theorem Finding.SameKind.diagnostic {f f' : Finding} (h : f.SameKind f') :
    f'.diagnostic.code = f.diagnostic.code ∧ f'.diagnostic.severity = f.diagnostic.severity ∧
      f'.diagnostic.labels.map (·.span) = f.diagnostic.labels.map (·.span) := by
  have hcode : f'.diagnostic.code = f.diagnostic.code := h.code
  refine ⟨hcode, ?_, congrArg ([·]) h.span⟩
  rw [Finding.severity_diagnostic, Finding.severity_diagnostic, hcode]

namespace Reported

variable {α α' β β' : Type}

/-- Related values, on the way to which problems of the same kinds were found. -/
structure Rel (R : α → α' → Prop) (x : Reported α) (x' : Reported α') : Prop where
  value : R x.value x'.value
  findings : List.Forall₂ Finding.SameKind x.findings x'.findings

variable {R : α → α' → Prop} {Q : β → β' → Prop} {x : Reported α} {x' : Reported α'}

theorem Rel.imp {R' : α → α' → Prop} (h : x.Rel R x') (himp : ∀ a a', R a a' → R' a a') :
    x.Rel R' x' := ⟨himp _ _ h.value, h.findings⟩

/-- Reports in the same order, if the first ones agree and what follows does. -/
theorem Rel.bind (h : x.Rel R x') {f : α → Reported β} {f' : α' → Reported β'}
    (hf : ∀ a a', R a a' → (f a).Rel Q (f' a')) : (x >>= f).Rel Q (x' >>= f') := by
  have hrest := hf _ _ h.value
  exact ⟨hrest.value, List.rel_append h.findings hrest.findings⟩

theorem rel_pure {a : α} {a' : α'} (h : R a a') : (pure a : Reported α).Rel R (pure a') :=
  ⟨h, .nil⟩

/-- The same code at the same span; the message may name a type otherwise. -/
theorem rel_find {problem problem' : Problem} (h : problem'.code = problem.code) (span : Span) :
    (find problem span).Rel Eq (find problem' span) := ⟨rfl, .cons ⟨h, rfl⟩ .nil⟩

theorem rel_reject {problem problem' : Problem} (h : problem'.code = problem.code) (span : Span) :
    (reject problem span : Reported (Option α)).Rel (Option.Rel R)
      (reject problem' span : Reported (Option α')) := ⟨.none, .cons ⟨h, rfl⟩ .nil⟩

theorem rel_orReject {value : Option α} {value' : Option α'} (hvalue : Option.Rel R value value')
    {problem problem' : Problem} (h : problem'.code = problem.code) (span : Span) :
    (orReject value problem span).Rel (Option.Rel R) (orReject value' problem' span) := by
  cases hvalue with
  | some h => exact rel_pure (.some h)
  | none => exact rel_reject h span

end Reported

open Reported

/-! ## Names that are bound -/

namespace Bindings

/-- The same names, bound to the same types. -/
def Same : Bindings → Bindings → Prop :=
  List.Forall₂ fun b b' => b'.1 = b.1 ∧ SameKnown b.2 b'.2

variable {b b' : Bindings}

theorem Same.find? (h : b.Same b') (name : String) :
    Option.Rel SameKnown (b.find? name) (b'.find? name) := by
  induction h with
  | nil => exact .none
  | @cons x x' _ _ hx _ ih =>
    obtain ⟨n, known⟩ := x
    obtain ⟨n', known'⟩ := x'
    obtain ⟨hname, hknown⟩ := hx
    dsimp only at hname hknown
    subst hname
    unfold Bindings.find? at ih ⊢
    rw [List.lookup_cons, List.lookup_cons]
    split
    · exact .some hknown
    · exact ih

theorem Same.has (h : b.Same b') (name : String) : b'.has name = b.has name := by
  have hfind := h.find? name
  unfold Bindings.has
  generalize b.find? name = found, b'.find? name = found' at hfind ⊢
  cases hfind <;> rfl

end Bindings

namespace Scope

/-- The same names in the same tables, bound to the same types. -/
structure Same (s s' : Scope) : Prop where
  inner : s.inner.Same s'.inner
  outer : List.Forall₂ Bindings.Same s.outer s'.outer

variable {s s' : Scope}

/-- A name that is bound in one place is bound in the other, to the same type. -/
theorem Same.lookup? (h : s.Same s') (name : String) :
    Option.Rel SameKnown (s.lookup? name) (s'.lookup? name) := by
  have htables : List.Forall₂ Bindings.Same (s.inner :: s.outer) (s'.inner :: s'.outer) :=
    .cons h.inner h.outer
  unfold Scope.lookup?
  generalize s.inner :: s.outer = tables, s'.inner :: s'.outer = tables' at htables
  induction htables with
  | nil => exact .none
  | @cons b b' _ _ hb _ ih =>
    have hfind := hb.find? name
    rw [List.findSome?_cons, List.findSome?_cons]
    generalize b.find? name = found, b'.find? name = found' at hfind ⊢
    cases hfind with
    | some hknown => exact .some hknown
    | none => exact ih

theorem Same.hasLocal (h : s.Same s') (name : String) : s'.hasLocal name = s.hasLocal name :=
  h.inner.has name

/-- Declaring a name in both places keeps them the same. -/
theorem Same.bind? (h : s.Same s') (name : String) {known known' : Option Ty}
    (hknown : SameKnown known known') :
    Option.Rel Scope.Same (s.bind? name known) (s'.bind? name known') := by
  unfold Scope.bind?
  rw [h.hasLocal]
  split
  · exact .none
  · exact .some ⟨.cons ⟨rfl, hknown⟩ h.inner, h.outer⟩

theorem Same.child (h : s.Same s') : s.child.Same s'.child := ⟨.nil, .cons h.inner h.outer⟩

theorem Same.depth (h : s.Same s') : s'.depth = s.depth := h.outer.length_eq.symm

theorem Same.parent? (h : s.Same s') : Option.Rel Scope.Same s.parent? s'.parent? := by
  obtain ⟨inner, outer⟩ := s
  obtain ⟨inner', outer'⟩ := s'
  obtain ⟨-, houter⟩ := h
  cases houter with
  | nil => exact .none
  | cons hb hrest => exact .some ⟨hb, hrest⟩

theorem Same.leave (h : s.Same s') : s.leave.Same s'.leave := by
  have hparent := h.parent?
  unfold Scope.leave
  generalize s.parent? = parent, s'.parent? = parent' at hparent ⊢
  cases hparent with
  | some h => exact h
  | none => exact h

end Scope

/-- A function of one name and one type. -/
structure FunctionFrame.Same (f f' : FunctionFrame) : Prop where
  name : f'.name = f.name
  returns : SameKnown f.returns f'.returns
  bodyDepth : f'.bodyDepth = f.bodyDepth

namespace Place

/-- The same names are in sight, in the same function. -/
structure Same (p p' : Place) : Prop where
  scope : p.scope.Same p'.scope
  function : Option.Rel FunctionFrame.Same p.function p'.function

variable {p p' : Place}

/-- Parameters are hidden in the same places. -/
theorem Same.hidesParameter (h : p.Same p') (name : String) :
    p'.hidesParameter name = p.hidesParameter name := by
  have hfunction := h.function
  have hparent := h.scope.parent?
  unfold Place.hidesParameter
  rw [h.scope.depth]
  generalize p.function = f, p'.function = f' at hfunction ⊢
  generalize p.scope.parent? = parent, p'.scope.parent? = parent' at hparent ⊢
  have hbody : f'.any (fun f => f.bodyDepth == p.scope.depth) =
      f.any (fun f => f.bodyDepth == p.scope.depth) := by
    cases hfunction with
    | some h => simp only [Option.any_some, h.bodyDepth]
    | none => rfl
  have hlocal : parent'.any (·.hasLocal name) = parent.any (·.hasLocal name) := by
    cases hparent with
    | some h => exact h.hasLocal name
    | none => rfl
  rw [hbody, hlocal]

/-- A declaration that one place takes is taken by the other. -/
theorem Same.declare (h : p.Same p') (name : String) {known known' : Option Ty}
    (hknown : SameKnown known known') (span : Span) :
    (p.declare name known span).Rel Place.Same (p'.declare name known' span) := by
  have hbind := h.scope.bind? name hknown
  have hredeclared : (do find (.redeclared name) span; return p : Reported Place).Rel Place.Same
      (do find (.redeclared name) span; return p') :=
    (rel_find rfl span).bind fun _ _ _ => rel_pure h
  unfold Place.declare
  rw [h.hidesParameter]
  split
  · exact hredeclared
  · generalize p.scope.bind? name known = bound, p'.scope.bind? name known' = bound' at hbind ⊢
    cases hbind with
    | some hscope => exact rel_pure ⟨hscope, h.function⟩
    | none => exact hredeclared

theorem Same.declareAll (h : p.Same p') {entries entries' : List (String × Option Ty × Span)}
    (hentries : List.Forall₂ (fun e e' => e'.1 = e.1 ∧ SameKnown e.2.1 e'.2.1 ∧ e'.2.2 = e.2.2)
      entries entries') :
    (p.declareAll entries).Rel Place.Same (p'.declareAll entries') := by
  induction hentries generalizing p p' with
  | nil => exact rel_pure h
  | @cons e e' _ _ he _ ih =>
    obtain ⟨name, known, span⟩ := e
    obtain ⟨name', known', span'⟩ := e'
    obtain ⟨hname, hknown, hspan⟩ := he
    dsimp only at hname hknown hspan
    subst hname hspan
    exact (h.declare _ hknown _).bind fun _ _ h => ih h

theorem Same.enterScope (h : p.Same p') : p.enterScope.Same p'.enterScope :=
  ⟨h.scope.child, h.function⟩

theorem Same.leaveScope (h : p.Same p') : p.leaveScope.Same p'.leaveScope :=
  ⟨h.scope.leave, h.function⟩

end Place

/-! ## What the rules know -/

/-- What is found in related lists. -/
theorem find?_rel {α β : Type} {R : α → β → Prop} {l : List α} {l' : List β} {p : α → Bool}
    {q : β → Bool} (h : List.Forall₂ R l l') (hpq : ∀ a b, R a b → q b = p a) :
    Option.Rel R (l.find? p) (l'.find? q) := by
  induction h with
  | nil => exact .none
  | @cons a b _ _ hab _ ih =>
    rw [List.find?_cons, List.find?_cons, hpq a b hab]
    split
    · exact .some hab
    · exact ih

/-- A struct of one name whose fields have the same types. -/
structure StructInfo.Same (s s' : StructInfo) : Prop where
  name : s'.name = s.name
  fields : Bindings.Same s.fields s'.fields

/-- A function of one name and one type. -/
structure FunctionSig.Same (f f' : FunctionSig) : Prop where
  name : f'.name = f.name
  params : Bindings.Same f.params f'.params
  returns : SameKnown f.returns f'.returns
  span : f'.span = f.span

namespace ItemTable

/-- At one place the same type is written. -/
structure SameWritten (t t' : ItemTable) (written written' : WrittenType) : Prop where
  span : written'.span = written.span
  type : SameKnown (t.type? written.name) (t'.type? written'.name)

/-- Two written types that are written for the same resolve to the same. -/
theorem SameWritten.resolve {t t' : ItemTable} {written written' : WrittenType}
    (h : t.SameWritten t' written written') :
    (t.resolve written).Rel SameKnown (t'.resolve written') := by
  unfold ItemTable.resolve
  rw [h.span]
  exact rel_orReject h.type (by rfl) _

/-- The same type is called, or by the same name what is no type. -/
structure SameCallee (t t' : ItemTable) (callee callee' : String) : Prop where
  type : SameKnown (t.type? callee) (t'.type? callee')
  name : t.type? callee = none → callee' = callee

end ItemTable

/-- What the rules know under a name is the same. -/
structure Rules.Same (r r' : Rules) : Prop where
  type? (name : String) : SameKnown (r.items.type? name) (r'.items.type? name)
  struct? (name : String) :
    Option.Rel StructInfo.Same (r.items.struct? name) (r'.items.struct? name)
  function? (name : String) :
    Option.Rel FunctionSig.Same (r.items.function? name) (r'.items.function? name)
  warn : r'.warnOnTruncation = r.warnOnTruncation

namespace Rules.Same

variable {r r' : Rules}

theorem written (h : r.Same r') (written : WrittenType) :
    r.items.SameWritten r'.items written written := ⟨rfl, h.type? _⟩

theorem callee (h : r.Same r') (callee : String) : r.items.SameCallee r'.items callee callee :=
  ⟨h.type? _, fun _ => rfl⟩

end Rules.Same

/-- Of both operands the rules see the same, but for synonyms. -/
structure Operand.Same (o o' : Operand) : Prop where
  type : SameKnown o.type o'.type
  span : o'.span = o.span
  assignable : o'.isAssignable = o.isAssignable
  constant : o'.constant? = o.constant?

end ShaderFront
