import Mathlib.Data.List.Forall2
import Mathlib.Data.Option.Basic
import ShaderFront.Proofs.Syntax.Traversal

/-!
# Two traversals in lockstep

The rule by which two runs are compared that take the same way, through two units of one shape. The
relation between the moments of the two runs says what is found at the nodes ahead; an id may be
come to twice. Each pair of hooks has to keep it.

A hook that faults must have a partner that faults. If the comparison is `lenient`, one run may
fault by itself, and nothing is said of the other one then: the depths that bound the two walks may
differ, as they do for arenas of different sizes.
-/

namespace ShaderFront

/-- Both computations fail, or neither of them does and the values are related. If `lenient`, one
may fail by itself. -/
def Together (lenient : Prop) {ω α β : Type} (Rel : α → β → Prop) :
    Except ω α → Except ω β → Prop
  | .ok a, .ok b => Rel a b
  | .error _, .error _ => True
  | .ok _, .error _ | .error _, .ok _ => lenient

namespace Together

variable {lenient : Prop} {ω α β γ δ : Type} {Rel Rel' : α → β → Prop} {Post : γ → δ → Prop}
  {x : Except ω α} {y : Except ω β}

/-- A run that may fail on its own. -/
theorem error_left (h : lenient) (e : ω) (y : Except ω β) :
    Together lenient Rel (.error e) y := by
  cases y with
  | error e' => trivial
  | ok b => exact h

theorem error_right (h : lenient) (x : Except ω α) (e : ω) :
    Together lenient Rel x (.error e) := by
  cases x with
  | error e' => trivial
  | ok a => exact h

theorem imp (h : Together lenient Rel x y) (himp : ∀ a b, Rel a b → Rel' a b) :
    Together lenient Rel' x y := by
  cases x <;> cases y <;> first | exact himp _ _ h | exact h

/-- One step after the other. -/
theorem bind (h : Together lenient Rel x y) {f : α → Except ω γ} {g : β → Except ω δ}
    (hf : ∀ a b, Rel a b → Together lenient Post (f a) (g b)) :
    Together lenient Post (x >>= f) (y >>= g) := by
  cases x with
  | error e =>
    cases y with
    | error e' => trivial
    | ok b => exact error_left h e (g b)
  | ok a =>
    cases y with
    | error e => exact error_right h (f a) e
    | ok b => exact hf a b h

/-- Both go on with the same value. -/
theorem bind_same {f : α → Except ω γ} {g : α → Except ω δ}
    (h : ∀ a, Together lenient Post (f a) (g a)) :
    Together lenient Post (x >>= f) (x >>= g) := by
  cases x with
  | error e => trivial
  | ok a => exact h a

/-- If the first computation succeeds, so does the second one. -/
theorem exists_ok (h : Together False Rel x y) {a : α} (hx : x = .ok a) :
    ∃ b, y = .ok b ∧ Rel a b := by
  subst hx
  cases y with
  | error e => exact h.elim
  | ok b => exact ⟨b, rfl, h⟩

theorem symm (h : Together lenient Rel x y) : Together lenient (fun b a => Rel a b) y x := by
  cases x <;> cases y <;> exact h

/-- More is done with the first value. -/
theorem map (h : Together lenient Rel x y) {f : α → γ} {Rel' : γ → β → Prop}
    (himp : ∀ a b, Rel a b → Rel' (f a) b) : Together lenient Rel' (x.map f) y := by
  cases x <;> cases y <;> first | exact himp _ _ h | exact h

/-- What is known of the first value by itself. -/
theorem also (h : Together lenient Rel x y) {P : α → Prop} (hx : ∀ a, x = .ok a → P a) :
    Together lenient (fun a b => Rel a b ∧ P a) x y := by
  cases x with
  | error e => cases y <;> exact h
  | ok a =>
    cases y with
    | error e => exact h
    | ok b => exact ⟨h, hx a rfl⟩

/-- What two runs yield that both end is related. -/
theorem rel (h : Together lenient Rel x y) {a : α} {b : β} (hx : x = .ok a) (hy : y = .ok b) :
    Rel a b := by
  subst hx hy
  exact h

/-- Two loops over related lists. -/
theorem foldlM {ι κ : Type} {l : List ι} {l' : List κ} {R : ι → κ → Prop}
    {f : α → ι → Except ω α} {g : β → κ → Except ω β} (hl : List.Forall₂ R l l')
    (step : ∀ i k a b, R i k → i ∈ l → Rel a b → Together lenient Rel (f a i) (g b k)) {a : α}
    {b : β} (h : Rel a b) : Together lenient Rel (l.foldlM f a) (l'.foldlM g b) := by
  induction hl generalizing a b with
  | nil => exact h
  | @cons i k l l' hik _ ih =>
    rw [List.foldlM_cons, List.foldlM_cons]
    refine (step i k a b hik List.mem_cons_self h).bind fun a b hab => ih ?_ hab
    exact fun i k a b hik hi => step i k a b hik (List.mem_cons_of_mem _ hi)

/-- Looking at each element of a list. -/
theorem mapM {ι : Type} {l : List ι} {f : ι → Except ω α} {g : ι → Except ω β}
    (h : ∀ i ∈ l, Together lenient Rel (f i) (g i)) :
    Together lenient (List.Forall₂ Rel) (l.mapM f) (l.mapM g) := by
  induction l with
  | nil => exact List.Forall₂.nil
  | cons i rest ih =>
    rw [List.mapM_cons, List.mapM_cons]
    refine (h i List.mem_cons_self).bind fun a b hab => ?_
    refine (ih fun j hj => h j (List.mem_cons_of_mem _ hj)).bind fun as bs hall => ?_
    exact List.Forall₂.cons hab hall

end Together

/-! ## Related forms -/

section Forms

variable (T : WrittenType → WrittenType → Prop) (C : String → String → Prop)

/-- Expressions of one form over related children, with related names of types and functions. -/
inductive ExprForm.Rel {α β : Type} (R : α → β → Prop) : ExprForm α → ExprForm β → Prop where
  | literal (v : Literal) : Rel R (.literal v) (.literal v)
  | ident (name : String) : Rel R (.ident name) (.ident name)
  | unary (op : UnaryOp) {e e'} (h : R e e') : Rel R (.unary op e) (.unary op e')
  | binary (op : BinaryOp) {l l' r r'} (hl : R l l') (hr : R r r') :
      Rel R (.binary op l r) (.binary op l' r')
  | conditional {c c' y y' n n'} (hc : R c c') (hy : R y y') (hn : R n n') :
      Rel R (.conditional c y n) (.conditional c' y' n')
  | call {callee callee' args args'} (hcallee : C callee callee')
      (h : List.Forall₂ R args args') : Rel R (.call callee args) (.call callee' args')
  | member {e e'} (h : R e e') (name : String) : Rel R (.member e name) (.member e' name)
  | index {t t' i i'} (ht : R t t') (hi : R i i') : Rel R (.index t i) (.index t' i')
  | cast {ty ty' e e'} (hty : T ty ty') (h : R e e') : Rel R (.cast ty e) (.cast ty' e')
  | assign (op : AssignOp) {t t' v v'} (ht : R t t') (hv : R v v') :
      Rel R (.assign op t v) (.assign op t' v')
  | paren {e e'} (h : R e e') : Rel R (.paren e) (.paren e')
  | error : Rel R .error .error

/-- Declarations of one name over related values. -/
structure VarDecl.Rel {α β : Type} (R : α → β → Prop) (d : VarDecl α) (d' : VarDecl β) : Prop where
  name : d'.name = d.name
  type : T d.type d'.type
  init : Option.Rel R d.init d'.init
  span : d'.span = d.span

/-- Statements of one form over related expressions. -/
inductive StmtForm.Rel {α β τ : Type} (R : α → β → Prop) : StmtForm α τ → StmtForm β τ → Prop where
  | expr {e e'} (h : R e e') : Rel R (.expr e) (.expr e')
  | declare {d d'} (h : VarDecl.Rel T R d d') : Rel R (.declare d) (.declare d')
  | block (body : List τ) : Rel R (.block body) (.block body)
  | ifElse {c c'} (h : R c c') (yes : τ) (no : Option τ) :
      Rel R (.ifElse c yes no) (.ifElse c' yes no)
  | forLoop (init : Option τ) {c c' s s'} (hc : Option.Rel R c c') (hs : Option.Rel R s s')
      (body : τ) : Rel R (.forLoop init c s body) (.forLoop init c' s' body)
  | whileLoop {c c'} (h : R c c') (body : τ) : Rel R (.whileLoop c body) (.whileLoop c' body)
  | returns {v v'} (h : Option.Rel R v v') : Rel R (.returns v) (.returns v')
  | discard : Rel R .discard .discard
  | breakLoop : Rel R .breakLoop .breakLoop
  | continueLoop : Rel R .continueLoop .continueLoop
  | empty : Rel R .empty .empty

end Forms

variable {T : WrittenType → WrittenType → Prop} {C : String → String → Prop}

namespace ExprForm.Rel

theorem refl (hT : ∀ w, T w w) (hC : ∀ c, C c c) {α : Type} (form : ExprForm α) :
    form.Rel T C Eq form := by
  cases form <;> constructor <;> first | rfl | exact hT _ | exact hC _ | exact List.forall₂_refl _

theorem imp {α β : Type} {R R' : α → β → Prop} {form : ExprForm α} {form' : ExprForm β}
    (h : form.Rel T C R form') (himp : ∀ a b, R a b → R' a b) : form.Rel T C R' form' := by
  cases h with
  | literal v => exact .literal v
  | ident name => exact .ident name
  | unary op he => exact .unary op (himp _ _ he)
  | binary op hl hr => exact .binary op (himp _ _ hl) (himp _ _ hr)
  | conditional hc hy hn => exact .conditional (himp _ _ hc) (himp _ _ hy) (himp _ _ hn)
  | call hcallee hargs => exact .call hcallee (hargs.imp himp)
  | member he name => exact .member (himp _ _ he) name
  | index ht hi => exact .index (himp _ _ ht) (himp _ _ hi)
  | cast hty he => exact .cast hty (himp _ _ he)
  | assign op ht hv => exact .assign op (himp _ _ ht) (himp _ _ hv)
  | paren he => exact .paren (himp _ _ he)
  | error => exact .error

/-- Forms with equal parts are equal. -/
theorem eq {α : Type} {form form' : ExprForm α} (h : form.Rel Eq Eq Eq form') : form' = form := by
  cases h <;> simp_all [List.forall₂_eq_eq_eq]

/-- Related forms have their children in common. -/
theorem children {α : Type} {form form' : ExprForm α} (h : form.Rel T C Eq form') :
    form'.children = form.children := by
  cases h <;> simp_all [ExprForm.children, List.forall₂_eq_eq_eq]

/-- Forms of the same children, of which related things are seen. -/
theorem mapM {lenient : Prop} {α β γ ω : Type} {R : β → γ → Prop} {form form' : ExprForm α}
    (h : form.Rel T C Eq form') {f : α → Except ω β} {g : α → Except ω γ}
    (hfg : ∀ c ∈ form.children, Together lenient R (f c) (g c)) :
    Together lenient (ExprForm.Rel T C R) (form.mapM f) (form'.mapM g) := by
  cases h with
  | literal v => exact .literal v
  | ident name => exact .ident name
  | error => exact .error
  | unary op he =>
    subst he
    exact (hfg _ (by simp [ExprForm.children])).bind fun _ _ h => .unary op h
  | member he name =>
    subst he
    exact (hfg _ (by simp [ExprForm.children])).bind fun _ _ h => .member h name
  | cast hty he =>
    subst he
    exact (hfg _ (by simp [ExprForm.children])).bind fun _ _ h => .cast hty h
  | paren he =>
    subst he
    exact (hfg _ (by simp [ExprForm.children])).bind fun _ _ h => .paren h
  | binary op hl hr =>
    subst hl hr
    exact (hfg _ (by simp [ExprForm.children])).bind fun _ _ hl =>
      (hfg _ (by simp [ExprForm.children])).bind fun _ _ hr => .binary op hl hr
  | index ht hi =>
    subst ht hi
    exact (hfg _ (by simp [ExprForm.children])).bind fun _ _ ht =>
      (hfg _ (by simp [ExprForm.children])).bind fun _ _ hi => .index ht hi
  | assign op ht hv =>
    subst ht hv
    exact (hfg _ (by simp [ExprForm.children])).bind fun _ _ ht =>
      (hfg _ (by simp [ExprForm.children])).bind fun _ _ hv => .assign op ht hv
  | conditional hc hy hn =>
    subst hc hy hn
    exact (hfg _ (by simp [ExprForm.children])).bind fun _ _ hc =>
      (hfg _ (by simp [ExprForm.children])).bind fun _ _ hy =>
        (hfg _ (by simp [ExprForm.children])).bind fun _ _ hn => .conditional hc hy hn
  | call hcallee hargs =>
    rw [List.forall₂_eq_eq_eq] at hargs
    subst hargs
    exact (Together.mapM hfg).bind fun _ _ hargs => .call hcallee hargs

end ExprForm.Rel

theorem eq_of_optionRel {α : Type} {o o' : Option α} (h : Option.Rel Eq o o') : o' = o := by
  cases h with
  | some h => rw [h]
  | none => rfl

theorem StmtForm.Rel.refl (hT : ∀ w, T w w) {α τ : Type} (form : StmtForm α τ) :
    form.Rel T Eq form := by
  have hoption (o : Option α) : Option.Rel Eq o o := by
    cases o with
    | none => exact .none
    | some a => exact .some rfl
  cases form <;> constructor <;> first | rfl | exact hoption _ | exact ⟨rfl, hT _, hoption _, rfl⟩

theorem StmtForm.Rel.eq {α τ : Type} {form form' : StmtForm α τ} (h : form.Rel Eq Eq form') :
    form' = form := by
  cases h with
  | @declare d d' h =>
    obtain ⟨name, type, init, span⟩ := d
    obtain ⟨name', type', init', span'⟩ := d'
    obtain ⟨hname, htype, hinit, hspan⟩ := h
    dsimp only at hname htype hinit hspan
    rw [hname, htype, eq_of_optionRel hinit, hspan]
  | forLoop init hc hs body => rw [eq_of_optionRel hc, eq_of_optionRel hs]
  | returns h => rw [eq_of_optionRel h]
  | _ => simp_all

theorem StmtForm.Rel.imp {α β τ : Type} {R R' : α → β → Prop} {form : StmtForm α τ}
    {form' : StmtForm β τ} (h : form.Rel T R form') (himp : ∀ a b, R a b → R' a b) :
    form.Rel T R' form' := by
  have hoption {o : Option α} {o' : Option β} (h : Option.Rel R o o') : Option.Rel R' o o' := by
    cases h with
    | some h => exact .some (himp _ _ h)
    | none => exact .none
  cases h with
  | expr he => exact .expr (himp _ _ he)
  | declare hd => exact .declare ⟨hd.name, hd.type, hoption hd.init, hd.span⟩
  | block body => exact .block body
  | ifElse hc yes no => exact .ifElse (himp _ _ hc) yes no
  | forLoop init hc hs body => exact .forLoop init (hoption hc) (hoption hs) body
  | whileLoop hc body => exact .whileLoop (himp _ _ hc) body
  | returns hv => exact .returns (hoption hv)
  | discard => exact .discard
  | breakLoop => exact .breakLoop
  | continueLoop => exact .continueLoop
  | empty => exact .empty

theorem StmtForm.Rel.children {α τ : Type} {form form' : StmtForm α τ}
    (h : form.Rel T Eq form') : form'.children = form.children := by
  cases h with
  | declare h => simp only [StmtForm.children, eq_of_optionRel h.init]
  | forLoop init hc hs body => rw [eq_of_optionRel hc, eq_of_optionRel hs]
  | returns h => rw [eq_of_optionRel h]
  | _ => simp_all [StmtForm.children]

/-! ## Traversals -/

namespace Transformer

variable {σ σ' : Type}

/-- At each pair of hooks the relation is kept, on the way through the nodes of a set that has the
children of its nodes. -/
structure Lockstep (r : Transformer σ) (r' : Transformer σ') (lenient : Prop)
    (nodes : Set (ExprId ⊕ StmtId)) (Rel : Arena × σ → Arena × σ' → Prop) : Prop where
  size {s s'} : Rel s s' →
    lenient ∨ s'.1.exprs.size = s.1.exprs.size ∧ s'.1.stmts.size = s.1.stmts.size
  expr {s s' id} : Rel s s' → .inl id ∈ nodes →
    Option.Rel (fun e e' => e'.form.children = e.form.children ∧
      ∀ c ∈ e.form.children, .inl c ∈ nodes) (s.1.expr? id) (s'.1.expr? id)
  stmt {s s' id} : Rel s s' → .inr id ∈ nodes →
    Option.Rel (fun stmt stmt' => stmt'.form.children = stmt.form.children ∧
      ∀ c ∈ stmt.form.children, c ∈ nodes) (s.1.stmt? id) (s'.1.stmt? id)
  leaveExpr {s s' id} : Rel s s' → .inl id ∈ nodes →
    Together lenient (fun x x' =>
      Rel (r.storeExpr id x.1 s.1, x.2) (r'.storeExpr id x'.1 s'.1, x'.2))
      (r.leaveExpr s.1 id s.2) (r'.leaveExpr s'.1 id s'.2)
  enterStmt {s s' id} : Rel s s' → .inr id ∈ nodes →
    Together lenient (fun z z' => Rel (s.1, z) (s'.1, z'))
      (r.enterStmt s.1 id s.2) (r'.enterStmt s'.1 id s'.2)
  leaveStmt {s s' id} : Rel s s' → .inr id ∈ nodes →
    Together lenient (fun x x' =>
      Rel (r.storeStmt id x.1 s.1, x.2) (r'.storeStmt id x'.1 s'.1, x'.2))
      (r.leaveStmt s.1 id s.2) (r'.leaveStmt s'.1 id s'.2)

end Transformer

/-- Nodes that are looked up in two arenas. -/
theorem Arena.expr_together {lenient : Prop} {R : Expr → Expr → Prop} {a a' : Arena} {id : ExprId}
    (h : Option.Rel R (a.expr? id) (a'.expr? id)) :
    Together lenient (fun e e' => R e e' ∧ a.expr? id = some e ∧ a'.expr? id = some e')
      (a.expr id) (a'.expr id) := by
  unfold Arena.expr
  generalize a.expr? id = e, a'.expr? id = e' at h ⊢
  cases h with
  | some h => exact ⟨h, rfl, rfl⟩
  | none => trivial

theorem Arena.stmt_together {lenient : Prop} {R : Stmt → Stmt → Prop} {a a' : Arena} {id : StmtId}
    (h : Option.Rel R (a.stmt? id) (a'.stmt? id)) :
    Together lenient (fun stmt stmt' =>
      R stmt stmt' ∧ a.stmt? id = some stmt ∧ a'.stmt? id = some stmt')
      (a.stmt id) (a'.stmt id) := by
  unfold Arena.stmt
  generalize a.stmt? id = stmt, a'.stmt? id = stmt' at h ⊢
  cases h with
  | some h => exact ⟨h, rfl, rfl⟩
  | none => trivial

namespace Transformer.Lockstep

variable {σ σ' : Type} {r : Transformer σ} {r' : Transformer σ'} {lenient : Prop}
  {nodes : Set (ExprId ⊕ StmtId)} {Rel : Arena × σ → Arena × σ' → Prop} {s : Arena × σ}
  {s' : Arena × σ'}

/-- Two transformers keep step at an expression. -/
theorem transformExpr (k : r.Lockstep r' lenient nodes Rel) {depth depth' : Nat}
    (hdepth : lenient ∨ depth' = depth) {id : ExprId} (hid : .inl id ∈ nodes) (h : Rel s s') :
    Together lenient Rel (r.transformExpr depth id s) (r'.transformExpr depth' id s') := by
  induction depth generalizing depth' id s s' with
  | zero =>
    cases depth' with
    | zero => trivial
    | succ depth' => exact .error_left (hdepth.resolve_right nofun) _ _
  | succ depth ih =>
    cases depth' with
    | zero => exact .error_right (hdepth.resolve_right nofun) _ _
    | succ depth' =>
      refine (Arena.expr_together (k.expr h hid)).bind fun e e' ⟨⟨hsame, hchildren⟩, _⟩ => ?_
      rw [hsame]
      refine (Together.foldlM (R := Eq) (List.forall₂_refl _) ?_ h).bind fun t t' ht => ?_
      · rintro c _ t t' rfl hc ht
        exact ih (hdepth.imp_right Nat.succ.inj) (hchildren c hc) ht
      · exact (k.leaveExpr ht hid).bind fun x x' hx => hx

/-- They keep step at a row of children. -/
theorem children (k : r.Lockstep r' lenient nodes Rel)
    (walk : StmtId → Arena × σ → Except Fault (Arena × σ))
    (walk' : StmtId → Arena × σ' → Except Fault (Arena × σ')) {l : List (ExprId ⊕ StmtId)}
    (hl : ∀ c ∈ l, c ∈ nodes)
    (stmts : ∀ id s s', .inr id ∈ nodes → Rel s s' →
      Together lenient Rel (walk id s) (walk' id s')) (h : Rel s s') :
    Together lenient Rel (l.foldlM (r.transformChild walk) s)
      (l.foldlM (r'.transformChild walk') s') := by
  refine Together.foldlM (R := Eq) (List.forall₂_refl _) ?_ h
  rintro c _ t t' rfl hc ht
  cases c with
  | inl e =>
    refine k.transformExpr ((k.size ht).imp_right fun hsize => ?_) (hl _ hc) ht
    rw [Arena.exprDepth, Arena.exprDepth, hsize.1]
  | inr id => exact stmts id t t' (hl _ hc) ht

/-- They keep step at a statement. -/
theorem transformStmt (k : r.Lockstep r' lenient nodes Rel) {depth depth' : Nat}
    (hdepth : lenient ∨ depth' = depth) {id : StmtId} (hid : .inr id ∈ nodes) (h : Rel s s') :
    Together lenient Rel (r.transformStmt depth id s) (r'.transformStmt depth' id s') := by
  induction depth generalizing depth' id s s' with
  | zero =>
    cases depth' with
    | zero => trivial
    | succ depth' => exact .error_left (hdepth.resolve_right nofun) _ _
  | succ depth ih =>
    cases depth' with
    | zero => exact .error_right (hdepth.resolve_right nofun) _ _
    | succ depth' =>
      refine (Arena.stmt_together (k.stmt h hid)).bind fun stmt stmt' ⟨⟨hsame, hchildren⟩, _⟩ => ?_
      refine (k.enterStmt h hid).bind fun z z' hz => ?_
      rw [hsame]
      refine (k.children (fun id s => r.transformStmt depth id s)
        (fun id s => r'.transformStmt depth' id s) hchildren ?_ hz).bind fun t t' ht => ?_
      · exact fun id s s' hid h => ih (hdepth.imp_right Nat.succ.inj) hid h
      · exact (k.leaveStmt ht hid).bind fun x x' hx => hx

/-- What the first run keeps by itself is kept in lockstep. -/
theorem also (k : r.Lockstep r' lenient nodes Rel) {P : Arena × σ → Prop}
    (leaveExpr : ∀ {a s id out z}, P (a, s) → .inl id ∈ nodes →
      r.leaveExpr a id s = .ok (out, z) → P (r.storeExpr id out a, z))
    (enterStmt : ∀ {a s id z}, P (a, s) → .inr id ∈ nodes →
      r.enterStmt a id s = .ok z → P (a, z))
    (leaveStmt : ∀ {a s id out z}, P (a, s) → .inr id ∈ nodes →
      r.leaveStmt a id s = .ok (out, z) → P (r.storeStmt id out a, z)) :
    r.Lockstep r' lenient nodes fun s s' => Rel s s' ∧ P s where
  size h := k.size h.1
  expr h hid := k.expr h.1 hid
  stmt h hid := k.stmt h.1 hid
  leaveExpr h hid := (k.leaveExpr h.1 hid).also fun _ hook => leaveExpr h.2 hid hook
  enterStmt h hid := (k.enterStmt h.1 hid).also fun _ hook => enterStmt h.2 hid hook
  leaveStmt h hid := (k.leaveStmt h.1 hid).also fun _ hook => leaveStmt h.2 hid hook

/-- Two items whose children are the same. -/
theorem transformItem (k : r.Lockstep r' lenient nodes Rel) {item item' : Item}
    (same : item'.children = item.children) (hchildren : ∀ c ∈ item.children, c ∈ nodes)
    {Post : Arena × σ → Arena × σ' → Prop}
    (enter : Together lenient (fun z z' => Rel (s.1, z) (s'.1, z'))
      (r.enterItem s.1 item s.2) (r'.enterItem s'.1 item' s'.2))
    (leave : ∀ t t', Rel t t' → Together lenient (fun z z' => Post (t.1, z) (t'.1, z'))
      (r.leaveItem t.1 item t.2) (r'.leaveItem t'.1 item' t'.2)) :
    Together lenient Post (r.transformItem item s) (r'.transformItem item' s') := by
  refine enter.bind fun z z' hz => ?_
  rw [same]
  refine (k.children (fun id s => r.transformStmt s.1.stmtDepth id s)
    (fun id s => r'.transformStmt s.1.stmtDepth id s) hchildren ?_ hz).bind fun t t' ht => ?_
  · intro id t t' hid ht
    refine k.transformStmt ((k.size ht).imp_right fun hsize => ?_) hid ht
    rw [Arena.stmtDepth, Arena.stmtDepth, hsize.2]
  · exact (leave t t' ht).bind fun x x' hx => hx

end Transformer.Lockstep
end ShaderFront
