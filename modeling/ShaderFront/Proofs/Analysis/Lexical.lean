import ShaderFront.Analysis.Checking
import ShaderFront.Proofs.Syntax.Unfold

/-!
# Lexical resolution

What each name in a unit refers to, by the scopes around it. A scope lists what was declared in it,
in order, and the scopes around a place are a list, the innermost first. The globals are one scope,
the parameters of a function another one inside it, and every block and every `for` loop has its
own. Scopes are handed down to what lies inside, and what is declared inside is not handed back, so
nothing has to be done to close a scope.

A name may be declared once in a scope. In the scope directly inside that of the parameters, a
parameter may not be declared either.
-/

namespace ShaderFront

namespace ExprTree

mutual

/-- The names in an expression with their places, in the order in which they are visited. -/
def identifiers : ExprTree → List (String × Span)
  | .node form span => identifiersForm span form

def identifiersForm (span : Span) : ExprForm ExprTree → List (String × Span)
  | .ident name => [(name, span)]
  | .literal _ | .error => []
  | .unary _ e | .member e _ | .cast _ e | .paren e => identifiers e
  | .binary _ l r | .index l r | .assign _ l r => identifiers l ++ identifiers r
  | .conditional c y n => identifiers c ++ identifiers y ++ identifiers n
  | .call _ args => identifiersAll args

def identifiersAll : List ExprTree → List (String × Span)
  | [] => []
  | t :: rest => identifiers t ++ identifiersAll rest

end

theorem identifiersAll_eq (l : List ExprTree) : identifiersAll l = l.flatMap identifiers := by
  induction l with
  | nil => rfl
  | cons t rest ih => rw [identifiersAll, ih, List.flatMap_cons]

theorem identifiers_ident (name : String) (span : Span) :
    (node (.ident name) span).identifiers = [(name, span)] := by
  rw [identifiers, identifiersForm]

/-- Every other form has the names of its children. -/
theorem identifiers_node {form : ExprForm ExprTree} (h : ∀ name, form ≠ .ident name)
    (span : Span) : (node form span).identifiers = form.children.flatMap identifiers := by
  cases form with
  | ident name => exact absurd rfl (h name)
  | call callee args => rw [identifiers, identifiersForm, identifiersAll_eq, ExprForm.children]
  | _ => simp [identifiers, identifiersForm, ExprForm.children]

end ExprTree

namespace Lexical

/-- What a scope belongs to. That of a function has the names of its parameters. -/
inductive ScopeKind where
  | globals
  | parameters (names : List String)
  | statement
  deriving DecidableEq, Repr

/-- The parameters hide their names from declarations in the scope directly inside. -/
def ScopeKind.hides : ScopeKind → String → Bool
  | .parameters names, name => names.contains name
  | .globals, _ | .statement, _ => false

/-- A name that was declared, with its type if it has one. -/
structure Declared where
  name : String
  type : Option Ty
  span : Span
  deriving DecidableEq, Repr

/-- A scope with what has been declared in it so far. -/
structure Scope where
  kind : ScopeKind
  declared : List Declared := []
  deriving DecidableEq, Repr

/-- The first declaration of a name in a scope. -/
def Scope.find? (s : Scope) (name : String) : Option Declared :=
  s.declared.find? (·.name == name)

/-- The scopes around a place, the innermost first. -/
abbrev Sight := List Scope

namespace Sight

/-- What a name refers to: its first declaration in the innermost scope that has one. -/
def resolve (sight : Sight) (name : String) : Option Declared := sight.findSome? (·.find? name)

/-- Whether a name may not be declared any more. -/
def taken : Sight → String → Bool
  | [], _ => false
  | scope :: around, name =>
    (scope.find? name).isSome || around.head?.any (·.kind.hides name)

/-- A scope for what lies inside. -/
def inside (sight : Sight) (kind : ScopeKind) : Sight := ⟨kind, []⟩ :: sight

/-- Adds a declaration to the innermost scope. -/
def add (d : Declared) : Sight → Sight
  | [] => []
  | scope :: around => { scope with declared := scope.declared ++ [d] } :: around

end Sight

/-- A name that is used, and what it refers to. -/
structure Use where
  name : String
  span : Span
  declared : Option Declared
  deriving DecidableEq, Repr

/-- The names that are used in a unit, and the declarations of names that were taken. -/
structure Resolution where
  uses : List Use := []
  rejected : List Declared := []
  deriving DecidableEq, Repr

/-- The scopes around the next declaration, and what was found so far. -/
abbrev Moment := Sight × Resolution

namespace Moment

/-- Declares a name, unless it is taken. -/
def declare (s : Moment) (d : Declared) : Moment :=
  if s.1.taken d.name then (s.1, { s.2 with rejected := s.2.rejected ++ [d] })
  else (s.1.add d, s.2)

/-- The names in an expression refer to what is in sight. -/
def use (s : Moment) (t : ExprTree) : Moment :=
  (s.1, { s.2 with uses := s.2.uses ++ t.identifiers.map fun (name, span) =>
    ⟨name, span, s.1.resolve name⟩ })

end Moment

/-- What a resolution has to be told of a unit: the types of its variables, and the parameters of
its functions. -/
structure Signatures where
  typeOf : String → WrittenType → Option Ty
  params : Function → List Declared

variable (a : Arena) (sigs : Signatures)

/-- Resolves a child of a statement or an item; `walk` resolves a statement. -/
def resolveChild (walk : StmtId → Moment → Except Fault Moment) (s : Moment) :
    ExprId ⊕ StmtId → Except Fault Moment
  | .inl e => return s.use (← a.tree e)
  | .inr id => walk id s

/-- What a declaration declares, where the types are known. -/
def declaredBy (decl : VarDecl ExprId) : Declared :=
  ⟨decl.name, sigs.typeOf decl.name decl.type, decl.span⟩

/-- What is in sight after a statement, of which the children lead from `s` to `t`. What a scope of
its own declares is not; a declaration adds to what is. -/
def pastStmt (s t : Moment) : StmtForm ExprId StmtId → Moment
  | .declare decl => t.declare (declaredBy sigs decl)
  | .block _ | .forLoop .. => (s.1, t.2)
  | _ => t

/-- Resolves the names in a statement. An initial value does not see what it is given to. -/
def resolveStmt : (depth : Nat) → StmtId → Moment → Except Fault Moment
  | 0, _, _ => .error .cyclic
  | depth + 1, id, s => do
    let stmt ← a.stmt id
    let sight := if stmt.form.opensScope then s.1.inside .statement else s.1
    let t ← stmt.form.children.foldlM (resolveChild a (resolveStmt depth)) (sight, s.2)
    return pastStmt sigs s t stmt.form

/-- Resolves the names in an item. -/
def resolveItem (s : Moment) : Item → Except Fault Moment
  | .function f => do
    let params := sigs.params f
    let sight := s.1.inside (.parameters (params.map (·.name)))
    let t ← resolveStmt a sigs a.stmtDepth f.body (params.foldl Moment.declare (sight, s.2))
    return (s.1, t.2)
  | .global decl => do
    let t ← (Item.global decl).children.foldlM
      (resolveChild a (resolveStmt a sigs a.stmtDepth)) s
    return t.declare (declaredBy sigs decl)
  | .struct _ | .typedef _ => return s

/-- Resolves the names in a unit. -/
def resolve (u : ShaderUnit) (sigs : Signatures) : Except Fault Resolution := do
  let s ← u.items.foldlM (resolveItem u.arena sigs) ([⟨.globals, []⟩], {})
  return s.2

theorem pastStmt_scope {form : StmtForm ExprId StmtId} (h : form.opensScope = true)
    (s t : Moment) : pastStmt sigs s t form = (s.1, t.2) := by
  cases form with
  | block | forLoop => rfl
  | _ => cases h

theorem pastStmt_other {form : StmtForm ExprId StmtId} (h : form.opensScope = false)
    (hdecl : ∀ decl, form ≠ .declare decl) (s t : Moment) : pastStmt sigs s t form = t := by
  cases form with
  | declare decl => exact absurd rfl (hdecl decl)
  | block | forLoop => cases h
  | _ => rfl

end Lexical
end ShaderFront
