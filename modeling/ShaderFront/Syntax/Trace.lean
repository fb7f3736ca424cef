import ShaderFront.Syntax.Visit

/-!
# Traces

What a visitor meets, in order: a line when an item, a statement or an expression is entered and a
line when it is left. Lines name a node by its kind and the place where it starts. Nodes of skipped
kinds are met but not looked into, so they leave one line each.
-/

namespace ShaderFront

/-- The kind of an expression; literals are told apart. -/
def ExprForm.kind {ε : Type} : ExprForm ε → String
  | .literal (.bool _) => "bool"
  | .literal (.int _) => "int"
  | .literal (.uint _) => "uint"
  | .literal (.half _) => "half"
  | .literal (.float _) => "float"
  | .literal (.double _) => "double"
  | .ident _ => "ident"
  | .unary .. => "unary"
  | .binary .. => "binary"
  | .conditional .. => "cond"
  | .call .. => "call"
  | .member .. => "member"
  | .index .. => "index"
  | .cast .. => "cast"
  | .assign .. => "assign"
  | .paren _ => "paren"
  | .error => "error"

/-- The kind of a statement. -/
def StmtForm.kind {ε τ : Type} : StmtForm ε τ → String
  | .expr _ => "expr"
  | .declare _ => "decl"
  | .block _ => "block"
  | .ifElse .. => "if"
  | .forLoop .. => "for"
  | .whileLoop .. => "while"
  | .returns _ => "return"
  | .discard => "discard"
  | .breakLoop => "break"
  | .continueLoop => "continue"
  | .empty => "empty"

namespace Visitor

/-- The line of a node that is entered. -/
def entryLine (sort kind : String) (span : Span) : String :=
  s!"{sort} {kind} {span.start.line}:{span.start.column}"

/-- Logs what it meets, the last line first. -/
def tracing (skip : List String) : Visitor (List String) where
  enterItem i log := s!"item {i.name}" :: log
  leaveItem i log := s!"end {i.name}" :: log
  enterStmt _ s log := (!skip.contains s.form.kind, entryLine "stmt" s.form.kind s.span :: log)
  leaveStmt _ s log := s!"/{s.form.kind}" :: log
  enterExpr _ e log := (!skip.contains e.form.kind, entryLine "expr" e.form.kind e.span :: log)
  leaveExpr _ e log := s!"/{e.form.kind}" :: log

/-- Logs the ids that it enters, the last one first. -/
def listing : Visitor (List String) where
  enterStmt id _ log := (true, s!"s{id.index}" :: log)
  enterExpr id _ log := (true, s!"e{id.index}" :: log)

end Visitor

/-- The lines of a visit. -/
def ShaderUnit.trace (u : ShaderUnit) (skip : List String) : Except Fault (List String) :=
  ((Visitor.tracing skip).walk u []).map List.reverse

/-- The ids of a visit, statements marked `s` and expressions `e`. -/
def ShaderUnit.visited (u : ShaderUnit) : Except Fault (List String) :=
  (Visitor.listing.walk u []).map List.reverse

end ShaderFront
