import ShaderFront.Diagnostic.Record

/-!
# The record of one run

A sink keeps every diagnostic of a run in the order in which they were emitted, with the number of
errors and of warnings. Nothing is ever removed. A limit on errors applies only when the record is
reported: the first errors within the limit, and everything that is not an error, in the order of
their places in the source.
-/

namespace ShaderFront

/-- Evidence that an error was recorded. -/
inductive Guarantee where
  | errorRecorded
  deriving DecidableEq, Repr

namespace Guarantee

/-- There is evidence of an error just if one was counted. -/
def ofErrorCount? (count : Nat) : Option Guarantee :=
  if 0 < count then some .errorRecorded else none

def text : Guarantee → String
  | .errorRecorded => "error(s) emitted"

end Guarantee

/-- The records of a run, with counters that are kept beside them. -/
structure DiagnosticSink where
  records : Array Diagnostic := #[]
  errorCount : Nat := 0
  warningCount : Nat := 0
  deriving DecidableEq, Repr, Inhabited

/-- How many errors are reported by default; zero stands for no limit. -/
def defaultErrorLimit : Nat := 10

namespace DiagnosticSink

/-- Appends a record and counts it by its severity. -/
def emit (s : DiagnosticSink) (d : Diagnostic) : DiagnosticSink where
  records := s.records.push d
  errorCount := if d.severity = .error then s.errorCount + 1 else s.errorCount
  warningCount := if d.severity = .warning then s.warningCount + 1 else s.warningCount

/-- Records a diagnostic as an error, whatever its severity. -/
def emitError (s : DiagnosticSink) (d : Diagnostic) : Guarantee × DiagnosticSink :=
  (.errorRecorded, s.emit { d with severity := .error })

def emitAll (s : DiagnosticSink) (ds : List Diagnostic) : DiagnosticSink := ds.foldl emit s

/-- Records an error at a span. -/
def error (s : DiagnosticSink) (code : Code) (span : Span) (message : String) :
    Guarantee × DiagnosticSink :=
  s.emitError (.located .error code span message)

/-- Records a warning at a span. -/
def warning (s : DiagnosticSink) (code : Code) (span : Span) (message : String) :
    DiagnosticSink :=
  s.emit (.located .warning code span message)

def info (s : DiagnosticSink) (code : Code) (span : Span) (message : String) : DiagnosticSink :=
  s.emit (.located .info code span message)

def size (s : DiagnosticSink) : Nat := s.records.size

def toList (s : DiagnosticSink) : List Diagnostic := s.records.toList

/-- Evidence that an error was recorded, if one was. -/
def hasErrors? (s : DiagnosticSink) : Option Guarantee :=
  Guarantee.ofErrorCount? s.errorCount

/-- The records of one code in their order. -/
def withCode (s : DiagnosticSink) (code : Code) : List Diagnostic :=
  s.toList.filter (·.code == code)

/-- Whether a report under the limit leaves out some errors. -/
def limitReached (s : DiagnosticSink) (limit : Nat) : Bool :=
  0 < limit && limit < s.errorCount

/-- The records without the errors past the limit; `seen` errors came before. -/
def withinLimit (limit : Nat) : (seen : Nat) → List Diagnostic → List Diagnostic
  | _, [] => []
  | seen, d :: rest =>
    if d.isError then
      if limit = 0 ∨ seen < limit then d :: withinLimit limit (seen + 1) rest
      else withinLimit limit (seen + 1) rest
    else d :: withinLimit limit seen rest

/-- Where a record is reported: by file, line and column, and last if it has no place. -/
def reportKey (d : Diagnostic) : Nat × Nat × Nat :=
  match d.primarySpan? with
  | some span => (span.file, span.start.line, span.start.column)
  | none => (4294967295, 0, 0)

/-- Whether a record may stand before another in a report. -/
def reportBefore (a b : Diagnostic) : Bool :=
  let (f, l, c) := reportKey a
  let (f', l', c') := reportKey b
  f < f' || (f == f' && (l < l' || (l == l' && c ≤ c')))

/-- Whether records stand in the order of a report, each one and the next. -/
def inReportOrder : List Diagnostic → Bool
  | a :: b :: rest => reportBefore a b && inReportOrder (b :: rest)
  | _ => true

/-- The records of a report: those within the limit, sorted by place; records at one place keep the
order in which they were emitted. Nothing is sorted that stands in order already. -/
def reportable (s : DiagnosticSink) (limit : Nat) : List Diagnostic :=
  let kept := withinLimit limit 0 s.toList
  if inReportOrder kept then kept else kept.mergeSort reportBefore

@[simp] theorem toList_emit (s : DiagnosticSink) (d : Diagnostic) :
    (s.emit d).toList = s.toList ++ [d] := by
  simp [emit, toList]

@[simp] theorem toList_emitAll (s : DiagnosticSink) (ds : List Diagnostic) :
    (s.emitAll ds).toList = s.toList ++ ds := by
  induction ds generalizing s with
  | nil => simp [emitAll]
  | cons d ds ih =>
    have : s.emitAll (d :: ds) = (s.emit d).emitAll ds := rfl
    rw [this, ih, toList_emit]
    simp

end DiagnosticSink
end ShaderFront
