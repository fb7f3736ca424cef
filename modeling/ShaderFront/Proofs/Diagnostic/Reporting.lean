import Mathlib.Data.List.Induction
import Mathlib.Data.Prod.Lex
import ShaderFront.Diagnostic.Sink
import ShaderFront.Proofs.Diagnostic.StableSort

/-!
# What is reported of a run

A sink counts what it is given and keeps all of it. A report leaves out the errors past the limit,
and of what is left it is the stable sort by place, also if nothing has to be sorted. So a smaller
limit leaves part of what a larger one leaves, and the limit is reached just if something is left
out.

`allowed` says which records the limit leaves by the errors that stand before each; the sink goes
through them with a counter.
-/

namespace ShaderFront

/-- What is done to a sink in a run. -/
inductive Emission where
  | emit (d : Diagnostic)
  /-- Records a diagnostic as an error. -/
  | emitError (d : Diagnostic)
  | error (code : Code) (span : Span) (message : String)
  | warning (code : Code) (span : Span) (message : String)
  | info (code : Code) (span : Span) (message : String)

namespace Emission

/-- One call to a sink. -/
def run (s : DiagnosticSink) : Emission → DiagnosticSink
  | .emit d => s.emit d
  | .emitError d => (s.emitError d).2
  | .error code span message => (s.error code span message).2
  | .warning code span message => s.warning code span message
  | .info code span message => s.info code span message

/-- The diagnostic that is recorded. -/
def record : Emission → Diagnostic
  | .emit d => d
  | .emitError d => { d with severity := .error }
  | .error code span message => .located .error code span message
  | .warning code span message => .located .warning code span message
  | .info code span message => .located .info code span message

theorem run_eq_emit (s : DiagnosticSink) (e : Emission) : e.run s = s.emit e.record := by
  cases e <;> rfl

end Emission

namespace DiagnosticSink

/-- The sink of a run. -/
def ofEmissions (emissions : List Emission) : DiagnosticSink := emissions.foldl Emission.run {}

/-- The records that a limit on errors leaves, if it is not zero: what is no error, and each error
with fewer errors before it than the limit. -/
def allowed (limit : Nat) (records : List Diagnostic) : List Diagnostic :=
  (records.zipIdx.filter fun (d, i) =>
    !d.isError || limit == 0 || (records.take i).countP (·.isError) < limit).map (·.1)

/-- Where the first primary label starts: its file, line and column, compared in that order. What
has no primary label stands where generated code does, behind all files. -/
def firstPlace : List Label → Nat ×ₗ Nat ×ₗ Nat
  | [] => toLex (4294967295, toLex (0, 0))
  | l :: rest =>
    if l.primary then toLex (l.span.file, toLex (l.span.start.line, l.span.start.column))
    else firstPlace rest

/-- The place of a record in a report. -/
def reportPlace (d : Diagnostic) : Nat ×ₗ Nat ×ₗ Nat := firstPlace d.labels

/-! ## Counting -/

/-- The counters are right. -/
structure Counted (s : DiagnosticSink) : Prop where
  errors : s.errorCount = s.toList.countP (·.isError)
  warnings : s.warningCount = s.toList.countP (·.isWarning)

theorem Counted.emit {s : DiagnosticSink} (h : s.Counted) (d : Diagnostic) :
    (s.emit d).Counted := by
  constructor
  · rw [toList_emit, List.countP_append, ← h.errors]
    by_cases hd : d.severity = .error <;> simp [DiagnosticSink.emit, Diagnostic.isError, hd]
  · rw [toList_emit, List.countP_append, ← h.warnings]
    by_cases hd : d.severity = .warning <;> simp [DiagnosticSink.emit, Diagnostic.isWarning, hd]

/-- A run records one diagnostic for each emission, and counts them. -/
theorem run_counted {s : DiagnosticSink} (h : s.Counted) (emissions : List Emission) :
    (emissions.foldl Emission.run s).toList = s.toList ++ emissions.map (·.record) ∧
      (emissions.foldl Emission.run s).Counted := by
  induction emissions generalizing s with
  | nil => exact ⟨(List.append_nil _).symm, h⟩
  | cons e rest ih =>
    obtain ⟨hrecords, hcounted⟩ := ih (h.emit e.record)
    rw [List.foldl_cons, Emission.run_eq_emit]
    exact ⟨by rw [hrecords, toList_emit, List.map_cons, List.append_assoc]; rfl, hcounted⟩

/-! ## The limit -/

section Limit

variable (limit seen : Nat)

theorem withinLimit_append (xs ys : List Diagnostic) :
    withinLimit limit seen (xs ++ ys) =
      withinLimit limit seen xs ++ withinLimit limit (seen + xs.countP (·.isError)) ys := by
  induction xs generalizing seen with
  | nil => rfl
  | cons d xs ih =>
    have hcount : seen + 1 + xs.countP (·.isError) = seen + (xs.countP (·.isError) + 1) := by
      omega
    by_cases hd : d.isError = true
    · by_cases hlimit : limit = 0 ∨ seen < limit <;>
        simp [withinLimit, hd, hlimit, ih, hcount]
    · simp [withinLimit, hd, ih]

/-- What the limit leaves is what is allowed. -/
theorem withinLimit_eq_allowed (records : List Diagnostic) :
    withinLimit limit 0 records = allowed limit records := by
  induction records using List.reverseRecOn with
  | nil => rfl
  | append_singleton records d ih =>
    -- What stands before a record is not changed by a record after it.
    have hbefore : (records.zipIdx.filter fun (x, i) => !x.isError || limit == 0 ||
          ((records ++ [d]).take i).countP (·.isError) < limit) =
        records.zipIdx.filter fun (x, i) => !x.isError || limit == 0 ||
          (records.take i).countP (·.isError) < limit := by
      refine List.filter_congr fun ⟨x, i⟩ hmem => ?_
      have hi : i < records.length := by simpa using (List.mem_zipIdx hmem).2.1
      dsimp only
      rw [List.take_append_of_le_length hi.le]
    rw [withinLimit_append, ih, allowed, allowed, List.zipIdx_append, List.filter_append,
      List.map_append, hbefore, Nat.zero_add]
    congr 1
    by_cases hd : d.isError = true
    · by_cases hlimit : limit = 0 ∨ records.countP (·.isError) < limit <;>
        simp_all [withinLimit]
    · simp [withinLimit, hd]

theorem length_withinLimit (records : List Diagnostic) :
    (withinLimit limit seen records).length = records.countP (!·.isError) +
      if limit = 0 then records.countP (·.isError)
      else min (limit - seen) (records.countP (·.isError)) := by
  induction records generalizing seen with
  | nil => simp [withinLimit]
  | cons d rest ih =>
    by_cases hd : d.isError = true
    · have herrors : (d :: rest).countP (·.isError) = rest.countP (·.isError) + 1 :=
        List.countP_cons_of_pos hd
      have hothers : (d :: rest).countP (!·.isError) = rest.countP (!·.isError) :=
        List.countP_cons_of_neg (by simp [hd])
      rw [herrors, hothers, withinLimit, if_pos hd]
      by_cases hlimit : limit = 0 ∨ seen < limit
      · rw [if_pos hlimit, List.length_cons, ih]
        split <;> omega
      · rw [if_neg hlimit, ih]
        split <;> omega
    · have herrors : (d :: rest).countP (·.isError) = rest.countP (·.isError) :=
        List.countP_cons_of_neg hd
      have hothers : (d :: rest).countP (!·.isError) = rest.countP (!·.isError) + 1 :=
        List.countP_cons_of_pos (by simp [hd])
      rw [herrors, hothers, withinLimit, if_neg hd, List.length_cons, ih]
      omega

/-- A larger limit leaves more. -/
theorem withinLimit_sublist {limit larger : Nat} (h : limit ≠ 0)
    (hlarger : larger = 0 ∨ limit ≤ larger) (seen : Nat) (records : List Diagnostic) :
    (withinLimit limit seen records).Sublist (withinLimit larger seen records) := by
  induction records generalizing seen with
  | nil => exact .slnil
  | cons d rest ih =>
    unfold withinLimit
    split
    · by_cases hkept : seen < limit
      · have hstays : larger = 0 ∨ seen < larger := hlarger.imp_right hkept.trans_le
        rw [if_pos (.inr hkept), if_pos hstays]
        exact (ih _).cons_cons d
      · rw [if_neg (by simp [h, hkept])]
        split
        · exact (ih _).cons d
        · exact ih _
    · exact (ih _).cons_cons d

end Limit

/-! ## The order -/

/-- Records are sorted by the place of the first primary label. -/
theorem reportKey_place (d : Diagnostic) :
    toLex ((reportKey d).1, toLex (reportKey d).2) = reportPlace d := by
  rw [reportPlace, reportKey, Diagnostic.primarySpan?]
  induction d.labels with
  | nil => rfl
  | cons l rest ih =>
    by_cases hprimary : l.primary = true
    · simp [firstPlace, hprimary]
    · simpa [firstPlace, hprimary] using ih

theorem reportBefore_eq (a b : Diagnostic) :
    reportBefore a b = decide (reportPlace a ≤ reportPlace b) := by
  rw [Bool.eq_iff_iff, ← reportKey_place, ← reportKey_place]
  simp [reportBefore, Prod.Lex.toLex_le_toLex]

/-- If every record may stand before the next one, it may stand before all that follow. -/
theorem keysAscend_of_inReportOrder {ds : List Diagnostic} (h : inReportOrder ds = true) :
    KeysAscend reportPlace ds := by
  have : IsTrans Diagnostic fun a b => reportPlace a ≤ reportPlace b := ⟨fun _ _ _ => le_trans⟩
  refine List.isChain_iff_pairwise.1 ?_
  induction ds with
  | nil => exact .nil
  | cons a rest ih =>
    cases rest with
    | nil => exact .singleton a
    | cons b rest =>
      simp only [inReportOrder, reportBefore_eq, Bool.and_eq_true, decide_eq_true_eq] at h
      exact .cons_cons h.1 (ih h.2)

/-- A report is sorted stably, whether or not its records stood in order before. -/
theorem stablySorted_reportable (s : DiagnosticSink) (limit : Nat) :
    StablySorted reportPlace (withinLimit limit 0 s.toList) (s.reportable limit) := by
  simp only [reportable]
  split
  · rename_i hordered
    exact ⟨keysAscend_of_inReportOrder hordered, fun _ => rfl⟩
  · have hbefore : reportBefore = fun a b => decide (reportPlace a ≤ reportPlace b) :=
      funext fun a => funext fun b => reportBefore_eq a b
    rw [hbefore]
    exact stablySorted_mergeSort _

theorem length_reportable (s : DiagnosticSink) (limit : Nat) :
    (s.reportable limit).length = (withinLimit limit 0 s.toList).length := by
  simp only [reportable]
  split
  · rfl
  · exact List.length_mergeSort _

/-- **A report is the stable sort of what the limit leaves.** For the sink of any run:

* it holds one record for each emission, in order, and its counters count the errors and warnings;
* under any limit the report is the one stable sort, by the places of the first primary labels, of
  what is no error and of the first errors up to the limit, and of all errors if the limit is zero;
* the limit is reached just if the report is shorter than the record of the run;
* a limit that is not zero reports part of what a larger one does, and of what is reported without
  a limit. -/
theorem report_stable (emissions : List Emission) :
    let s := ofEmissions emissions
    s.toList = emissions.map (·.record) ∧
    s.errorCount = s.toList.countP (·.isError) ∧
    s.warningCount = s.toList.countP (·.isWarning) ∧
    ∀ limit,
      (∀ report, StablySorted reportPlace (allowed limit s.toList) report ↔
        report = s.reportable limit) ∧
      (s.limitReached limit = true ↔ (s.reportable limit).length < s.size) ∧
      ∀ larger, limit ≠ 0 → (larger = 0 ∨ limit ≤ larger) →
        (s.reportable limit).Sublist (s.reportable larger) := by
  intro s
  obtain ⟨hrecords, hcounted⟩ := run_counted (s := {}) ⟨rfl, rfl⟩ emissions
  refine ⟨hrecords, hcounted.errors, hcounted.warnings, fun limit => ⟨?_, ?_, ?_⟩⟩
  · have hsorted := s.stablySorted_reportable limit
    rw [withinLimit_eq_allowed] at hsorted
    exact fun report => ⟨fun h => hsorted.unique h, fun h => h ▸ hsorted⟩
  · have herrors : s.errorCount = s.toList.countP (·.isError) := hcounted.errors
    have hsize : s.size = s.toList.countP (·.isError) + s.toList.countP (!·.isError) := by
      rw [size, ← Array.length_toList, List.length_eq_countP_add_countP (·.isError)]
      simp [toList]
    rw [length_reportable, length_withinLimit, hsize, limitReached, herrors]
    simp only [Bool.and_eq_true, decide_eq_true_eq]
    split <;> omega
  · intro larger h hlarger
    exact (s.stablySorted_reportable limit).sublist (s.stablySorted_reportable larger)
      (withinLimit_sublist h hlarger 0 s.toList)

/-- A run whose records are out of order. -/
def unordered : List Emission :=
  [.emit { code := .w2001, severity := .warning, message := "nowhere" },
    .error .e2003 (.point 0 3 1) "late",
    .error .e2003 (.point 0 1 1) "past the limit",
    .emit (({ code := .w2001, severity := .warning, message := "early" } : Diagnostic).withSecondary
      (.point 7 9 9) "" |>.withSpan (.point 0 1 5)),
    .info .i0001 (.point 0 1 5) "at the same place"]

/-- What has no primary label is reported last, and what is at one place as it was emitted. -/
theorem report_stable_unordered :
    let s := ofEmissions unordered
    ((s.reportable 1).map (·.message) = ["early", "at the same place", "late", "nowhere"] ∧
      (s.reportable 1).map reportPlace = [toLex (0, toLex (1, 5)), toLex (0, toLex (1, 5)),
        toLex (0, toLex (3, 1)), toLex (4294967295, toLex (0, 0))]) ∧
    StablySorted reportPlace (allowed 1 s.toList) (s.reportable 1) ∧
    (s.reportable 1).Sublist (s.reportable 2) ∧ s.limitReached 1 = true := by
  intro s
  obtain ⟨-, -, -, hreports⟩ := report_stable unordered
  obtain ⟨hsorted, -, hlarger⟩ := hreports 1
  have hreport : [3, 4, 1, 0].filterMap (s.toList[·]?) = s.reportable 1 :=
    (hsorted _).1 (by decide +kernel)
  refine ⟨?_, (hsorted _).2 rfl, hlarger 2 (by decide) (by decide), by decide⟩
  rw [← hreport]
  exact ⟨by decide +kernel, by decide +kernel⟩

end DiagnosticSink
end ShaderFront
