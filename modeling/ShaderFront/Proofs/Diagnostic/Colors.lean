import Mathlib.Data.List.TakeWhile
import ShaderFront.Diagnostic.Terminal
import ShaderFront.Proofs.Text.Numerals

/-!
# Colors only decorate

What a run writes to a terminal is a row of records and closing lines (`Output`). With colors each
coloured piece stands between two escape sequences. Deleting every escape sequence leaves what is
written without colors, as long as the reported texts have no escape character themselves
(`colors_decorate`).

Whoever deletes sequences passes over text without the escape character (`deleteEscapes_append`) and
takes a sequence as a whole (`deleteEscapes_escape`), so it is those that were written which go. By
induction on the pieces.
-/

namespace ShaderFront

/-! ## Deleting escape sequences -/

namespace Text

/-- A text without the character that starts escape sequences. -/
def EscapeFree (s : String) : Prop := '\x1b' ∉ s.toList

instance (s : String) : Decidable (EscapeFree s) := inferInstanceAs (Decidable (¬_))

theorem EscapeFree.append {s t : String} (hs : EscapeFree s) (ht : EscapeFree t) :
    EscapeFree (s ++ t) := by
  simpa [EscapeFree] using ⟨hs, ht⟩

theorem EscapeFree.ofNat (n : Nat) : EscapeFree (toString n) := by
  intro hmem
  have hdigits : '\x1b' ∈ Nat.toDigits 10 n := by rwa [← Nat.toList_repr]
  cases isDigit_toDigits n _ hdigits

/-- The parameters of an escape sequence are digits and semicolons. -/
def isParameter (c : Char) : Bool := c.isDigit || c == ';'

/-- The text behind an escape sequence: the escape character, a bracket, parameters and an `m`. -/
def afterEscape? : List Char → Option (List Char)
  | '\x1b' :: '[' :: cs =>
    match cs.dropWhile isParameter with
    | 'm' :: after => some after
    | _ => none
  | _ => none

/-- An escape is not empty, so deleting escapes ends. -/
theorem length_afterEscape? {cs after : List Char} (h : afterEscape? cs = some after) :
    after.length < cs.length := by
  unfold afterEscape? at h
  split at h
  · rename_i cs
    split at h
    · rename_i after hdrop
      cases h
      have hle := (List.dropWhile_suffix (l := cs) isParameter).length_le
      simp only [hdrop, List.length_cons] at hle ⊢
      omega
    · cases h
  · cases h

/-- A text without its escape sequences. -/
def deleteEscapes (cs : List Char) : List Char :=
  match _ : afterEscape? cs with
  | some after => deleteEscapes after
  | none =>
    match cs with
    | [] => []
    | c :: rest => c :: deleteEscapes rest
termination_by cs.length
decreasing_by
  · exact length_afterEscape? ‹_›
  · exact Nat.lt_succ_self _

theorem deleteEscapes_of_some {cs after : List Char} (h : afterEscape? cs = some after) :
    deleteEscapes cs = deleteEscapes after := by
  rw [deleteEscapes]
  split <;> simp_all

theorem deleteEscapes_nil : deleteEscapes [] = [] := by
  rw [deleteEscapes]
  rfl

/-- What starts no escape stays. -/
theorem deleteEscapes_cons {c : Char} (h : c ≠ '\x1b') (cs : List Char) :
    deleteEscapes (c :: cs) = c :: deleteEscapes cs := by
  have hnone : afterEscape? (c :: cs) = none := by
    unfold afterEscape?
    split
    · rename_i heq
      exact absurd (List.cons.inj heq).1 h
    · rfl
  rw [deleteEscapes]
  split <;> simp_all

/-- Text without the escape character is kept. -/
theorem deleteEscapes_append {s : String} (h : EscapeFree s) (rest : List Char) :
    deleteEscapes (s.toList ++ rest) = s.toList ++ deleteEscapes rest := by
  have hchars (cs : List Char) (hcs : '\x1b' ∉ cs) :
      deleteEscapes (cs ++ rest) = cs ++ deleteEscapes rest := by
    induction cs with
    | nil => rfl
    | cons c cs ih =>
      rw [List.mem_cons, not_or] at hcs
      rw [List.cons_append, deleteEscapes_cons (Ne.symm hcs.1), ih hcs.2, List.cons_append]
  exact hchars s.toList h

/-- An escape sequence is deleted. -/
theorem deleteEscapes_escape {code : String} (h : ∀ c ∈ code.toList, isParameter c = true)
    (rest : List Char) :
    deleteEscapes ((Piece.escape code).toList ++ rest) = deleteEscapes rest := by
  have hescape : Piece.escape code = "\x1b[" ++ code ++ "m" := rfl
  have hsequence : (Piece.escape code).toList ++ rest =
      '\x1b' :: '[' :: (code.toList ++ 'm' :: rest) := by
    simp [hescape]
  have hdrop : (code.toList ++ 'm' :: rest).dropWhile isParameter = 'm' :: rest := by
    rw [List.dropWhile_append_of_pos h]
    rfl
  refine deleteEscapes_of_some ?_
  simp only [hsequence, afterEscape?, hdrop]

end Text

open Text

/-! ## Pieces -/

theorem Color.isParameter_code (color : Color) :
    ∀ c ∈ color.code.toList, isParameter c = true := by
  cases color <;> simp [Color.code, isParameter]

/-- A colored piece without its escapes is the piece without colors. -/
theorem Piece.deleteEscapes_render {p : Piece} (h : EscapeFree p.text) (rest : List Char) :
    deleteEscapes ((p.render true).toList ++ rest) =
      (p.render false).toList ++ deleteEscapes rest := by
  obtain ⟨color, text⟩ := p
  cases color with
  | none => exact deleteEscapes_append h rest
  | some color =>
    have hoff : ∀ c ∈ "0".toList, isParameter c = true := by simp [isParameter]
    have hrender : (Piece.render true ⟨some color, text⟩).toList ++ rest =
        (escape color.code).toList ++ (text.toList ++ ((escape "0").toList ++ rest)) := by
      simp [render]
    rw [hrender, deleteEscapes_escape color.isParameter_code, deleteEscapes_append h,
      deleteEscapes_escape hoff]
    rfl

namespace Terminal

theorem toList_renderPieces (colors : Bool) (pieces : List Piece) :
    (renderPieces colors pieces).toList = pieces.flatMap fun p => (p.render colors).toList := by
  rw [renderPieces, String.toList_join, List.flatMap_map]

/-- A row of pieces without its escapes is the row without colors. -/
theorem deleteEscapes_renderPieces {pieces : List Piece} (h : ∀ p ∈ pieces, EscapeFree p.text) :
    deleteEscapes (renderPieces true pieces).toList = (renderPieces false pieces).toList := by
  rw [toList_renderPieces, toList_renderPieces]
  induction pieces with
  | nil => exact deleteEscapes_nil
  | cons p pieces ih =>
    obtain ⟨hp, hpieces⟩ := List.forall_mem_cons.1 h
    rw [List.flatMap_cons, Piece.deleteEscapes_render hp, ih hpieces, List.flatMap_cons]

/-! ## What is written -/

/-- What is written to a terminal at once. -/
inductive Output where
  | record (d : Diagnostic)
  | summary (errors warnings : Nat)

namespace Output

/-- The row of pieces that an output consists of. -/
def pieces (files : SourceFiles) : Output → List Piece
  | .record d => Terminal.pieces files d
  | .summary errors warnings => summaryPieces errors warnings

/-- The texts that are reported have no escape character. -/
def EscapeFree : Output → Prop
  | .record d => Text.EscapeFree d.message ∧ (∀ l ∈ d.labels, Text.EscapeFree l.message) ∧
      (∀ n ∈ d.notes, Text.EscapeFree n) ∧ ∀ s ∈ d.suggestions, Text.EscapeFree s
  | .summary .. => True

end Output

/-- All that a run writes. -/
def write (files : SourceFiles) (colors : Bool) (outputs : List Output) : String :=
  renderPieces colors (outputs.flatMap (·.pieces files))

/-- A report writes its records and then the closing line. -/
theorem report_eq_write (files : SourceFiles) (colors : Bool) (limit : Nat) (s : DiagnosticSink) :
    report files colors limit s = write files colors
      ((s.reportable limit).map .record ++ [.summary s.errorCount s.warningCount]) := by
  simp [report, write, Output.pieces, List.flatMap_map]

variable {files : SourceFiles} {outputs : List Output}

/-- Places have escapes only in their paths. -/
theorem escapeFree_location (paths : ∀ path ∈ files.paths, EscapeFree path) (s : Span) :
    EscapeFree (files.location s) := by
  have hpath : EscapeFree (files.pathText s.file) := by
    unfold SourceFiles.pathText SourceFiles.path?
    cases hfound : files.paths[s.file]? with
    | none => decide
    | some path => exact paths path (Array.mem_of_getElem? hfound)
  have hplace : EscapeFree s.text :=
    ((EscapeFree.ofNat s.start.line).append (by decide)).append (.ofNat s.start.column)
  exact (hpath.append (by decide)).append hplace

theorem escapeFree_labelPieces (paths : ∀ path ∈ files.paths, EscapeFree path) {l : Label}
    (h : EscapeFree l.message) : ∀ p ∈ labelPieces files l, EscapeFree p.text := by
  have hmarker : EscapeFree (Diagnostic.marker l.primary) := by
    cases l.primary <;> decide
  have hplace : EscapeFree s!"  {Diagnostic.marker l.primary} {files.location l.span}" :=
    ((EscapeFree.append (by decide) hmarker).append (by decide)).append
      (escapeFree_location paths l.span)
  unfold labelPieces
  dsimp only
  split
  · simp only [List.forall_mem_cons]
    exact ⟨hplace, by decide, List.forall_mem_nil _⟩
  · simp only [List.forall_mem_cons]
    exact ⟨hplace, by decide, h, by decide, List.forall_mem_nil _⟩

theorem escapeFree_remarkPieces (color : Color) {word remark : String} (hword : EscapeFree word)
    (hremark : EscapeFree remark) : ∀ p ∈ remarkPieces color word remark, EscapeFree p.text := by
  simp only [remarkPieces, List.forall_mem_cons]
  exact ⟨by decide, hword, (EscapeFree.append (by decide) hremark).append (by decide),
    List.forall_mem_nil _⟩

theorem escapeFree_summaryPieces (errors warnings : Nat) :
    ∀ p ∈ summaryPieces errors warnings, EscapeFree p.text := by
  have hcount {before after : String} (hbefore : EscapeFree before) (hafter : EscapeFree after) :
      EscapeFree (before ++ toString warnings ++ " warning" ++ plural warnings ++ after) := by
    have hplural : EscapeFree (plural warnings) := by
      unfold plural
      split <;> decide
    exact (((hbefore.append (.ofNat warnings)).append (by decide)).append hplural).append hafter
  unfold summaryPieces
  dsimp only
  split
  · have hbefore : EscapeFree
        (if errors = 1 then "previous error" else s!"{errors} previous errors") := by
      split
      · decide
      · exact (EscapeFree.ofNat errors).append (by decide)
    have hemitted : EscapeFree (if 0 < warnings then
        s!"; {warnings} warning{plural warnings} emitted" else "") := by
      split
      · exact hcount (by decide) (by decide)
      · decide
    simp only [List.forall_mem_cons]
    exact ⟨by decide, ((EscapeFree.append (by decide) hbefore).append hemitted).append (by decide),
      List.forall_mem_nil _⟩
  · split
    · simp only [List.forall_mem_cons]
      exact ⟨by decide, hcount (by decide) (by decide), List.forall_mem_nil _⟩
    · exact List.forall_mem_nil _

/-- An output has escapes only in what it is made of. -/
theorem escapeFree_pieces (paths : ∀ path ∈ files.paths, EscapeFree path) {o : Output}
    (h : o.EscapeFree) : ∀ p ∈ o.pieces files, EscapeFree p.text := by
  cases o with
  | summary errors warnings => exact escapeFree_summaryPieces errors warnings
  | record d =>
    obtain ⟨hmessage, hlabels, hnotes, hsuggestions⟩ := h
    have hseverity : EscapeFree d.severity.text := by cases d.severity <;> decide
    have hcode : EscapeFree s!"[{d.code.text}]" := by cases d.code <;> decide
    have hname : EscapeFree d.code.name := by cases d.code <;> decide
    have hheader : EscapeFree s!": {d.message} ({d.code.name})\n" :=
      (((EscapeFree.append (by decide) hmessage).append (by decide)).append hname).append
        (by decide)
    simp only [Output.pieces, Terminal.pieces, List.forall_mem_append, List.forall_mem_cons,
      List.forall_mem_flatMap]
    refine ⟨⟨⟨⟨⟨hseverity, hcode, hheader, List.forall_mem_nil _⟩, fun l hl => ?_⟩, fun n hn => ?_⟩,
      fun s hs => ?_⟩, by decide, List.forall_mem_nil _⟩
    · exact escapeFree_labelPieces paths (hlabels l hl)
    · exact escapeFree_remarkPieces .bold (by decide) (hnotes n hn)
    · exact escapeFree_remarkPieces .help (by decide) (hsuggestions s hs)

/-- Whatever is written has a coloured piece. -/
theorem exists_colored (files : SourceFiles) {o : Output} (h : o ≠ .summary 0 0) :
    ∃ color text, Piece.colored color text ∈ o.pieces files := by
  cases o with
  | record d => exact ⟨.ofSeverity d.severity, d.severity.text, List.mem_cons_self⟩
  | summary errors warnings =>
    simp only [Output.pieces, summaryPieces]
    split
    · exact ⟨_, _, List.mem_cons_self⟩
    · split
      · exact ⟨_, _, List.mem_cons_self⟩
      · obtain ⟨rfl, rfl⟩ : errors = 0 ∧ warnings = 0 := by omega
        exact absurd rfl h

/-- Colors show in every output but an empty summary. -/
theorem escapeFree_colored_iff :
    EscapeFree (write files true outputs) ↔ ∀ o ∈ outputs, o = .summary 0 0 := by
  constructor
  · intro hfree o ho
    by_contra hsome
    obtain ⟨color, text, hpiece⟩ := exists_colored files hsome
    have hmem : '\x1b' ∈ (Piece.render true (.colored color text)).toList := by
      have hrender : Piece.render true (.colored color text) =
          "\x1b[" ++ color.code ++ "m" ++ text ++ Piece.escape "0" := rfl
      simp [hrender]
    refine hfree ?_
    rw [write, toList_renderPieces, List.mem_flatMap]
    exact ⟨_, List.mem_flatMap.2 ⟨o, ho, hpiece⟩, hmem⟩
  · intro hnone
    have hempty : outputs.flatMap (·.pieces files) = [] :=
      List.flatMap_eq_nil_iff.2 fun o ho => by rw [hnone o ho]; rfl
    rw [write, hempty]
    decide

/-- **Colors only decorate.** Let a run write any records and counts, where the texts of the records
and the paths of the files have no escape character:

* what is written with colors is what is written without them, once every escape sequence is
  deleted;
* without colors nothing is written that could be deleted, and with colors something is, unless
  nothing is written at all. -/
theorem colors_decorate (files : SourceFiles) (outputs : List Output)
    (paths : ∀ path ∈ files.paths, EscapeFree path) (texts : ∀ o ∈ outputs, o.EscapeFree) :
    deleteEscapes (write files true outputs).toList = (write files false outputs).toList ∧
    EscapeFree (write files false outputs) ∧
    (EscapeFree (write files true outputs) ↔ ∀ o ∈ outputs, o = .summary 0 0) := by
  have hpieces : ∀ p ∈ outputs.flatMap (·.pieces files), EscapeFree p.text :=
    List.forall_mem_flatMap.2 fun o ho => escapeFree_pieces paths (texts o ho)
  refine ⟨deleteEscapes_renderPieces hpieces, fun hmem => ?_, escapeFree_colored_iff⟩
  rw [write, toList_renderPieces, List.mem_flatMap] at hmem
  obtain ⟨p, hp, hmem⟩ := hmem
  have hrender : p.render false = p.text := by
    unfold Piece.render
    split <;> rfl
  exact hpieces p hp (hrender ▸ hmem)

/-- A record with labels and remarks, and a closing line that counts warnings too. -/
theorem colors_decorate_labelled :
    let files := SourceFiles.ofList ["shaders/lighting.lsl"]
    let d : Diagnostic := {
      code := .e2001
      severity := .error
      message := "cannot deduce type"
      labels := [⟨.point 0 12 18, "operands differ", true⟩, ⟨.dummy, "", false⟩]
      notes := ["[0m is text here"]
      suggestions := ["use a swizzle"] }
    (∀ path ∈ files.paths, EscapeFree path) ∧ (Output.record d).EscapeFree ∧
      deleteEscapes (write files true [.record d, .summary 2 1]).toList =
        (write files false [.record d, .summary 2 1]).toList ∧
      ¬EscapeFree (write files true [.record d, .summary 2 1]) := by
  intro files d
  have paths : ∀ path ∈ files.paths, EscapeFree path := by decide
  have texts : (Output.record d).EscapeFree := by
    simp only [Output.EscapeFree, d]
    decide
  obtain ⟨hdelete, -, hcolored⟩ := colors_decorate files [.record d, .summary 2 1] paths
    (List.forall_mem_cons.2 ⟨texts, List.forall_mem_singleton.2 trivial⟩)
  refine ⟨paths, texts, hdelete, fun hfree => ?_⟩
  exact nomatch hcolored.1 hfree _ List.mem_cons_self

end Terminal
end ShaderFront
