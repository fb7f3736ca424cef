import ShaderFront.Proofs.Json.Lexemes
import ShaderFront.Proofs.Json.NumberLexemes

/-!
# The reader reads what is written

One rule for each form of text: what the reader makes of it, given what it makes of the parts. White
space may stand before every value and after it. The fuel that a text takes is at most twice its
length. Compact texts and texts that are laid out over lines follow these rules, so both are read
back as the tree they were written from.
-/

namespace ShaderFront.Json

/-- White space. -/
def Blank (cs : List Char) : Prop := ∀ c ∈ cs, isSpace c = true

theorem blank_indentation (level : Nat) : Blank (indentation level) := by
  intro c hc
  rw [List.eq_of_mem_replicate hc]
  rfl

theorem skipSpace_blank {gap : List Char} (h : Blank gap) (cs : List Char) :
    skipSpace (gap ++ cs) = skipSpace cs := List.dropWhile_append_of_pos h

theorem skipSpace_visible {c : Char} (h : isSpace c = false) (cs : List Char) :
    skipSpace (c :: cs) = c :: cs := by
  rw [skipSpace, List.dropWhile_cons, h, if_neg Bool.false_ne_true]

theorem skipSpace_skipSpace (cs : List Char) : skipSpace (skipSpace cs) = skipSpace cs := by
  induction cs with
  | nil => rfl
  | cons c cs ih =>
    cases h : isSpace c with
    | true => rwa [show skipSpace (c :: cs) = skipSpace cs from by simp [skipSpace, h]]
    | false => rw [skipSpace_visible h, skipSpace_visible h]

theorem length_skipSpace (cs : List Char) : (skipSpace cs).length ≤ cs.length :=
  (List.dropWhile_sublist isSpace).length_le

/-- White space before a value does not matter. -/
theorem readValue?_skipSpace {fuel : Nat} {cs other : List Char}
    (h : skipSpace cs = skipSpace other) : readValue? fuel cs = readValue? fuel other := by
  cases fuel with
  | zero => simp only [readValue?]
  | succ fuel => simp only [readValue?, h]

theorem readItems?_skipSpace {fuel : Nat} {cs other : List Char}
    (h : skipSpace cs = skipSpace other) : readItems? fuel cs = readItems? fuel other := by
  cases fuel with
  | zero => simp only [readItems?]
  | succ fuel => simp only [readItems?, readValue?_skipSpace h]

theorem readMembers?_skipSpace {fuel : Nat} {cs other : List Char}
    (h : skipSpace cs = skipSpace other) : readMembers? fuel cs = readMembers? fuel other := by
  cases fuel with
  | zero => simp only [readMembers?]
  | succ fuel => simp only [readMembers?, h]

/-! ## Rules -/

/-- A value is read, and `rest` is left. -/
structure Reads (cs : List Char) (j : Json) (rest : List Char) : Prop where
  shorter : rest.length < cs.length
  read (fuel : Nat) : 2 * cs.length ≤ fuel + 2 * rest.length →
    readValue? fuel cs = some (j, rest)

/-- The items of an array are read with the closing bracket. -/
structure ReadsItems (cs : List Char) (items : List Json) (rest : List Char) : Prop where
  shorter : rest.length < cs.length
  opens : (skipSpace cs).head? ≠ some ']'
  read (fuel : Nat) : 2 * cs.length ≤ fuel + 2 * rest.length →
    readItems? fuel cs = some (items, rest)

/-- The members of an object are read with the closing brace. -/
structure ReadsMembers (cs : List Char) (members : List (List Char × Json))
    (rest : List Char) : Prop where
  shorter : rest.length < cs.length
  opens : (skipSpace cs).head? = some '"'
  read (fuel : Nat) : 2 * cs.length ≤ fuel + 2 * rest.length →
    readMembers? fuel cs = some (members, rest)

variable {gap cs further after rest key text : List Char} {j : Json} {items : List Json}
  {members : List (List Char × Json)}

/-- What is shorter takes some fuel. -/
theorem exists_fuel {fuel : Nat} (shorter : rest.length < cs.length)
    (h : 2 * cs.length ≤ fuel + 2 * rest.length) : ∃ k, fuel = k + 1 :=
  Nat.exists_eq_succ_of_ne_zero (by omega)

namespace Reads

/-- A value after white space. -/
theorem blank (h : Reads cs j rest) (hgap : Blank gap) : Reads (gap ++ cs) j rest where
  shorter := by
    have := h.shorter
    rw [List.length_append]
    omega
  read _ hfuel := by
    rw [List.length_append] at hfuel
    rw [readValue?_skipSpace (skipSpace_blank hgap cs)]
    exact h.read _ (by omega)

/-- A value that takes no fuel but for itself. -/
theorem leaf (shorter : rest.length < cs.length)
    (h : ∀ fuel, readValue? (fuel + 1) cs = some (j, rest)) : Reads cs j rest where
  shorter := shorter
  read _ hfuel := by
    obtain ⟨k, rfl⟩ := exists_fuel shorter hfuel
    exact h k

theorem null (rest : List Char) : Reads ('n' :: 'u' :: 'l' :: 'l' :: rest) .null rest :=
  leaf (by simp; omega) fun _ => by simp [readValue?, skipSpace_visible, isSpace, skipWord?]

theorem bool_true (rest : List Char) :
    Reads ('t' :: 'r' :: 'u' :: 'e' :: rest) (.bool true) rest :=
  leaf (by simp; omega) fun _ => by simp [readValue?, skipSpace_visible, isSpace, skipWord?]

theorem bool_false (rest : List Char) :
    Reads ('f' :: 'a' :: 'l' :: 's' :: 'e' :: rest) (.bool false) rest :=
  leaf (by simp; omega) fun _ => by simp [readValue?, skipSpace_visible, isSpace, skipWord?]

theorem string (h : Writes key text) (rest : List Char) :
    Reads (quote key rest) (.string key) rest :=
  leaf (by simp [quote]; omega) fun _ => by
    simp [quote, readValue?, skipSpace_visible, isSpace, h.readString? rest]

theorem number {l : Cache.Lexeme} (h : l.Formed) (delimited : Delimited rest) :
    Reads (l.chars ++ rest) (.number l.chars) rest := by
  have hread := h.readNumber? delimited
  obtain ⟨c, cs, hchars, hc⟩ := h.eq_cons
  rw [hchars] at hread ⊢
  have hother : ∀ other : Char, other.isDigit = false → other ≠ '-' → c ≠ other := by
    rintro other hdigit hsign rfl
    rcases hc with hc | hc
    · cases hdigit.symm.trans hc
    · exact hsign hc
  have hvisible : isSpace c = false := by
    simp [isSpace, hother ' ' rfl (by decide), hother '\t' rfl (by decide),
      hother '\n' rfl (by decide), hother '\r' rfl (by decide)]
  rw [List.cons_append] at hread
  have hshorter : rest.length < (c :: (cs ++ rest)).length := by
    rw [List.length_cons, List.length_append]
    omega
  refine leaf hshorter fun _ => ?_
  simp [readValue?, skipSpace_visible hvisible, hother '"' rfl (by decide),
    hother '[' rfl (by decide), hother '\x7b' rfl (by decide), hother 'n' rfl (by decide),
    hother 't' rfl (by decide), hother 'f' rfl (by decide), hread]

theorem emptyArray (hgap : Blank gap) (rest : List Char) :
    Reads ('[' :: (gap ++ ']' :: rest)) (.array []) rest :=
  leaf (by simp; omega) fun _ => by
    simp [readValue?, skipSpace_visible, isSpace, skipSpace_blank hgap]

theorem emptyObject (hgap : Blank gap) (rest : List Char) :
    Reads ('\x7b' :: (gap ++ '\x7d' :: rest)) (.object []) rest :=
  leaf (by simp; omega) fun _ => by
    simp [readValue?, skipSpace_visible, isSpace, skipSpace_blank hgap]

/-- No value starts with a closing bracket. -/
theorem opens (h : Reads cs j rest) : (skipSpace cs).head? ≠ some ']' := by
  intro hhead
  obtain ⟨more, hcs⟩ := List.head?_eq_some_iff.1 hhead
  have hread := h.read (2 * cs.length + 1) (by omega)
  rw [readValue?, hcs] at hread
  simp [readNumber?, readWhole?, readDigits?, Char.isDigit] at hread

theorem array (h : ReadsItems cs items rest) : Reads ('[' :: cs) (.array items) rest where
  shorter := Nat.lt_succ_of_lt h.shorter
  read _ hfuel := by
    obtain ⟨k, rfl⟩ := exists_fuel (Nat.lt_succ_of_lt h.shorter) hfuel
    rw [List.length_cons] at hfuel
    have hitems := h.read k (by omega)
    rw [← readItems?_skipSpace (skipSpace_skipSpace cs)] at hitems
    have hopens : ∀ more, skipSpace cs ≠ ']' :: more := fun more heq => h.opens (by rw [heq]; rfl)
    simp [readValue?, skipSpace_visible, isSpace, hitems]

theorem object (h : ReadsMembers cs members rest) :
    Reads ('\x7b' :: cs) (.object members) rest where
  shorter := Nat.lt_succ_of_lt h.shorter
  read _ hfuel := by
    obtain ⟨k, rfl⟩ := exists_fuel (Nat.lt_succ_of_lt h.shorter) hfuel
    rw [List.length_cons] at hfuel
    have hmembers := h.read k (by omega)
    rw [← readMembers?_skipSpace (skipSpace_skipSpace cs)] at hmembers
    have hopens : ∀ more, skipSpace cs ≠ '\x7d' :: more := by
      intro more heq
      cases (congrArg List.head? heq).symm.trans h.opens
    simp [readValue?, skipSpace_visible, isSpace, hmembers]

end Reads

namespace ReadsItems

/-- The last item. -/
theorem last (h : Reads cs j after) (closes : skipSpace after = ']' :: rest) :
    ReadsItems cs [j] rest where
  shorter := by
    have hlength := length_skipSpace after
    rw [closes, List.length_cons] at hlength
    have := h.shorter
    omega
  opens := h.opens
  read _ hfuel := by
    have hlength := length_skipSpace after
    rw [closes, List.length_cons] at hlength
    have := h.shorter
    obtain ⟨k, rfl⟩ := exists_fuel (show rest.length < cs.length by omega) hfuel
    simp [readItems?, h.read k (by omega), closes]

/-- An item before others. -/
theorem more (h : Reads cs j after) (comma : skipSpace after = ',' :: further)
    (hmore : ReadsItems further items rest) : ReadsItems cs (j :: items) rest where
  shorter := by
    have hlength := length_skipSpace after
    rw [comma, List.length_cons] at hlength
    have := h.shorter
    have := hmore.shorter
    omega
  opens := h.opens
  read _ hfuel := by
    have hlength := length_skipSpace after
    rw [comma, List.length_cons] at hlength
    have := h.shorter
    have := hmore.shorter
    obtain ⟨k, rfl⟩ := exists_fuel (show rest.length < cs.length by omega) hfuel
    simp [readItems?, h.read k (by omega), comma, hmore.read k (by omega)]

theorem blank (h : ReadsItems cs items rest) (hgap : Blank gap) :
    ReadsItems (gap ++ cs) items rest where
  shorter := by
    have := h.shorter
    rw [List.length_append]
    omega
  opens := by
    rw [skipSpace_blank hgap]
    exact h.opens
  read _ hfuel := by
    rw [List.length_append] at hfuel
    rw [readItems?_skipSpace (skipSpace_blank hgap cs)]
    exact h.read _ (by omega)

end ReadsItems

namespace ReadsMembers

/-- The last member. -/
theorem last (hkey : Writes key text) (h : Reads cs j after)
    (closes : skipSpace after = '\x7d' :: rest) :
    ReadsMembers (quote key (':' :: cs)) [(key, j)] rest := by
  have hlength := length_skipSpace after
  rw [closes, List.length_cons] at hlength
  have hvalue := h.shorter
  have hshorter : rest.length < (quote key (':' :: cs)).length := by
    simp [quote]
    omega
  refine ⟨hshorter, rfl, fun _ hfuel => ?_⟩
  obtain ⟨k, rfl⟩ := exists_fuel hshorter hfuel
  simp only [quote, List.cons_append, List.length_cons, List.length_append] at hfuel
  simp [quote, readMembers?, skipSpace_visible, isSpace, hkey.readString?,
    h.read k (by omega), closes]

/-- A member before others. -/
theorem more (hkey : Writes key text) (h : Reads cs j after)
    (comma : skipSpace after = ',' :: further) (hmore : ReadsMembers further members rest) :
    ReadsMembers (quote key (':' :: cs)) ((key, j) :: members) rest := by
  have hlength := length_skipSpace after
  rw [comma, List.length_cons] at hlength
  have hvalue := h.shorter
  have hrest := hmore.shorter
  have hshorter : rest.length < (quote key (':' :: cs)).length := by
    simp [quote]
    omega
  refine ⟨hshorter, rfl, fun _ hfuel => ?_⟩
  obtain ⟨k, rfl⟩ := exists_fuel hshorter hfuel
  simp only [quote, List.cons_append, List.length_cons, List.length_append] at hfuel
  simp [quote, readMembers?, skipSpace_visible, isSpace, hkey.readString?,
    h.read k (by omega), comma, hmore.read k (by omega)]

theorem blank (h : ReadsMembers cs members rest) (hgap : Blank gap) :
    ReadsMembers (gap ++ cs) members rest where
  shorter := by
    have := h.shorter
    rw [List.length_append]
    omega
  opens := by
    rw [skipSpace_blank hgap]
    exact h.opens
  read _ hfuel := by
    rw [List.length_append] at hfuel
    rw [readMembers?_skipSpace (skipSpace_blank hgap cs)]
    exact h.read _ (by omega)

end ReadsMembers

/-! ## Trees -/

/-- All lexemes of a tree are lexemes of texts and of whole numbers. -/
inductive Legal : Json → Prop where
  | null : Legal .null
  | bool (b : Bool) : Legal (.bool b)
  | number {lexeme : List Char} (whole : Whole lexeme) : Legal (.number lexeme)
  | string {lexeme text : List Char} (writes : Writes lexeme text) : Legal (.string lexeme)
  | array {items : List Json} (items_legal : ∀ j ∈ items, Legal j) : Legal (.array items)
  | object {members : List (List Char × Json)}
      (keys : ∀ member ∈ members, ∃ text, Writes member.1 text)
      (values : ∀ member ∈ members, Legal member.2) : Legal (.object members)

theorem Legal.emptyObject : (Json.object []).Legal :=
  .object (List.forall_mem_nil _) (List.forall_mem_nil _)

/-- An object with another member, which has a name without escapes. -/
theorem Legal.member {name : String} {j : Json} {members : List (List Char × Json)}
    (plain : Plain name) (h : j.Legal) (rest : (Json.object members).Legal) :
    (Json.object ((name.toList, j) :: members)).Legal := by
  cases rest with
  | object keys values =>
    exact .object (List.forall_mem_cons.2 ⟨⟨_, plain.writes⟩, keys⟩)
      (List.forall_mem_cons.2 ⟨h, values⟩)

/-- No number goes on with what stands after a value. -/
theorem delimited_separator {c : Char} (h : c ∈ ['\n', ',', ']', '\x7d']) (rest : List Char) :
    Delimited (c :: rest) := by
  rintro _ ⟨⟩
  simp only [List.mem_cons, List.not_mem_nil, or_false] at h
  rcases h with rfl | rfl | rfl | rfl <;> decide

/-- Values in a row as `renderItems` writes them. -/
theorem readsItems_render (items : List Json)
    (h : ∀ j ∈ items, ∀ rest, Delimited rest → Reads (j.renderTo rest) j rest) (rest : List Char)
    (j : Json) (hj : ∀ rest, Delimited rest → Reads (j.renderTo rest) j rest) :
    ReadsItems (j.renderTo (renderItems items rest)) (j :: items) rest := by
  induction items generalizing j with
  | nil =>
    rw [renderItems]
    exact .last (hj _ (delimited_separator (by decide) rest)) rfl
  | cons item items ih =>
    obtain ⟨hitem, hitems⟩ := List.forall_mem_cons.1 h
    rw [renderItems]
    exact .more (hj _ (delimited_separator (by decide) _)) rfl (ih hitems item hitem)

/-- Members in a row as `renderMembers` writes them. -/
theorem readsMembers_render (members : List (List Char × Json))
    (keys : ∀ member ∈ members, ∃ text, Writes member.1 text)
    (h : ∀ member ∈ members, ∀ rest, Delimited rest →
      Reads (member.2.renderTo rest) member.2 rest) (rest : List Char)
    (member : List Char × Json) (hkey : ∃ text, Writes member.1 text)
    (hmember : ∀ rest, Delimited rest → Reads (member.2.renderTo rest) member.2 rest) :
    ReadsMembers (quote member.1 (':' :: member.2.renderTo (renderMembers members rest)))
      (member :: members) rest := by
  obtain ⟨text, hwrites⟩ := hkey
  induction members generalizing member text with
  | nil =>
    rw [renderMembers]
    exact .last hwrites (hmember _ (delimited_separator (by decide) rest)) rfl
  | cons next members ih =>
    obtain ⟨hnext, hmembers⟩ := List.forall_mem_cons.1 h
    obtain ⟨⟨text', hwrites'⟩, hkeys⟩ := List.forall_mem_cons.1 keys
    rw [renderMembers]
    exact .more hwrites (hmember _ (delimited_separator (by decide) _)) rfl
      (ih hkeys hmembers next hnext text' hwrites')

/-- **A compact text is read as its tree.** -/
theorem Legal.reads_renderTo {j : Json} (h : j.Legal) {rest : List Char}
    (delimited : Delimited rest) : Reads (j.renderTo rest) j rest := by
  induction h generalizing rest with
  | null => exact .null rest
  | bool b =>
    cases b with
    | true => exact .bool_true rest
    | false => exact .bool_false rest
  | number whole =>
    obtain ⟨l, hl, rfl⟩ := whole.exists_formed
    rw [renderTo]
    exact .number hl delimited
  | string writes =>
    rw [renderTo]
    exact .string writes rest
  | @array items _ ih =>
    cases items with
    | nil =>
      rw [renderTo]
      exact .emptyArray (List.forall_mem_nil _) rest
    | cons item items =>
      obtain ⟨hitem, hitems⟩ := List.forall_mem_cons.1 ih
      rw [renderTo]
      exact .array (readsItems_render items (fun j hj _ => hitems j hj) rest item fun _ => hitem)
  | @object members keys _ ih =>
    cases members with
    | nil =>
      rw [renderTo]
      exact .emptyObject (List.forall_mem_nil _) rest
    | cons member members =>
      obtain ⟨hmember, hmembers⟩ := List.forall_mem_cons.1 ih
      obtain ⟨hkey, hkeys⟩ := List.forall_mem_cons.1 keys
      rw [renderTo]
      exact .object (readsMembers_render members hkeys (fun m hm _ => hmembers m hm) rest member
        hkey fun _ => hmember)

theorem blank_newline : Blank ['\n'] := by simp [Blank, isSpace]

/-- Values in a row as `layOutItems` writes them. -/
theorem readsItems_layOut (level : Nat) (items : List Json)
    (h : ∀ j ∈ items, ∀ rest, Delimited rest → Reads (j.layOut (level + 1) rest) j rest) (j : Json)
    (hj : ∀ rest, Delimited rest → Reads (j.layOut (level + 1) rest) j rest)
    (closes : skipSpace after = ']' :: rest) :
    ReadsItems (layOutItems level (j :: items) after) (j :: items) rest := by
  induction items generalizing j with
  | nil =>
    rw [layOutItems]
    refine ReadsItems.blank (.last (hj _ ?_) ?_) (blank_indentation _)
    · exact delimited_separator (by decide) _
    · exact (skipSpace_blank blank_newline after).trans closes
  | cons item items ih =>
    obtain ⟨hitem, hitems⟩ := List.forall_mem_cons.1 h
    rw [layOutItems]
    · refine ReadsItems.blank (.more (hj _ ?_) rfl ((ih hitems item hitem).blank blank_newline))
        (blank_indentation _)
      exact delimited_separator (by decide) _
    · exact List.cons_ne_nil _ _

/-- Members in a row as `layOutMembers` writes them. -/
theorem readsMembers_layOut (level : Nat) (members : List (List Char × Json))
    (keys : ∀ member ∈ members, ∃ text, Writes member.1 text)
    (h : ∀ member ∈ members, ∀ rest, Delimited rest →
      Reads (member.2.layOut (level + 1) rest) member.2 rest)
    (member : List Char × Json) (hkey : ∃ text, Writes member.1 text)
    (hmember : ∀ rest, Delimited rest → Reads (member.2.layOut (level + 1) rest) member.2 rest)
    (closes : skipSpace after = '\x7d' :: rest) :
    ReadsMembers (layOutMembers level (member :: members) after) (member :: members) rest := by
  have hspace : Blank [' '] := by simp [Blank, isSpace]
  obtain ⟨text, hwrites⟩ := hkey
  induction members generalizing member text with
  | nil =>
    rw [layOutMembers]
    refine ReadsMembers.blank (.last hwrites ((hmember _ ?_).blank hspace) ?_)
      (blank_indentation _)
    · exact delimited_separator (by decide) _
    · exact (skipSpace_blank blank_newline after).trans closes
  | cons next members ih =>
    obtain ⟨hnext, hmembers⟩ := List.forall_mem_cons.1 h
    obtain ⟨⟨text', hwrites'⟩, hkeys⟩ := List.forall_mem_cons.1 keys
    rw [layOutMembers]
    · refine ReadsMembers.blank (.more hwrites ((hmember _ ?_).blank hspace) rfl
        ((ih hkeys hmembers next hnext text' hwrites').blank blank_newline)) (blank_indentation _)
      exact delimited_separator (by decide) _
    · exact List.cons_ne_nil _ _

/-- **A text over several lines is read as its tree.** -/
theorem Legal.reads_layOut {j : Json} (h : j.Legal) (level : Nat) {rest : List Char}
    (delimited : Delimited rest) : Reads (j.layOut level rest) j rest := by
  induction h generalizing level rest with
  | null => exact Legal.null.reads_renderTo delimited
  | bool b => exact (Legal.bool b).reads_renderTo delimited
  | number whole => exact (Legal.number whole).reads_renderTo delimited
  | string writes => exact (Legal.string writes).reads_renderTo delimited
  | @array items _ ih =>
    rw [layOut]
    have hcloses : skipSpace (indentation level ++ ']' :: rest) = ']' :: rest :=
      skipSpace_blank (blank_indentation level) _
    cases items with
    | nil =>
      exact .emptyArray (List.forall_mem_cons.2 ⟨rfl, blank_indentation level⟩) rest
    | cons item items =>
      obtain ⟨hitem, hitems⟩ := List.forall_mem_cons.1 ih
      exact .array ((readsItems_layOut level items (fun j hj _ => hitems j hj (level + 1)) item
        (fun _ => hitem (level + 1)) hcloses).blank blank_newline)
  | @object members keys _ ih =>
    rw [layOut]
    have hcloses : skipSpace (indentation level ++ '\x7d' :: rest) = '\x7d' :: rest :=
      skipSpace_blank (blank_indentation level) _
    cases members with
    | nil =>
      exact .emptyObject (List.forall_mem_cons.2 ⟨rfl, blank_indentation level⟩) rest
    | cons member members =>
      obtain ⟨hmember, hmembers⟩ := List.forall_mem_cons.1 ih
      obtain ⟨hkey, hkeys⟩ := List.forall_mem_cons.1 keys
      exact .object ((readsMembers_layOut level members hkeys
        (fun m hm _ => hmembers m hm (level + 1)) member hkey (fun _ => hmember (level + 1))
        hcloses).blank blank_newline)

/-- A text that holds one value is read. -/
theorem Reads.read? (h : Reads cs j rest) (blank : Blank rest) :
    Json.read? (String.ofList cs) = some j := by
  have hread := h.read (2 * cs.length + 1) (by omega)
  have hrest : skipSpace rest = [] := by
    rw [← List.append_nil rest, skipSpace_blank blank]
    rfl
  simp [Json.read?, hread, hrest]

/-- **What is written compactly is read back.** -/
theorem Legal.read?_render {j : Json} (h : j.Legal) : read? j.render = some j :=
  (h.reads_renderTo delimited_nil).read? (List.forall_mem_nil _)

end ShaderFront.Json
