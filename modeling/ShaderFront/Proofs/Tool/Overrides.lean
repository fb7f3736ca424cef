import Mathlib.Data.List.Induction
import Mathlib.Data.List.TakeWhile
import ShaderFront.Mixin.Recipe
import ShaderFront.Mixin.Script
import ShaderFront.Proofs.Mixin.Parameters
import ShaderFront.Text.Numeral
import ShaderFront.Tool.Overrides

/-!
# Reading parameter overrides

A text reads to a binding, or to what is wrong with it (`Reads`). Texts that all read make one scope
out of their bindings, in which the last text that names a key counts; otherwise the first one that
does not read is reported. Since a name has one key, the scope lists each name once, and it depends
on the order of the texts only as far as they name the same key.
-/

namespace ShaderFront

/-! ## Values of a kind -/

/-- What a kind reads is of that kind. -/
theorem ParamKind.kind?_of_parse? {kind : ParamKind} {text : String} {value : ParamValue}
    (h : kind.parse? text = some value) : value.kind? = some kind := by
  cases kind <;> simp only [ParamKind.parse?, Option.map_eq_some_iff] at h
  case string => cases h; rfl
  case mixin =>
    split at h
    · exact nomatch h
    · cases h; rfl
  all_goals
    obtain ⟨-, -, rfl⟩ := h
    rfl

namespace Overrides

/-! ## One text -/

/-- A text is a name and a value with an equals sign between them, the first one of the text. -/
def Splits (text name value : String) : Prop :=
  text.toList = name.toList ++ '=' :: value.toList ∧ '=' ∉ name.toList

/-- A text is split at its first equals sign. -/
theorem split?_eq_some {text name value : String} :
    split? text = some (name, value) ↔ Splits text name value := by
  constructor
  · intro h
    have hparts := List.takeWhile_append_dropWhile (p := (· != '=')) (l := text.toList)
    simp only [split?] at h
    split at h
    · exact nomatch h
    · rename_i c rest hdrop
      cases h
      have hc : c = '=' := by
        have hhead := List.head?_dropWhile_not (· != '=') text.toList
        simpa [hdrop] using hhead
      refine ⟨by simpa [hdrop, hc] using hparts.symm, fun hmem => ?_⟩
      have hbefore := List.mem_takeWhile_imp (by simpa using hmem)
      simp at hbefore
  · rintro ⟨htext, hname⟩
    obtain ⟨htake, hdrop⟩ := Text.parts_append (p := (· != '=')) name.toList ('=' :: value.toList)
      (fun c hc => by simpa using fun he : c = '=' => hname (he ▸ hc)) (by simp)
    simp [split?, htext, htake, hdrop]

theorem split?_eq_none {text : String} : split? text = none ↔ '=' ∉ text.toList := by
  have hdrop : split? text = none ↔ text.toList.dropWhile (· != '=') = [] := by
    simp only [split?]
    split <;> simp_all
  rw [hdrop, List.dropWhile_eq_nil_iff]
  constructor
  · intro h hmem
    simpa using h '=' hmem
  · intro h c hc
    simpa using fun he : c = '=' => h (he ▸ hc)

/-- What a text reads to. -/
inductive Reads (keys : KeyTable) (text : String) :
    Except OverrideError (ParamKey × ParamValue) → Prop where
  | malformed (sign : '=' ∉ text.toList) : Reads keys text (.error (.malformed text))
  | unknown {name value : String} (split : Splits text name value)
      (undeclared : keys.find? (Text.trim name) = none) :
      Reads keys text (.error (.unknown (Text.trim name)))
  | invalid {name value : String} {key : ParamKey} (split : Splits text name value)
      (declared : keys.find? (Text.trim name) = some key)
      (spelling : key.kind.parse? value = none) :
      Reads keys text (.error (.invalid (Text.trim name) key.kind value))
  | bound {name value : String} {key : ParamKey} {v : ParamValue} (split : Splits text name value)
      (declared : keys.find? (Text.trim name) = some key)
      (spelling : key.kind.parse? value = some v) :
      Reads keys text (.ok (key, v))

theorem reads_iff {keys : KeyTable} {text : String}
    {result : Except OverrideError (ParamKey × ParamValue)} :
    Reads keys text result ↔ binding keys text = result := by
  constructor
  · intro h
    unfold binding
    cases h with
    | malformed sign => rw [split?_eq_none.2 sign]
    | unknown split undeclared => simp [split?_eq_some.2 split, undeclared]
    | invalid split declared spelling => simp [split?_eq_some.2 split, declared, spelling]
    | bound split declared spelling => simp [split?_eq_some.2 split, declared, spelling]
  · rintro rfl
    unfold binding
    split
    · rename_i h
      exact .malformed (split?_eq_none.1 h)
    · rename_i name value h
      have hsplit := split?_eq_some.1 h
      dsimp only
      split
      · rename_i hkey
        exact .unknown hsplit hkey
      · rename_i key hkey
        split
        · rename_i hv
          exact .invalid hsplit hkey hv
        · rename_i v hv
          exact .bound hsplit hkey hv

/-- The key a text names, if it is declared. -/
def named? (keys : KeyTable) (text : String) : Option ParamKey :=
  (split? text).bind fun (name, _) => keys.find? (Text.trim name)

theorem named?_eq_some {keys : KeyTable} {text : String} {key : ParamKey} :
    named? keys text = some key ↔
      ∃ name value, Splits text name value ∧ keys.find? (Text.trim name) = some key := by
  simp [named?, Option.bind_eq_some_iff, split?_eq_some]

theorem named?_of_binding {keys : KeyTable} {text : String} {key : ParamKey} {value : ParamValue}
    (h : binding keys text = .ok (key, value)) : named? keys text = some key := by
  cases reads_iff.2 h with
  | bound split declared _ => exact named?_eq_some.2 ⟨_, _, split, declared⟩

theorem find?_of_named? {keys : KeyTable} {text : String} {key : ParamKey}
    (h : named? keys text = some key) : keys.find? key.name = some key := by
  obtain ⟨name, value, -, hkey⟩ := named?_eq_some.1 h
  rw [KeyTable.find?_name hkey]
  exact hkey

/-! ## All texts -/

/-- The texts read to the bindings, one each. -/
def AllRead (keys : KeyTable) (texts : List String) (bindings : List (ParamKey × ParamValue)) :
    Prop :=
  texts.map (binding keys) = bindings.map .ok

/-- Overrides are added if all of them can be read, and they are bound in their order. -/
theorem addAll_ok_iff {keys : KeyTable} {texts : List String} {p q : Parameters} :
    addAll keys p texts = .ok q ↔
      ∃ bindings, AllRead keys texts bindings ∧ q = p.bindAll bindings := by
  induction texts generalizing p with
  | nil =>
    constructor
    · intro h
      exact ⟨[], rfl, by cases h; rfl⟩
    · rintro ⟨bindings, hread, rfl⟩
      cases List.map_eq_nil_iff.1 (Eq.symm hread)
      rfl
  | cons text rest ih =>
    rw [addAll]
    cases hb : binding keys text with
    | error e =>
      refine ⟨nofun, ?_⟩
      rintro ⟨bindings, hread, -⟩
      obtain ⟨b, others, -, hok, -⟩ := List.map_eq_cons_iff.1 (Eq.symm hread)
      rw [hb] at hok
      exact nomatch hok
    | ok b =>
      refine Iff.trans (ih (p := p.set b.1 b.2)) ⟨?_, ?_⟩
      · rintro ⟨bindings, hread, rfl⟩
        exact ⟨b :: bindings, congrArg₂ List.cons hb hread, rfl⟩
      · rintro ⟨bindings, hread, rfl⟩
        obtain ⟨b', others, rfl, hok, hothers⟩ := List.map_eq_cons_iff.1 (Eq.symm hread)
        rw [hb] at hok
        cases hok
        exact ⟨others, hothers.symm, rfl⟩

/-- The first override that cannot be read ends it all. -/
theorem addAll_error_iff {keys : KeyTable} {texts : List String} {p : Parameters}
    {e : OverrideError} :
    addAll keys p texts = .error e ↔
      ∃ before text after, texts = before ++ text :: after ∧
        (∀ t ∈ before, ∃ b, binding keys t = .ok b) ∧ binding keys text = .error e := by
  induction texts generalizing p with
  | nil => simp [addAll]
  | cons text rest ih =>
    rw [addAll]
    cases hb : binding keys text with
    | error e' =>
      constructor
      · intro h
        cases h
        exact ⟨[], text, rest, rfl, by simp, hb⟩
      · rintro ⟨before, text', after, heq, hbefore, he⟩
        cases before with
        | nil =>
          cases heq
          rw [hb] at he
          cases he
          rfl
        | cons t before =>
          cases heq
          obtain ⟨b, hok⟩ := hbefore text List.mem_cons_self
          rw [hb] at hok
          exact nomatch hok
    | ok b =>
      refine Iff.trans (ih (p := p.set b.1 b.2)) ⟨?_, ?_⟩
      · rintro ⟨before, text', after, rfl, hbefore, he⟩
        exact ⟨text :: before, text', after, rfl, List.forall_mem_cons.2 ⟨⟨b, hb⟩, hbefore⟩, he⟩
      · rintro ⟨before, text', after, heq, hbefore, he⟩
        cases before with
        | nil =>
          cases heq
          rw [hb] at he
          exact nomatch he
        | cons t before =>
          cases heq
          exact ⟨before, text', after, rfl, (List.forall_mem_cons.1 hbefore).2, he⟩

theorem AllRead.append {keys : KeyTable} {before after : List String}
    {bindings : List (ParamKey × ParamValue)} (h : AllRead keys (before ++ after) bindings) :
    ∃ b b', bindings = b ++ b' ∧ AllRead keys before b ∧ AllRead keys after b' := by
  unfold AllRead at h ⊢
  rw [List.map_append] at h
  obtain ⟨b, b', rfl, hb, hb'⟩ := List.map_eq_append_iff.1 h.symm
  exact ⟨b, b', rfl, hb.symm, hb'.symm⟩

/-- The text that binds a key is the last one that names it. -/
theorem AllRead.lookup_iff {keys : KeyTable} {texts : List String}
    {bindings : List (ParamKey × ParamValue)} (h : AllRead keys texts bindings) {key : ParamKey}
    {value : ParamValue} :
    bindings.reverse.lookup key = some value ↔
      ∃ text, (texts.filter (named? keys · = some key)).getLast? = some text ∧
        binding keys text = .ok (key, value) := by
  induction texts using List.reverseRecOn generalizing bindings with
  | nil =>
    cases List.map_eq_nil_iff.1 (Eq.symm h)
    simp
  | append_singleton texts text ih =>
    obtain ⟨before, last, rfl, hbefore, hlast⟩ := h.append
    obtain ⟨⟨k, v⟩, rfl, hb⟩ := List.map_eq_singleton_iff.1 (Eq.symm hlast)
    have hnamed := named?_of_binding hb.symm
    rw [List.reverse_append, List.reverse_singleton, List.singleton_append, List.lookup_cons,
      List.filter_append]
    by_cases hkey : key = k
    · subst hkey
      simp [hnamed, ← hb]
    · have hne : (key == k) = false := by simpa using hkey
      have hne' : ¬k = key := fun he => hkey he.symm
      simpa [hne, hnamed, hne'] using ih hbefore

/-! ## The scope that is read -/

variable {keys : KeyTable} {texts : List String} {p : Parameters}

theorem parse_ok_iff :
    parse keys texts = .ok p ↔
      ∃ bindings, AllRead keys texts bindings ∧ p = Parameters.ofList bindings :=
  addAll_ok_iff

/-- Overrides are accepted if each one by itself is. -/
theorem exists_parse_ok :
    (∃ p, parse keys texts = .ok p) ↔ ∀ text ∈ texts, ∃ b, binding keys text = .ok b := by
  constructor
  · rintro ⟨p, hp⟩ text htext
    obtain ⟨bindings, hread, -⟩ := parse_ok_iff.1 hp
    have hmem : binding keys text ∈ bindings.map .ok := hread ▸ List.mem_map_of_mem htext
    obtain ⟨b, -, hb⟩ := List.mem_map.1 hmem
    exact ⟨b, hb.symm⟩
  · intro hall
    cases h : parse keys texts with
    | ok p => exact ⟨p, rfl⟩
    | error e =>
      obtain ⟨before, text, after, rfl, -, he⟩ := addAll_error_iff.1 h
      obtain ⟨b, hb⟩ := hall text (by simp)
      rw [hb] at he
      exact nomatch he

/-- The last text that names a key binds it. -/
theorem get?_parse (h : parse keys texts = .ok p) {key : ParamKey} {value : ParamValue} :
    p.get? key = some value ↔
      ∃ text, (texts.filter (named? keys · = some key)).getLast? = some text ∧
        binding keys text = .ok (key, value) := by
  obtain ⟨bindings, hread, rfl⟩ := parse_ok_iff.1 h
  rw [Parameters.get?_ofList]
  exact hread.lookup_iff

/-- A key is bound if an override names it. -/
theorem bound_iff_named (h : parse keys texts = .ok p) {key : ParamKey} :
    (∃ value, p.get? key = some value) ↔ ∃ text ∈ texts, named? keys text = some key := by
  constructor
  · rintro ⟨value, hvalue⟩
    obtain ⟨text, hlast, -⟩ := (get?_parse h).1 hvalue
    have hmem := List.mem_filter.1 (List.mem_of_getLast? hlast)
    exact ⟨text, hmem.1, by simpa using hmem.2⟩
  · rintro ⟨text, hmem, hnamed⟩
    have hne : texts.filter (named? keys · = some key) ≠ [] :=
      List.ne_nil_of_mem (List.mem_filter.2 ⟨hmem, by simpa using hnamed⟩)
    obtain ⟨last, hlast⟩ := Option.ne_none_iff_exists'.1 (mt List.getLast?_eq_none_iff.1 hne)
    have hlastMem := List.mem_filter.1 (List.mem_of_getLast? hlast)
    obtain ⟨⟨k, value⟩, hb⟩ := exists_parse_ok.1 ⟨p, h⟩ last hlastMem.1
    have hk : k = key := by
      have hlastNamed : named? keys last = some key := by simpa using hlastMem.2
      exact Option.some.inj ((named?_of_binding hb).symm.trans hlastNamed)
    subst hk
    exact ⟨value, (get?_parse h).2 ⟨last, hlast, hb⟩⟩

theorem ordered_parse (h : parse keys texts = .ok p) : p.Ordered := by
  obtain ⟨bindings, -, rfl⟩ := parse_ok_iff.1 h
  exact Parameters.ordered_ofList bindings

/-- A bound key is the one that the table has for its name. -/
theorem find?_of_mem (h : parse keys texts = .ok p) {entry : ParamKey × ParamValue}
    (hentry : entry ∈ p.entries) : keys.find? entry.1.name = some entry.1 := by
  have hget := (ordered_parse h).get?_eq_some.2 hentry
  obtain ⟨text, -, hnamed⟩ := (bound_iff_named h).1 ⟨_, hget⟩
  exact find?_of_named? hnamed

/-- The list of a recipe has each name once, in order. -/
theorem names_ascend (h : parse keys texts = .ok p) :
    (p.toList.map (·.1)).Pairwise (· < ·) := by
  simp only [Parameters.toList, List.map_map]
  refine List.pairwise_map.2 (List.Pairwise.imp_of_mem (fun {e e'} he he' hbefore => ?_)
    (ordered_parse h))
  rcases ParamKey.before_iff.1 hbefore with hlt | ⟨hname, hrank⟩
  · exact hlt
  · have hkey : e.1 = e'.1 := by
      have hfind := find?_of_mem h he
      rw [hname, find?_of_mem h he'] at hfind
      exact (Option.some.inj hfind).symm
    rw [hkey] at hrank
    exact absurd hrank (lt_irrefl _)

theorem mem_toList_parse (h : parse keys texts = .ok p) {name : String} {value : ParamValue} :
    (name, value) ∈ p.toList ↔ ∃ key, keys.find? name = some key ∧ p.get? key = some value := by
  rw [(ordered_parse h).mem_toList]
  constructor
  · rintro ⟨key, rfl, hget⟩
    exact ⟨key, find?_of_mem h ((ordered_parse h).get?_eq_some.1 hget), hget⟩
  · rintro ⟨key, hfind, hget⟩
    exact ⟨key, KeyTable.find?_name hfind, hget⟩

theorem kind_of_get? (h : parse keys texts = .ok p) {key : ParamKey} {value : ParamValue}
    (hvalue : p.get? key = some value) : value.kind? = some key.kind := by
  obtain ⟨text, -, hb⟩ := (get?_parse h).1 hvalue
  cases reads_iff.2 hb with
  | bound _ _ spelling => exact ParamKind.kind?_of_parse? spelling

/-- What is read depends on the order of the texts only where they name one key. -/
theorem parse_perm (h : parse keys texts = .ok p) {texts' : List String} (hperm : texts'.Perm texts)
    (hkey : ∀ key, texts'.filter (named? keys · = some key) =
      texts.filter (named? keys · = some key)) :
    parse keys texts' = .ok p := by
  have hall : ∀ text ∈ texts', ∃ b, binding keys text = .ok b := fun text htext =>
    exists_parse_ok.1 ⟨p, h⟩ text (hperm.mem_iff.1 htext)
  obtain ⟨p', hp'⟩ := exists_parse_ok.2 hall
  have hget : ∀ key, p'.get? key = p.get? key := fun key => Option.ext fun value => by
    rw [get?_parse hp', get?_parse h, hkey key]
  rw [hp', (ordered_parse hp').ext (ordered_parse h) hget]

/-- A typed read of an override finds its value and not a default. -/
theorem readParam_start {key : ParamKey} {value : ParamValue} (hvalue : p.get? key = some value)
    (hkind : value.kind? = some key.kind) (setting : Setting) (call : Call) (tree : Tree) :
    ((Step.readParam key).run.run tree).run setting call (.start p) =
      ((.ok value, tree), .start p) := by
  have hparam : (Context.start p).param key = value := by
    simp [Context.param, Context.start, hvalue]
  have hread : ((Step.readParam key).run.run tree).run setting call (.start p) =
      ((.ok ((((Context.start p).param key).read? key.kind).getD key.kind.default), tree),
        .start p) := rfl
  rw [hread, hparam, ParamValue.read?_own_kind hkind, Option.getD_some]

/-- The parameters of a recipe are the bindings it was made with. -/
theorem parameters_compile {setting : Setting} {name : String} {recipe : Recipe}
    (h : (Recipe.compile setting name p).1 = .ok recipe) : recipe.parameters = p.toList := by
  simp only [Recipe.compile] at h
  generalize Expansion.callIn setting (Context.start p) .empty name [] (Context.start p) = out at h
  obtain ⟨⟨result, tree⟩, c⟩ := out
  cases result with
  | error e => exact nomatch h
  | ok =>
    cases hbalanced : c.checkBalanced with
    | error e => simp [hbalanced, bind, Except.bind] at h
    | ok =>
      simp only [hbalanced, bind, Except.bind, pure, Except.pure, Except.ok.injEq] at h
      rw [← h]

/-- What a scope holds that was read from texts. -/
structure Overridden (keys : KeyTable) (texts : List String) (p : Parameters) : Prop where
  /-- A key has the value of the last text that names it. -/
  last : ∀ key value, p.get? key = some value ↔
    ∃ text, (texts.filter (named? keys · = some key)).getLast? = some text ∧
      Reads keys text (.ok (key, value))
  named : ∀ key, (∃ value, p.get? key = some value) ↔
    ∃ text ∈ texts, ∃ name value, Splits text name value ∧ keys.find? (Text.trim name) = some key
  /-- A typed read gives the value of a bound key, not the default. -/
  typed : ∀ key value, p.get? key = some value →
    value.kind? = some key.kind ∧ p.read? key = some value ∧
      ∀ setting call tree, ((Step.readParam key).run.run tree).run setting call (.start p) =
        ((.ok value, tree), .start p)
  /-- The list of the scope holds each bound name once, in order. -/
  ascending : (p.toList.map (·.1)).Pairwise (· < ·)
  /-- A name stands in the list with the value of its key. -/
  entries : ∀ name value, (name, value) ∈ p.toList ↔
    ∃ key, keys.find? name = some key ∧ p.get? key = some value
  /-- The list is the sort of the bindings, whatever order they are taken from. -/
  sorted : ∀ bound, p.Lists bound →
    (bound.map Parameters.named).mergeSort Parameters.nameAtMost = p.toList
  listed : ∀ setting name recipe, (Recipe.compile setting name p).1 = .ok recipe →
    recipe.parameters = p.toList
  /-- Texts that name different keys may change places. -/
  reordered : ∀ texts' : List String, texts'.Perm texts →
    (∀ key, texts'.filter (named? keys · = some key) =
      texts.filter (named? keys · = some key)) →
    parse keys texts' = .ok p

/-- **Overrides are read if each of them reads, and then the last one for each key counts; otherwise
the first one that does not read is reported.** -/
theorem parse_last_wins (keys : KeyTable) (texts : List String) :
    ((∃ p, parse keys texts = .ok p) ↔
      ∀ text ∈ texts, ∃ name value key v, Splits text name value ∧
        keys.find? (Text.trim name) = some key ∧ key.kind.parse? value = some v) ∧
    (∀ e, parse keys texts = .error e ↔
      ∃ before text after, texts = before ++ text :: after ∧
        (∀ t ∈ before, ∃ b, Reads keys t (.ok b)) ∧ Reads keys text (.error e)) ∧
    ∀ p, parse keys texts = .ok p → Overridden keys texts p := by
  refine ⟨?_, fun e => ?_, fun p h => ?_⟩
  · rw [exists_parse_ok]
    refine forall₂_congr fun text _ => ⟨fun ⟨b, hb⟩ => ?_, ?_⟩
    · cases reads_iff.2 hb with
      | bound split declared spelling => exact ⟨_, _, _, _, split, declared, spelling⟩
    · rintro ⟨name, value, key, v, split, declared, spelling⟩
      exact ⟨(key, v), reads_iff.1 (.bound split declared spelling)⟩
  · simp only [reads_iff]
    exact addAll_error_iff
  · exact {
      last := fun key value => by simpa only [reads_iff] using get?_parse h
      named := fun key => by simpa only [named?_eq_some] using bound_iff_named h
      typed := fun key value hvalue => by
        have hkind := kind_of_get? h hvalue
        have hread : p.read? key = some value := by
          rw [Parameters.read?, hvalue, Option.bind_some, ParamValue.read?_own_kind hkind]
        exact ⟨hkind, hread, readParam_start hvalue hkind⟩
      ascending := names_ascend h
      entries := fun name value => mem_toList_parse h
      sorted := fun bound => (ordered_parse h).toList_eq_sort (names_ascend h)
      listed := fun _ _ _ => parameters_compile
      reordered := fun texts' => parse_perm h }

/-- Of two values for one key the later counts, and the list is in the order of names. -/
theorem parse_last_wins_repeated :
    let keys : KeyTable := ⟨[⟨"Label", .string⟩, ⟨"Count", .int⟩]⟩
    let texts := ["Label=b=c", "Count=1", " Count = 2"]
    ∃ p, parse keys texts = .ok p ∧ Overridden keys texts p ∧
      p.toList = [("Count", .int 2), ("Label", .string "b=c")] ∧
      ("Count", .int 1) ∉ p.toList ∧
      parse keys ["Count=1", " Count = 2", "Label=b=c"] = .ok p := by
  intro keys texts
  have hp : parse keys texts =
      .ok ⟨[(⟨"Count", .int⟩, .int 2), (⟨"Label", .string⟩, .string "b=c")]⟩ := by decide +kernel
  have hread := (parse_last_wins keys texts).2.2 _ hp
  refine ⟨_, hp, hread, rfl, by decide, ?_⟩
  decide +kernel

end Overrides
end ShaderFront
