import ShaderFront.Proofs.Mixin.Parameters

/-!
# Clients of one key table

Any number of clients share a key table. Each asks for what it likes, knowing the answers it has
had, and one request at a time is served. Whatever the order, the table has for each name the key
that was accepted first, and every key that was ever given is the key that the table has for the
name that was asked for (`Sharing.Recorded`). So a name has one kind for all clients and for ever.
-/

namespace ShaderFront

/-- What is asked of a key table. The kind of a typed key is that of its type. -/
inductive KeyRequest where
  | declare (name : String) (kind : ParamKind)
  | lookup (name : String)
  deriving DecidableEq, Repr

def KeyRequest.name : KeyRequest → String
  | .declare name _ => name
  | .lookup name => name

/-- What a request is answered with. -/
inductive KeyAnswer where
  | key (key : ParamKey)
  | conflict (conflict : KeyConflict)
  | undeclared
  deriving DecidableEq, Repr

namespace KeyTable

/-- The answer to a request and the table after it. -/
def serve (t : KeyTable) : KeyRequest → KeyAnswer × KeyTable
  | .declare name kind =>
    match t.declare name kind with
    | .ok (key, t) => (.key key, t)
    | .error conflict => (.conflict conflict, t)
  | .lookup name =>
    match t.find? name with
    | some key => (.key key, t)
    | none => (.undeclared, t)

/-- All ways in which a request is served. -/
inductive Serves (t : KeyTable) : KeyRequest → KeyAnswer → KeyTable → Prop where
  | again {name : String} {key : ParamKey} (found : t.find? name = some key) :
      Serves t (.declare name key.kind) (.key key) t
  | refused {name : String} {key : ParamKey} {kind : ParamKind} (found : t.find? name = some key)
      (other : key.kind ≠ kind) :
      Serves t (.declare name kind) (.conflict ⟨name, key.kind, kind⟩) t
  | new {name : String} {kind : ParamKind} (free : t.find? name = none) :
      Serves t (.declare name kind) (.key ⟨name, kind⟩) ⟨t.keys ++ [⟨name, kind⟩]⟩
  | found {name : String} {key : ParamKey} (found : t.find? name = some key) :
      Serves t (.lookup name) (.key key) t
  | undeclared {name : String} (free : t.find? name = none) :
      Serves t (.lookup name) .undeclared t

/-- A table serves each request by the rules. -/
theorem serves (t : KeyTable) (r : KeyRequest) : t.Serves r (t.serve r).1 (t.serve r).2 := by
  cases r with
  | declare name kind =>
    simp only [serve, declare]
    cases h : t.find? name with
    | none => exact .new h
    | some key =>
      by_cases hkind : key.kind = kind
      · subst hkind
        simpa using Serves.again h
      · simpa [hkind] using Serves.refused h hkind
  | lookup name =>
    simp only [serve]
    cases h : t.find? name with
    | none => exact .undeclared h
    | some key => exact .found h

theorem serves_of_answer {t : KeyTable} {r : KeyRequest} {answer : KeyAnswer}
    (h : (t.serve r).1 = answer) : ∃ t', (t.serve r).2 = t' ∧ t.Serves r answer t' :=
  ⟨_, rfl, h ▸ t.serves r⟩

/-- A new key is found by its name, unless there was one of it. -/
theorem find?_append (keys : List ParamKey) (key : ParamKey) (name : String) :
    find? ⟨keys ++ [key]⟩ name =
      (find? ⟨keys⟩ name).or (if key.name = name then some key else none) := by
  by_cases h : key.name = name <;> simp [find?, h]

end KeyTable

/-- A request, who made it and how it was answered. -/
structure KeyEvent (ι : Type) where
  client : ι
  request : KeyRequest
  answer : KeyAnswer

/-- The key of a declaration that was accepted. -/
def KeyEvent.declared? {ι : Type} (e : KeyEvent ι) : Option ParamKey :=
  match e.request, e.answer with
  | .declare _ _, .key key => some key
  | _, _ => none

/-- A client makes its next request by what it was answered before, or makes no more. -/
abbrev KeyClient (ι : Type) := List (KeyEvent ι) → Option KeyRequest

/-- A table that clients share, and what they asked of it so far. -/
structure Sharing (ι : Type) where
  table : KeyTable := {}
  history : List (KeyEvent ι) := []

namespace Sharing

variable {ι : Type}

/-- The client holds the table until it has its answer. -/
def serve (s : Sharing ι) (i : ι) (r : KeyRequest) : Sharing ι :=
  ⟨(s.table.serve r).2, s.history ++ [⟨i, r, (s.table.serve r).1⟩]⟩

/-- What a client has seen of the history. -/
def seen [DecidableEq ι] (s : Sharing ι) (i : ι) : List (KeyEvent ι) :=
  s.history.filter (·.client = i)

/-- The clients take turns in any order, and each may stop at any time. -/
inductive Reaches [DecidableEq ι] (clients : ι → KeyClient ι) : Sharing ι → Prop where
  | start : Reaches clients {}
  | serve {s : Sharing ι} {i : ι} {r : KeyRequest} (before : Reaches clients s)
      (next : clients i (s.seen i) = some r) : Reaches clients (s.serve i r)

/-- The keys of all declarations that were accepted, the first one first. -/
def declared (s : Sharing ι) : List ParamKey := s.history.filterMap KeyEvent.declared?

/-- Some client was given a key for a name. -/
def Gave (s : Sharing ι) (name : String) (key : ParamKey) : Prop :=
  ∃ e ∈ s.history, e.request.name = name ∧ e.answer = .key key

/-- The table is what the history made it. -/
structure Recorded (s : Sharing ι) : Prop where
  first (name : String) : s.table.find? name = s.declared.find? (·.name == name)
  given {name : String} {key : ParamKey} : s.Gave name key → s.table.find? name = some key

theorem gave_of_declared {s : Sharing ι} {key : ParamKey} (h : key ∈ s.declared) :
    ∃ name, s.Gave name key := by
  obtain ⟨e, he, hkey⟩ := List.mem_filterMap.1 h
  refine ⟨_, e, he, rfl, ?_⟩
  unfold KeyEvent.declared? at hkey
  split at hkey
  · rename_i hanswer
    cases hkey
    exact hanswer
  · cases hkey

/-! ## One request -/

theorem declared_serve (s : Sharing ι) (i : ι) (r : KeyRequest) :
    (s.serve i r).declared =
      s.declared ++ (KeyEvent.declared? ⟨i, r, (s.table.serve r).1⟩).toList := by
  simp only [declared, serve, List.filterMap_append]
  cases h : KeyEvent.declared? ⟨i, r, (s.table.serve r).1⟩ <;> simp [h]

/-- A key was given by the request at hand or by an earlier one. -/
theorem gave_serve {s : Sharing ι} {i : ι} {r : KeyRequest} {name : String} {key : ParamKey} :
    (s.serve i r).Gave name key ↔
      s.Gave name key ∨ r.name = name ∧ (s.table.serve r).1 = .key key := by
  simp [Gave, serve, or_and_right, exists_or]

/-- A key that is found stays, whatever is asked next. -/
theorem find?_serve {t : KeyTable} {name : String} {key : ParamKey} (h : t.find? name = some key)
    (r : KeyRequest) : (t.serve r).2.find? name = some key := by
  have hserves := t.serves r
  generalize (t.serve r).1 = answer, (t.serve r).2 = t' at hserves
  cases hserves with
  | again | refused | found | undeclared => exact h
  | new => rw [KeyTable.find?_append, h, Option.some_or]

/-- A key that is given is found from then on. -/
theorem find?_serve_of_key {t : KeyTable} {r : KeyRequest} {key : ParamKey}
    (h : (t.serve r).1 = .key key) : (t.serve r).2.find? r.name = some key := by
  obtain ⟨t', ht, hserves⟩ := KeyTable.serves_of_answer h
  rw [ht]
  cases hserves with
  | again found => exact found
  | found found => exact found
  | new free =>
    rw [KeyRequest.name, KeyTable.find?_append, free, Option.none_or, if_pos rfl]

/-- **A request keeps the table what the history makes it.** -/
theorem Recorded.serve {s : Sharing ι} (h : s.Recorded) (i : ι) (r : KeyRequest) :
    (s.serve i r).Recorded where
  first name := by
    rw [declared_serve, List.find?_append, ← h.first]
    have hserves := s.table.serves r
    simp only [Sharing.serve]
    generalize (s.table.serve r).1 = answer, (s.table.serve r).2 = t' at hserves
    cases hserves with
    | refused | found | undeclared => simp [KeyEvent.declared?]
    | again found =>
      -- The key is declared once more; what is found for its name was declared before.
      rename_i asked key
      by_cases hname : key.name = name
      · obtain rfl := (KeyTable.find?_name found).symm.trans hname
        simp [KeyEvent.declared?, found]
      · simp [KeyEvent.declared?, hname]
    | new free =>
      rw [KeyTable.find?_append]
      rename_i asked kind
      by_cases hname : asked = name <;> simp [KeyEvent.declared?, hname]
  given hgave := by
    rcases gave_serve.1 hgave with hbefore | ⟨rfl, hanswer⟩
    · exact find?_serve (h.given hbefore) r
    · exact find?_serve_of_key hanswer

/-! ## All requests -/

variable {s : Sharing ι}

/-- Whatever clients have asked for, the table holds the keys that were declared. -/
theorem Reaches.recorded [DecidableEq ι] {clients : ι → KeyClient ι} (h : Reaches clients s) :
    s.Recorded := by
  induction h with
  | start => exact ⟨fun _ => rfl, fun ⟨_, he, _⟩ => nomatch he⟩
  | serve _ _ ih => exact ih.serve _ _

/-- What clients can rely on. -/
structure Agreed (s : Sharing ι) : Prop where
  /-- A declaration is accepted unless the name was declared with another kind before. -/
  accepted (name : String) (kind : ParamKind) :
    (∃ key, (s.table.serve (.declare name kind)).1 = .key key) ↔
      ∀ key ∈ s.declared, key.name = name → key.kind = kind
  /-- It gives the key of the name and the kind. -/
  granted (name : String) (kind : ParamKind) (key : ParamKey) :
    (s.table.serve (.declare name kind)).1 = .key key → key = ⟨name, kind⟩
  /-- A conflict tells the kind that was declared first, and changes nothing. -/
  refused (name : String) (kind : ParamKind) (c : KeyConflict) :
    (s.table.serve (.declare name kind)).1 = .conflict c →
      (s.table.serve (.declare name kind)).2 = s.table ∧
        ∃ first, s.declared.find? (·.name == name) = some first ∧ c = ⟨name, first.kind, kind⟩
  /-- All keys that were given for a name are one key, of that name. -/
  one (name : String) (key key' : ParamKey) : s.Gave name key → s.Gave name key' →
    key.name = name ∧ key = key'
  /-- A value that is bound to one of them is found by the other. -/
  bound (name : String) (key key' : ParamKey) : s.Gave name key → s.Gave name key' →
    ∀ (p : Parameters) (value : ParamValue), (p.set key value).get? key' = some value ∧
      (value.kind? = some key.kind → (p.set key value).read? key' = some value)

/-- A kind is accepted if every key of the name is of it. -/
theorem Recorded.accepted_iff (h : s.Recorded) (name : String) (kind : ParamKind) :
    (∃ key, (s.table.serve (.declare name kind)).1 = .key key) ↔
      ∀ key ∈ s.declared, key.name = name → key.kind = kind := by
  -- A declared key is the one that the table has for its name.
  have hdeclared : ∀ key ∈ s.declared, s.table.find? key.name = some key := fun key hkey => by
    obtain ⟨asked, hgave⟩ := gave_of_declared hkey
    have hfound := h.given hgave
    rwa [KeyTable.find?_name hfound]
  have hserves := s.table.serves (.declare name kind)
  generalize (s.table.serve (.declare name kind)).1 = answer,
    (s.table.serve (.declare name kind)).2 = t' at hserves
  cases hserves with
  | again found =>
    refine ⟨fun _ key hkey hname => ?_, fun _ => ⟨_, rfl⟩⟩
    have hsame := hdeclared key hkey
    rw [hname, found] at hsame
    exact congrArg ParamKey.kind (Option.some.inj hsame).symm
  | refused found other =>
    refine ⟨nofun, fun hall => absurd (hall _ ?_ (KeyTable.find?_name found)) other⟩
    rw [h.first] at found
    exact List.mem_of_find?_eq_some found
  | new free =>
    refine ⟨fun _ key hkey hname => ?_, fun _ => ⟨_, rfl⟩⟩
    rw [← hname, hdeclared key hkey] at free
    cases free

/-- **A name has one kind for ever.** However the requests of any number of clients follow each
other, at every moment a declaration is accepted exactly if no other kind was accepted for the name
before; a conflict tells the kind that was accepted first and changes nothing; and all keys that
were ever given for a name are one, so that what is bound through one of them is found through
each. -/
theorem names_agreed [DecidableEq ι] {clients : ι → KeyClient ι} (h : Reaches clients s) :
    s.Agreed where
  accepted := h.recorded.accepted_iff
  granted name kind key hanswer := by
    obtain ⟨_, -, hserves⟩ := KeyTable.serves_of_answer hanswer
    cases hserves with
    | again found => rw [← KeyTable.find?_name found]
    | new free => rfl
  refused name kind c hanswer := by
    obtain ⟨_, ht, hserves⟩ := KeyTable.serves_of_answer hanswer
    cases hserves with
    | refused found _ => exact ⟨ht, _, by rw [← h.recorded.first, found], rfl⟩
  one name key key' hgave hgave' := by
    have hfound := h.recorded.given hgave
    rw [h.recorded.given hgave'] at hfound
    obtain rfl := Option.some.inj hfound
    exact ⟨KeyTable.find?_name (h.recorded.given hgave), rfl⟩
  bound name key key' hgave hgave' p value := by
    have hfound := h.recorded.given hgave
    rw [h.recorded.given hgave'] at hfound
    obtain rfl := Option.some.inj hfound
    have hget := p.get?_set_self key' value
    refine ⟨hget, fun hkind => ?_⟩
    rw [Parameters.read?, hget, Option.bind_some, ParamValue.read?_own_kind hkind]

/-- Two clients that want different kinds for one name. -/
def rivals (i : Bool) : KeyClient Bool := fun seen =>
  if i then [KeyRequest.declare "Samples" .bool, .declare "Samples" .bool][seen.length]?
  else [KeyRequest.declare "Samples" .int, .lookup "Samples"][seen.length]?

theorem names_agreed_contested : ∃ s, Reaches rivals s ∧
    s.history.map (·.answer) = [.key ⟨"Samples", .bool⟩, .conflict ⟨"Samples", .bool, .int⟩,
      .key ⟨"Samples", .bool⟩, .key ⟨"Samples", .bool⟩] ∧ s.Agreed := by
  have hfirst : Reaches rivals (Sharing.serve {} true (.declare "Samples" .bool)) :=
    .serve .start rfl
  have hrun := ((hfirst.serve (i := false) (r := .declare "Samples" .int) rfl).serve
    (i := false) (r := .lookup "Samples") rfl).serve (i := true) (r := .declare "Samples" .bool) rfl
  exact ⟨_, hrun, by decide, names_agreed hrun⟩

end Sharing
end ShaderFront
