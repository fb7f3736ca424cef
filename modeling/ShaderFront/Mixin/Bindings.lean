import ShaderFront.Mixin.Keys

/-!
# Bound parameters

One scope of bindings: at most one value for each key, kept in the order of the keys.
-/

namespace ShaderFront

/-- Bindings, which `set` keeps in the strict order of their keys. -/
structure Parameters where
  entries : List (ParamKey × ParamValue) := []
  deriving DecidableEq, Repr, Inhabited

namespace Parameters

/-- Puts a binding in its place, instead of an earlier one of the key. -/
def put (key : ParamKey) (value : ParamValue) :
    List (ParamKey × ParamValue) → List (ParamKey × ParamValue)
  | [] => [(key, value)]
  | (k, v) :: rest =>
    if k = key then (key, value) :: rest
    else if key.before k then (key, value) :: (k, v) :: rest
    else (k, v) :: put key value rest

/-- Binds a key, in place of what it was bound to. -/
def set (p : Parameters) (key : ParamKey) (value : ParamValue) : Parameters :=
  ⟨put key value p.entries⟩

/-- The value a key is bound to. -/
def get? (p : Parameters) (key : ParamKey) : Option ParamValue := p.entries.lookup key

/-- The value of a key as one of its kind. -/
def read? (p : Parameters) (key : ParamKey) : Option ParamValue :=
  (p.get? key).bind (·.read? key.kind)

/-- The bindings made in order; of two for one key the later counts. -/
def ofList (bindings : List (ParamKey × ParamValue)) : Parameters :=
  bindings.foldl (fun p (k, v) => p.set k v) {}

def size (p : Parameters) : Nat := p.entries.length

def isEmpty (p : Parameters) : Bool := p.entries.isEmpty

/-- The bindings by name. -/
def toList (p : Parameters) : List (String × ParamValue) :=
  p.entries.map fun (k, v) => (k.name, v)

/-- The same keys are bound to the same values, with numbers compared as numbers. -/
def same (p q : Parameters) : Bool :=
  p.size == q.size
    && (p.entries.zip q.entries).all fun ((k, v), (l, w)) => k == l && v.same w

theorem lookup_put_self (key : ParamKey) (value : ParamValue)
    (entries : List (ParamKey × ParamValue)) :
    (put key value entries).lookup key = some value := by
  induction entries with
  | nil => simp [put]
  | cons entry rest ih =>
    obtain ⟨k, v⟩ := entry
    by_cases hk : k = key
    · simp [put, hk]
    · have hk' : (key == k) = false := by simpa using fun h => hk h.symm
      by_cases hb : key.before k = true
      · simp [put, hk, hb]
      · simp [put, hk, hb, List.lookup_cons, hk', ih]

theorem lookup_put_ne (key other : ParamKey) (value : ParamValue) (h : other ≠ key)
    (entries : List (ParamKey × ParamValue)) :
    (put key value entries).lookup other = entries.lookup other := by
  have ho : (other == key) = false := by simpa using h
  induction entries with
  | nil => simp [put, List.lookup_cons, ho]
  | cons entry rest ih =>
    obtain ⟨k, v⟩ := entry
    by_cases hk : k = key
    · simp [put, hk, List.lookup_cons, ho]
    · by_cases hb : key.before k = true
      · simp [put, hk, hb, List.lookup_cons, ho]
      · simp [put, hk, hb, List.lookup_cons, ih]

theorem get?_set_self (p : Parameters) (key : ParamKey) (value : ParamValue) :
    (p.set key value).get? key = some value :=
  lookup_put_self key value p.entries

theorem get?_set_ne (p : Parameters) (key other : ParamKey) (value : ParamValue)
    (h : other ≠ key) : (p.set key value).get? other = p.get? other :=
  lookup_put_ne key other value h p.entries

end Parameters
end ShaderFront
