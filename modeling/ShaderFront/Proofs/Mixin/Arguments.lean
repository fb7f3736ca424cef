import ShaderFront.Mixin.Script
import ShaderFront.Proofs.Mixin.Containment
import ShaderFront.Proofs.Mixin.History
import ShaderFront.Proofs.Mixin.Parameters

/-!
# The arguments of a call

Arguments are bound in the order of the keys a generator declares. If there are too many, or one is
of another kind than its key, the call changes nothing and starts no generator
(`Expansion.Rejects`). Otherwise the generator runs with the arguments in a scope of their own
(`Expansion.Starts`), which hides what the caller bound to these keys and nothing else, and which
ends with the call.
-/

namespace ShaderFront

/-- The argument for the key at a position, if there are both, is unset or of the key's kind. -/
def FitsAt (keys : List ParamKey) (args : List ParamValue) (i : Nat) : Prop :=
  ∀ key value, keys[i]? = some key → args[i]? = some value →
    value = .unset ∨ value.kind? = some key.kind

theorem badArgument?_cons_of_fits {key : ParamKey} {value : ParamValue} {keys : List ParamKey}
    {args : List ParamValue} (h : value = .unset ∨ value.kind? = some key.kind) :
    badArgument? (key :: keys) (value :: args) = badArgument? keys args := by
  rcases h with rfl | hkind
  · rfl
  · simp [badArgument?, hkind]

theorem badArgument?_eq_none {keys : List ParamKey} {args : List ParamValue}
    (h : ∀ i, FitsAt keys args i) : badArgument? keys args = none := by
  induction keys generalizing args with
  | nil => rfl
  | cons key keys ih =>
    cases args with
    | nil => rfl
    | cons value args =>
      rw [badArgument?_cons_of_fits (h 0 key value rfl rfl)]
      exact ih fun i => h (i + 1)

/-- The first argument that does not fit is reported. -/
theorem badArgument?_eq_some {keys : List ParamKey} {args : List ParamValue} {i : Nat}
    {key : ParamKey} {value : ParamValue} {kind : ParamKind} (hkey : keys[i]? = some key)
    (hvalue : args[i]? = some value) (hkind : value.kind? = some kind) (hne : kind ≠ key.kind)
    (hbefore : ∀ j < i, FitsAt keys args j) :
    badArgument? keys args = some (.argumentType key.name key.kind kind) := by
  induction i generalizing keys args with
  | zero =>
    obtain ⟨others, rfl⟩ := List.head?_eq_some_iff.1 (List.head?_eq_getElem?.trans hkey)
    obtain ⟨values, rfl⟩ := List.head?_eq_some_iff.1 (List.head?_eq_getElem?.trans hvalue)
    simp [badArgument?, hkind, hne]
  | succ i ih =>
    cases keys with
    | nil => exact nomatch hkey
    | cons k keys =>
      cases args with
      | nil => exact nomatch hvalue
      | cons v args =>
        rw [badArgument?_cons_of_fits (hbefore 0 (Nat.succ_pos i) k v rfl rfl)]
        exact ih hkey hvalue fun j hj => hbefore (j + 1) (Nat.succ_lt_succ hj)

/-! ## The scope of the arguments -/

theorem map_fst_zip_args (keys : List ParamKey) (args : List ParamValue) :
    (keys.zip args).map (·.1) = keys.take args.length := by
  induction keys generalizing args with
  | nil => simp
  | cons key keys ih =>
    cases args with
    | nil => rfl
    | cons value args => simp [ih args]

theorem Parameters.get?_arguments {keys : List ParamKey} {args : List ParamValue}
    (distinct : keys.Nodup) {i : Nat} {key : ParamKey} {value : ParamValue}
    (hkey : keys[i]? = some key) (hvalue : args[i]? = some value) :
    (ofList (keys.zip args)).get? key = some value := by
  have hnodup : ((keys.zip args).reverse.map (·.1)).Nodup := by
    rw [List.map_reverse, List.nodup_reverse, map_fst_zip_args]
    exact distinct.sublist (List.take_sublist _ _)
  have hzip : (keys.zip args)[i]? = some (key, value) :=
    List.getElem?_zip_eq_some.2 ⟨hkey, hvalue⟩
  rw [get?_ofList, lookup_of_nodup hnodup, List.mem_reverse]
  exact List.mem_of_getElem? hzip

theorem Parameters.get?_arguments_eq_none {keys : List ParamKey} {args : List ParamValue}
    {key : ParamKey} (h : key ∉ keys.take args.length) :
    (ofList (keys.zip args)).get? key = none := by
  rw [get?_ofList, List.lookup_eq_none_iff]
  intro entry hentry
  have hmem : entry.1 ∈ keys.take args.length := by
    rw [← map_fst_zip_args]
    exact List.mem_map_of_mem (List.mem_reverse.1 hentry)
  simpa using fun he : key = entry.1 => h (he ▸ hmem)

theorem Context.param_pushParams (c : Context) (p : Parameters) (key : ParamKey) :
    (c.pushParams p).param key = (p.get? key).getD (c.param key) := by
  unfold Context.pushParams Context.param
  rw [List.findSome?_cons]
  cases p.get? key <;> rfl

namespace Expansion

variable (setting : Setting) (target : Tree) (name : String) (args : List ParamValue) (c : Context)

/-- An expansion fails with a fault of a mixin, starts no generator and changes nothing. -/
structure Rejects (mixin : String) (fault : MixinFault) : Prop where
  outcome : callIn setting c target name args c = ((.error ⟨mixin, c.slotPath, fault⟩, target), c)
  idle : history setting (setting.maxDepth - c.depth) target name args c = none

/-- An expansion runs a generator in the state `entered`, where the frames are those of the caller,
and keeps the scopes of the caller when it has ended. -/
structure Starts (g : Generator) (entered : Context) : Prop where
  frame : entered.frame = c.frame
  callers : entered.callers = c.callers
  outcome : callIn setting c target name args c =
    ((invokeActive setting (callIn setting (entered.enter g.name)) g target entered).1,
      (invokeActive setting (callIn setting (entered.enter g.name)) g target entered).2.keepScopes
        c.scopes.length)
  runs : history setting (setting.maxDepth - c.depth) target name args c =
    some ((g.body.run.run (c.active target)).history setting
      (callIn setting (entered.enter g.name))
      (history setting (setting.maxDepth - (entered.enter g.name).depth)) (entered.enter g.name))

variable {setting name args c} {g : Generator}

theorem rejects_of_bindArguments (registered : setting.registry.get? name = some g)
    (live : c.discarded = false) (room : c.depth < setting.maxDepth) {fault : MixinFault}
    (h : g.bindArguments args = .error fault) :
    Rejects setting target name args c g.name fault := by
  obtain ⟨levels, hlevels⟩ := Nat.exists_eq_succ_of_ne_zero (Nat.sub_ne_zero_of_lt room)
  constructor
  · rw [callIn, hlevels, expand]
    simp [dispatch, live, registered, h]
  · rw [hlevels, history]
    simp [Setting.start?, live, registered, h]

theorem starts_of_start? (room : c.depth < setting.maxDepth) {entered : Context}
    (frame : entered.frame = c.frame) (callers : entered.callers = c.callers)
    (h : setting.start? name args c = some (g, entered)) :
    Starts setting target name args c g entered := by
  obtain ⟨levels, hlevels⟩ := Nat.exists_eq_succ_of_ne_zero (Nat.sub_ne_zero_of_lt room)
  have hleft : setting.maxDepth - (entered.enter g.name).depth = levels := by
    rw [Context.depth_enter, Context.depth, callers, ← Context.depth, Nat.sub_add_eq, hlevels,
      Nat.succ_sub_one]
  have hcall : callIn setting (entered.enter g.name) = expand setting levels := by
    rw [callIn, hleft]
  have hactive : entered.active target = c.active target := by
    rw [Context.active, frame, Context.active]
  refine ⟨frame, callers, ?_, ?_⟩
  · rw [hcall, callIn, hlevels, expand]
    exact (dispatch_start (expand setting levels) target h).2.2
  · rw [hlevels, hleft, hcall, ← hactive]
    simp [history, h]

/-- The state a generator is entered in if all its arguments fit. -/
theorem start?_of_fits (registered : setting.registry.get? name = some g)
    (live : c.discarded = false) (few : args.length ≤ g.params.length)
    (fits : ∀ i, FitsAt g.params args i) :
    setting.start? name args c =
      some (g, if args = [] then c else c.pushParams (.ofList (g.params.zip args))) := by
  cases args with
  | nil => simp [Setting.start?, live, registered, Generator.bindArguments]
  | cons value args =>
    have hbound : g.bindArguments (value :: args) =
        .ok (some (.ofList (g.params.zip (value :: args)))) := by
      rw [Generator.bindArguments, if_neg (by simp), if_neg (Nat.not_lt.2 few),
        badArgument?_eq_none fits]
    simp [Setting.start?, live, registered, hbound]

/-- **Arguments are bound for one call, and a call whose arguments do not fit is rejected as a
whole.** -/
theorem arguments_bound (setting : Setting) (c : Context) (target : Tree) (name : String)
    (g : Generator) (args : List ParamValue) (registered : setting.registry.get? name = some g)
    (distinct : g.params.Nodup) (live : c.discarded = false) (room : c.depth < setting.maxDepth) :
    (g.params.length < args.length →
      Rejects setting target name args c g.name
        (.tooManyArguments g.params.length args.length)) ∧
    (args.length ≤ g.params.length →
      ∀ i key value kind, g.params[i]? = some key → args[i]? = some value →
        value.kind? = some kind → kind ≠ key.kind → (∀ j < i, FitsAt g.params args j) →
        Rejects setting target name args c g.name (.argumentType key.name key.kind kind)) ∧
    (args.length ≤ g.params.length → (∀ i, FitsAt g.params args i) →
      ∃ entered, Starts setting target name args c g entered ∧
        (∀ (i : Nat) key value, g.params[i]? = some key → args[i]? = some value →
          (entered.enter g.name).param key = value) ∧
        ∀ key, key ∉ g.params.take args.length →
          (entered.enter g.name).param key = c.param key) ∧
    (args ≠ [] → ∀ key, (callIn setting c target name args c).2.param key = c.param key) := by
  have nonempty {i : Nat} {value : ParamValue} (hvalue : args[i]? = some value) : args ≠ [] := by
    rintro rfl
    exact nomatch hvalue
  refine ⟨fun many => ?_, fun few i key value kind hkey hvalue hkind hne hbefore => ?_,
    fun few fits => ?_, fun hargs key => ?_⟩
  · refine rejects_of_bindArguments target registered live room ?_
    have hargs : args ≠ [] := List.ne_nil_of_length_pos (Nat.zero_lt_of_lt many)
    simp [Generator.bindArguments, hargs, many]
  · refine rejects_of_bindArguments target registered live room ?_
    have hbad := badArgument?_eq_some hkey hvalue hkind hne hbefore
    simp [Generator.bindArguments, nonempty hvalue, Nat.not_lt.2 few, hbad]
  · have hstart := start?_of_fits registered live few fits
    refine ⟨_, starts_of_start? target room ?_ ?_ hstart, ?_, fun key hkey => ?_⟩
    · split <;> rfl
    · split <;> rfl
    · intro i key value hkey hvalue
      have hget := Parameters.get?_arguments distinct hkey hvalue
      rw [if_neg (nonempty hvalue)]
      change (c.pushParams _).param key = value
      rw [Context.param_pushParams, hget, Option.getD_some]
    · have hget := Parameters.get?_arguments_eq_none hkey
      split
      · rfl
      · change (c.pushParams _).param key = c.param key
        rw [Context.param_pushParams, hget, Option.getD_none]
  · have hcontained : Contained args target c (callIn setting c target name args c) :=
      expand_contained _ target name args c
    rw [Context.param, hcontained.bound hargs, Context.param]

/-- A generator with one argument. -/
def blur : Generator :=
  .scripted "Blur" [⟨"Samples", .int⟩] [.classFrom "BlurShader" [⟨"Samples", .int⟩]]

/-- Too many arguments, one of another kind, one that hides what the caller bound, and one that is
gone after the call. -/
theorem arguments_bound_blur :
    let samples : ParamKey := ⟨"Samples", .int⟩
    let setting : Setting := ⟨⟨[blur]⟩, 1⟩
    let c := Context.start (.ofList [(samples, .int 3)])
    Rejects setting .empty "Blur" [.int 1, .int 2] c "Blur" (.tooManyArguments 1 2) ∧
      Rejects setting .empty "Blur" [.bool true] c "Blur" (.argumentType "Samples" .int .bool) ∧
      (∃ entered, Starts setting .empty "Blur" [.unset] c blur entered ∧
        (entered.enter "Blur").param samples = .unset) ∧
      (callIn setting c .empty "Blur" [.int 9] c).2.param samples = .int 3 := by
  intro samples setting c
  have bound := fun args => arguments_bound setting c .empty "Blur" blur args rfl (by decide) rfl
    (by decide)
  obtain ⟨many, -⟩ := bound [.int 1, .int 2]
  obtain ⟨-, wrong, -⟩ := bound [.bool true]
  obtain ⟨-, -, fitting, -⟩ := bound [.unset]
  obtain ⟨-, -, -, after⟩ := bound [.int 9]
  have fits : ∀ i, FitsAt blur.params [.unset] i := by
    intro i key value hkey hvalue
    cases i with
    | zero => exact .inl (Option.some.inj hvalue).symm
    | succ i => exact nomatch hvalue
  obtain ⟨entered, hstarts, hreads, -⟩ := fitting (by decide) fits
  refine ⟨many (by decide), ?_, ⟨entered, hstarts, hreads 0 samples .unset rfl rfl⟩, ?_⟩
  · exact wrong (by decide) 0 samples (.bool true) .bool rfl rfl rfl (by decide) (by simp)
  · exact after (by decide) samples

end Expansion
end ShaderFront
