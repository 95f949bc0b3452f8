/-
# What an options file gives

An options file names some pools, some fields of each, and perhaps the growth factor, and lays its
numbers over defaults.  `OptionDraft` is such a file before it is written, with every name once, and
`RecorderOptions.overlaid` says what it gives field by field, from any defaults.

The defaults are those of a recorder that is told nothing, but not in a pool that is named: what is
left out there has the default of the carrier threads' pool, whichever pool it is.

* `SpaceOptions.ofJson?_object`, `RecorderOptions.ofJson?_json`: a draft is read as it says;
* `RecorderOptions.overlaid_eq_iff`: a file gives the same as over each pool's own defaults just if
  no field is left out whose default is another one;
* `RecorderOptions.ofText_forgets_own_defaults`: a file that only lowers a bound of another pool is
  refused for a count that it does not name.

`RecorderOptions.ofText_overlays` says what every text gives that spells a draft.
-/
import TraceRecorder.OptionsFile
import TraceRecorder.Proofs.Json.Grammar

namespace TraceRecorder

/-! ## 1. Drafts -/

/-- A size or a bound of a pool. -/
inductive PoolField where
  | bufferSize
  | maxBufferSize
  | cacheCount
  | preallocCount
  | limit
  deriving DecidableEq, Repr

namespace PoolField

/-- The name of a field in JSON. -/
def name : PoolField → String
  | bufferSize => "buffer_size"
  | maxBufferSize => "max_buffer_size"
  | cacheCount => "cache_count"
  | preallocCount => "prealloc_count"
  | limit => "limit"

/-- The value of a field. -/
def of (o : SpaceOptions) : PoolField → Nat
  | bufferSize => o.bufferSize
  | maxBufferSize => o.maxBufferSize
  | cacheCount => o.cacheCount
  | preallocCount => o.preallocCount
  | limit => o.limit

theorem name_inj {f g : PoolField} (h : f.name = g.name) : f = g := by
  cases f <;> cases g <;> first | rfl | simp [name] at h

end PoolField

/-- A member of an options file. -/
inductive OptionMember where
  | pool (kind : BufferKind) (values : List (PoolField × Nat))
  | growthFactor (factor : Nat)
  deriving DecidableEq, Repr

namespace OptionMember

def name : OptionMember → String
  | pool kind _ => kind.name
  | growthFactor _ => "growth_factor"

def json : OptionMember → Json
  | pool _ values => .object (values.map fun v => (v.1.name, .number v.2))
  | growthFactor factor => .number factor

def numbers : OptionMember → List Nat
  | pool _ values => values.map Prod.snd
  | growthFactor factor => [factor]

def Once : OptionMember → Prop
  | pool _ values => (values.map Prod.fst).Nodup
  | growthFactor _ => True

instance : DecidablePred Once
  | pool _ values => inferInstanceAs (Decidable (values.map Prod.fst).Nodup)
  | growthFactor _ => .isTrue trivial

/-- What a pool is given, if it is the one. -/
def pool? (kind : BufferKind) : OptionMember → Option (List (PoolField × Nat))
  | pool k values => if k = kind then some values else none
  | growthFactor _ => none

def factor? : OptionMember → Option Nat
  | pool _ _ => none
  | growthFactor factor => some factor

theorem eq_of_pool? {m : OptionMember} {kind : BufferKind} {values : List (PoolField × Nat)}
    (h : m.pool? kind = some values) : m = .pool kind values := by
  cases m with
  | pool k _ =>
    by_cases same : k = kind
    · simpa [pool?, same] using h
    · simp [pool?, same] at h
  | growthFactor _ => cases h

theorem name_of_pool? {m : OptionMember} {kind : BufferKind} {values : List (PoolField × Nat)}
    (h : m.pool? kind = some values) : m.name = kind.name := by
  rw [eq_of_pool? h, name]

theorem name_of_factor? {m : OptionMember} {n : Nat} (h : m.factor? = some n) :
    m.name = "growth_factor" := by
  cases m with
  | pool _ _ => cases h
  | growthFactor _ => rfl

end OptionMember

/-- **An options file that is to be written**: every member and every field at most once. -/
structure OptionDraft where
  members : List OptionMember
  once : (members.map OptionMember.name).Nodup
  once_inside : ∀ m ∈ members, m.Once

namespace OptionDraft

def json (d : OptionDraft) : Json := .object (d.members.map fun m => (m.name, m.json))

/-- **Every number is a word of 64 bits.** -/
def Fits (d : OptionDraft) : Prop := ∀ n ∈ d.members.flatMap OptionMember.numbers, n < UInt64.size

instance : DecidablePred Fits := fun _ => inferInstanceAs (Decidable (∀ _ ∈ _, _))

end OptionDraft

/-- **Values of fields laid over the options of a pool.** -/
def SpaceOptions.overlaid (base : SpaceOptions) (values : List (PoolField × Nat)) :
    SpaceOptions where
  bufferSize := (values.lookup .bufferSize).getD base.bufferSize
  maxBufferSize := (values.lookup .maxBufferSize).getD base.maxBufferSize
  cacheCount := (values.lookup .cacheCount).getD base.cacheCount
  preallocCount := (values.lookup .preallocCount).getD base.preallocCount
  limit := (values.lookup .limit).getD base.limit

/-- **Members of an options file laid over options.**  What is left out of a pool that is named
comes from `base`. -/
def RecorderOptions.overlaid (o : RecorderOptions) (base : BufferKind → SpaceOptions)
    (members : List OptionMember) : RecorderOptions :=
  let pool := fun kind =>
    ((members.findSome? (OptionMember.pool? kind)).map (base kind).overlaid).getD (o.space kind)
  { global := pool .global
    threadLocal := pool .threadLocal
    virtualThreadLocal := pool .virtualThreadLocal
    growthFactor := (members.findSome? OptionMember.factor?).getD o.growthFactor }

/-! ## 2. Reading the members -/

namespace SpaceOptions

variable {values : List (PoolField × Nat)} {f : PoolField} {n : Nat}

theorem of_overlaid (base : SpaceOptions) (values : List (PoolField × Nat)) (f : PoolField) :
    f.of (base.overlaid values) = (values.lookup f).getD (f.of base) := by
  cases f <;> rfl

theorem ext_of {o o' : SpaceOptions} (h : ∀ f : PoolField, f.of o = f.of o') : o = o' := by
  obtain ⟨_, _, _, _, _⟩ := o
  obtain ⟨_, _, _, _, _⟩ := o'
  obtain rfl := h .bufferSize
  obtain rfl := h .maxBufferSize
  obtain rfl := h .cacheCount
  obtain rfl := h .preallocCount
  obtain rfl := h .limit
  rfl

theorem overlaid_cons (base : SpaceOptions) (new : f ∉ values.map Prod.fst) :
    (base.overlaid [(f, n)]).overlaid values = base.overlaid ((f, n) :: values) := by
  have absent : values.lookup f = none := by
    rw [List.lookup_eq_none_iff]
    intro v hv
    have other : f ≠ v.1 := fun same => new (same ▸ List.mem_map_of_mem hv)
    exact bne_iff_ne.2 other
  refine ext_of fun g => ?_
  rw [of_overlaid, of_overlaid, of_overlaid, List.lookup_cons, List.lookup_cons, List.lookup_nil]
  by_cases same : g = f
  · subst same
    simp [absent]
  · have other : (g == f) = false := beq_eq_false_iff_ne.2 same
    simp [other]

theorem find?_fields (f : PoolField) (fits : n < UInt64.size) :
    ∃ field, (fields.find? fun g => g.name == f.name) = some field ∧
      ∀ o, field.set? (.number n) o = some (o.overlaid [(f, n)]) := by
  cases f <;> exact ⟨_, rfl, fun o => congrArg (Option.map _) (if_pos fits)⟩

theorem readMembers_values (once : (values.map Prod.fst).Nodup)
    (fits : ∀ v ∈ values, v.2 < UInt64.size) (base : SpaceOptions) :
    JsonField.readMembers fields (values.map fun v => (v.1.name, .number v.2)) base =
      some (base.overlaid values) := by
  induction values generalizing base with
  | nil => rfl
  | cons v values ih =>
    obtain ⟨new, once⟩ := List.nodup_cons.1 once
    obtain ⟨field, found, sets⟩ := find?_fields v.1 (fits v List.mem_cons_self)
    simp only [List.map_cons, JsonField.readMembers, found, sets, Option.bind_some]
    rw [ih once fun w hw => fits w (List.mem_cons_of_mem v hw), overlaid_cons base new]

/-- **A pool that is named** has the values it is given, and the carrier threads' defaults. -/
theorem ofJson?_object (once : (values.map Prod.fst).Nodup)
    (fits : ∀ v ∈ values, v.2 < UInt64.size) :
    ofJson? (.object (values.map fun v => (v.1.name, .number v.2))) =
      some (threadLocalDefault.overlaid values) := by
  have names : ((values.map fun v => (v.1.name, Json.number v.2)).map Prod.fst).Nodup := by
    have distinct : ((values.map Prod.fst).map PoolField.name).Nodup :=
      List.Pairwise.map PoolField.name
        (fun f g other equal => other (PoolField.name_inj equal)) once
    rwa [List.map_map] at distinct ⊢
  rw [ofJson?, JsonField.read, readMembers_values once fits]
  simpa using names

end SpaceOptions

namespace RecorderOptions

variable {members : List OptionMember} {m : OptionMember}

theorem space_overlaid (o : RecorderOptions) (base : BufferKind → SpaceOptions)
    (members : List OptionMember) (kind : BufferKind) :
    (o.overlaid base members).space kind =
      ((members.findSome? (OptionMember.pool? kind)).map (base kind).overlaid).getD
        (o.space kind) := by
  cases kind <;> rfl

theorem ext_space {o o' : RecorderOptions} (pools : ∀ kind, o.space kind = o'.space kind)
    (factor : o.growthFactor = o'.growthFactor) : o = o' := by
  obtain ⟨_, _, _, _⟩ := o
  obtain ⟨_, _, _, _⟩ := o'
  obtain rfl := pools .global
  obtain rfl := pools .threadLocal
  obtain rfl := pools .virtualThreadLocal
  obtain rfl := factor
  rfl

/-- Members of different names may be laid one after the other. -/
theorem overlaid_cons (o : RecorderOptions) (base : BufferKind → SpaceOptions)
    (new : m.name ∉ members.map OptionMember.name) :
    (o.overlaid base [m]).overlaid base members = o.overlaid base (m :: members) := by
  refine ext_space (fun kind => ?_) ?_
  · rw [space_overlaid, space_overlaid, space_overlaid]
    cases here : m.pool? kind with
    | none => simp [here]
    | some values =>
      have absent : members.findSome? (OptionMember.pool? kind) = none := by
        rw [List.findSome?_eq_none_iff]
        intro other h
        refine Option.eq_none_iff_forall_ne_some.2 fun _ there => ?_
        exact new (List.mem_map.2 ⟨other, h,
          (OptionMember.name_of_pool? there).trans (OptionMember.name_of_pool? here).symm⟩)
      simp [here, absent]
  · cases here : m.factor? with
    | none => simp [overlaid, here]
    | some n =>
      have absent : members.findSome? OptionMember.factor? = none := by
        rw [List.findSome?_eq_none_iff]
        intro other h
        refine Option.eq_none_iff_forall_ne_some.2 fun _ there => ?_
        exact new (List.mem_map.2 ⟨other, h,
          (OptionMember.name_of_factor? there).trans (OptionMember.name_of_factor? here).symm⟩)
      simp [overlaid, here, absent]

theorem find?_fields (m : OptionMember) (once : m.Once) (fits : ∀ n ∈ m.numbers, n < UInt64.size) :
    ∃ field, (fields.find? fun g => g.name == m.name) = some field ∧
      ∀ o, field.set? m.json o = some (o.overlaid (fun _ => .threadLocalDefault) [m]) := by
  cases m with
  | pool kind values =>
    have read : SpaceOptions.ofJson? (OptionMember.pool kind values).json =
        some (SpaceOptions.threadLocalDefault.overlaid values) :=
      SpaceOptions.ofJson?_object once fun v hv => fits v.2 (List.mem_map_of_mem hv)
    cases kind <;> exact ⟨_, rfl, fun o => congrArg (Option.map _) read⟩
  | growthFactor n =>
    have read : sizeFromJson? (OptionMember.growthFactor n).json = some n :=
      if_pos (fits n (List.mem_singleton.2 rfl))
    exact ⟨_, rfl, fun o => congrArg (Option.map _) read⟩

theorem readMembers_members (once : (members.map OptionMember.name).Nodup)
    (inside : ∀ m ∈ members, m.Once)
    (fits : ∀ n ∈ members.flatMap OptionMember.numbers, n < UInt64.size) (o : RecorderOptions) :
    JsonField.readMembers fields (members.map fun m => (m.name, m.json)) o =
      some (o.overlaid (fun _ => .threadLocalDefault) members) := by
  induction members generalizing o with
  | nil => rfl
  | cons m members ih =>
    obtain ⟨new, once⟩ := List.nodup_cons.1 once
    obtain ⟨field, found, sets⟩ := find?_fields m (inside m List.mem_cons_self) fun n hn =>
      fits n (List.mem_flatMap.2 ⟨m, List.mem_cons_self, hn⟩)
    have later := ih once (fun m' h => inside m' (List.mem_cons_of_mem m h)) fun n hn =>
      fits n (by rw [List.flatMap_cons]; exact List.mem_append_right _ hn)
    simp only [List.map_cons, JsonField.readMembers, found, sets, Option.bind_some]
    rw [later, overlaid_cons o _ new]

/-- **A draft is read** as its members say. -/
theorem ofJson?_json (d : OptionDraft) (fits : d.Fits) :
    ofJson? d.json = some (default.overlaid (fun _ => .threadLocalDefault) d.members) := by
  have names : ((d.members.map fun m => (m.name, m.json)).map Prod.fst).Nodup := by
    rw [List.map_map]
    exact d.once
  rw [OptionDraft.json, ofJson?, JsonField.read, readMembers_members d.once d.once_inside fits]
  simpa using names

/-! ## 3. Reading a text -/

theorem fits_spell_json (d : OptionDraft) : (∀ t ∈ d.json.spell, t.Fits) ↔ d.Fits := by
  have member (m : OptionMember) :
      (∀ t ∈ m.json.spell, t.Fits) ↔ ∀ n ∈ m.numbers, n < UInt64.size := by
    cases m with
    | pool kind values =>
      rw [OptionMember.json, Json.fits_spell_object, OptionMember.numbers]
      simp only [List.forall_mem_map, Json.fits_spell_number]
    | growthFactor n =>
      rw [OptionMember.json, Json.fits_spell_number, OptionMember.numbers,
        List.forall_mem_singleton]
  rw [OptionDraft.json, Json.fits_spell_object]
  simp only [List.forall_mem_map, member, OptionDraft.Fits, List.mem_flatMap]
  exact ⟨fun h n ⟨m, hm, hn⟩ => h m hm n hn, fun h m hm n hn => h n ⟨m, hm, hn⟩⟩

/-- **What a text gives that spells a draft**: the defaults overlaid with the members, if the
numbers are words and the result passes its checks. -/
theorem ofText_eq (d : OptionDraft) {text : String} (h : Json.Spells text d.json) :
    ofText text =
      if d.Fits then
        match (default.overlaid (fun _ => .threadLocalDefault) d.members).flaw? with
        | some flaw => .error (.options flaw)
        | none => .ok (default.overlaid (fun _ => .threadLocalDefault) d.members)
      else .error .unreadableOptions := by
  by_cases fits : d.Fits
  · have read : (Json.parse? text).bind ofJson? =
        some (default.overlaid (fun _ => .threadLocalDefault) d.members) := by
      rw [Json.parse?_of_spells h, if_pos ((fits_spell_json d).2 fits), Option.bind_some,
        ofJson?_json d fits]
    cases broken : (default.overlaid (fun _ => .threadLocalDefault) d.members).flaw? <;>
      simp [ofText, read, broken, fits]
  · have read : (Json.parse? text).bind ofJson? = none := by
      rw [Json.parse?_of_spells h, if_neg fun all => fits ((fits_spell_json d).1 all),
        Option.bind_none]
    simp [ofText, read, fits]

theorem findSome?_pool? (once : (members.map OptionMember.name).Nodup) {kind : BufferKind}
    {values : List (PoolField × Nat)} (h : .pool kind values ∈ members) :
    members.findSome? (OptionMember.pool? kind) = some values := by
  induction members with
  | nil => cases h
  | cons m members ih =>
    obtain ⟨new, once⟩ := List.nodup_cons.1 once
    rcases List.mem_cons.1 h with rfl | later
    · simp [OptionMember.pool?]
    · cases here : m.pool? kind with
      | none => rw [List.findSome?_cons, here, ih once later]
      | some _ =>
        exact (new (List.mem_map.2 ⟨_, later, (OptionMember.name_of_pool? here).symm⟩)).elim

/-- **Where the defaults of a named pool are seen**: in each field that is left out and differs. -/
theorem overlaid_eq_iff (d : OptionDraft) :
    default.overlaid (fun _ => .threadLocalDefault) d.members =
        default.overlaid default.space d.members ↔
      ∀ kind values, .pool kind values ∈ d.members → ∀ f : PoolField, values.lookup f = none →
        f.of .threadLocalDefault = f.of (default.space kind) := by
  constructor
  · intro same kind values h f left
    have equal := congrArg (fun o : RecorderOptions => f.of (o.space kind)) same
    simpa only [space_overlaid, findSome?_pool? d.once h, Option.map_some, Option.getD_some,
      SpaceOptions.of_overlaid, left, Option.getD_none] using equal
  · intro agree
    refine ext_space (fun kind => ?_) rfl
    rw [space_overlaid, space_overlaid]
    cases named : d.members.findSome? (OptionMember.pool? kind) with
    | none => rfl
    | some values =>
      obtain ⟨m, h, here⟩ := List.exists_of_findSome?_eq_some named
      obtain rfl := OptionMember.eq_of_pool? here
      refine SpaceOptions.ext_of fun f => ?_
      simp only [Option.map_some, Option.getD_some, SpaceOptions.of_overlaid]
      cases left : values.lookup f with
      | none => exact agree kind values h f left
      | some n => rfl

/-- **A text that spells a draft overlays defaults**, and there is an answer to each.  Its numbers
replace the fields that they are given for; a field that a named pool leaves out has the carrier
threads' default, and all else the default of a recorder that is told nothing.  The options are
answered if they break no rule.  The first rule that they break is an error otherwise, and so is a
number that is no word.  What the draft gives is what it would give over the own defaults of each
pool just if no field is left out whose default differs. -/
theorem ofText_overlays (d : OptionDraft) {text : String} (h : Json.Spells text d.json) :
    ∃ o : RecorderOptions,
      (∀ (kind : BufferKind) (f : PoolField),
        f.of (o.space kind) =
          match d.members.findSome? (OptionMember.pool? kind) with
          | some values => (values.lookup f).getD (f.of .threadLocalDefault)
          | none => f.of (default.space kind)) ∧
      o.growthFactor = (d.members.findSome? OptionMember.factor?).getD default.growthFactor ∧
      (ofText text = if d.Fits then
          match o.flaw? with
          | some flaw => .error (.options flaw)
          | none => .ok o
        else .error .unreadableOptions) ∧
      (∀ fault, ofText text = .error fault → fault.report.kind = .usage) ∧
      (o = default.overlaid default.space d.members ↔
        ∀ kind values, .pool kind values ∈ d.members → ∀ f : PoolField, values.lookup f = none →
          f.of .threadLocalDefault = f.of (default.space kind)) := by
  refine ⟨default.overlaid (fun _ => .threadLocalDefault) d.members, fun kind f => ?_, rfl,
    ofText_eq d h, fun fault refused => ?_, overlaid_eq_iff d⟩
  · rw [space_overlaid]
    cases d.members.findSome? (OptionMember.pool? kind) with
    | none => rfl
    | some values => exact SpaceOptions.of_overlaid _ values f
  · rw [ofText_eq d h] at refused
    split at refused
    · split at refused
      · cases refused
        rfl
      · cases refused
    · cases refused
      rfl

/-- A draft that names one bound of the virtual threads' pool, and the growth factor. -/
def virtualDraft : OptionDraft where
  members := [.pool .virtualThreadLocal [(.limit, 70000)], .growthFactor 3]
  once := by decide
  once_inside := by decide

/-- The other fields of that pool are those of the carrier threads'. -/
theorem ofText_overlays_virtual :
    Json.Spells "\x7b\"virtual_thread_local\":\x7b\"limit\":70000\x7d,\"growth_factor\":3\x7d"
        virtualDraft.json ∧
      ofText "\x7b\"virtual_thread_local\":\x7b\"limit\":70000\x7d,\"growth_factor\":3\x7d" =
        .ok ⟨.globalDefault, .threadLocalDefault, ⟨4096, 16777216, 16, 4, 70000⟩, 3⟩ := by
  have spelled : Json.Spells
      "\x7b\"virtual_thread_local\":\x7b\"limit\":70000\x7d,\"growth_factor\":3\x7d"
      virtualDraft.json := Json.spells_compact virtualDraft.json
  obtain ⟨o, pools, factor, read, -, -⟩ := ofText_overlays virtualDraft spelled
  have this : o = ⟨.globalDefault, .threadLocalDefault, ⟨4096, 16777216, 16, 4, 70000⟩, 3⟩ := by
    refine ext_space (fun kind => SpaceOptions.ext_of fun f => ?_) factor
    rw [pools kind f]
    cases kind <;> cases f <;> rfl
  subst this
  exact ⟨spelled, read⟩

/-- A draft that names one bound of the global pool. -/
def globalDraft : OptionDraft where
  members := [.pool .global [(.limit, 8)]]
  once := by decide
  once_inside := by decide

/-- **The global pool's own defaults are forgotten.**  With a bound of eight buffers they break no
rule, and the text is refused for counts that it does not name. -/
theorem ofText_forgets_own_defaults :
    Json.Spells "\x7b\"global\":\x7b\"limit\":8\x7d\x7d" globalDraft.json ∧ globalDraft.Fits ∧
      (default.overlaid default.space globalDraft.members).flaw? = none ∧
      ofText "\x7b\"global\":\x7b\"limit\":8\x7d\x7d" =
        .error (.options (.countsBeyondLimit .global)) :=
  ⟨Json.spells_compact globalDraft.json, by decide, by decide, by rfl⟩

end RecorderOptions

end TraceRecorder
