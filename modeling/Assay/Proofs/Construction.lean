import Assay.Schema.Criterion

/-!
# Schemas as they are built

A body is built from a constructor by criteria of its kind (`Body.Built`). Criteria leave the kind
alone and only add steps at the end, so the steps that a constructor registers stay first, and every
step is one that the kind has a use for (`Body.Built.suits`). A body is proper when it was built
that way, rebuilds values once at most and declares no field twice (`Body.Proper`).
-/
namespace Assay

variable {κ : Type}

/-- The kind whose values a container is. -/
def Container.kind : Container → Kind
  | array => .array
  | object => .object

/-- Whether schemas of a kind start without steps. -/
def Kind.isPlain : Kind → Bool
  | shape | tuple | union | custom => false
  | _ => true

/-- Whether schemas of a kind offer a criterion. -/
def Criterion.suits (kind : Kind) : Criterion κ → Bool
  | text _ => kind == .string
  | number _ => kind == .number
  | boolean _ => kind == .boolean
  | date _ => kind == .date
  | size container _ => kind == container.kind
  | instanceOf .. => kind == .inst
  | keys schema => kind == .object && schema.kind == .string
  | elements _ => kind == .array
  | values _ => kind == .object
  | fields _ | exact _ => kind == .shape
  | positions _ => kind == .tuple
  | members _ => kind == .union
  | _ => true

/-- Whether schemas of a kind have a use for a step. -/
def Step.suits (kind : Kind) : Step κ → Bool
  | check (.size container _) => kind == container.kind
  | check _ => true
  | keys _ => kind == .object
  | elements _ => kind == .array
  | values _ => kind == .object
  | fields _ => kind == .shape
  | positions _ => kind == .tuple
  | members _ => kind == .union

/-- A step registered by a criterion of a kind is one that the kind has a use for. -/
theorem Criterion.step?_suits {kind : Kind} {criterion : Criterion κ} {settings : Settings κ}
    {step : Step κ} (own : criterion.suits kind = true)
    (registered : criterion.step? settings = some step) : step.suits kind = true := by
  cases criterion with
  | only =>
    obtain ⟨value, _, rfl⟩ := Option.map_eq_some_iff.mp registered
    rfl
  | keys schema =>
    obtain rfl := Option.some.inj registered
    exact (Bool.and_eq_true_iff.mp own).1
  | _ =>
    first
    | cases registered
      first | exact own | rfl
    | cases registered

namespace Body

/-- Criteria that were applied each refined the body. -/
theorem applyAll_ok {before after : Body κ} {criteria : List (Criterion κ)}
    (applied : before.applyAll criteria = .ok after) : after = criteria.foldl refine before := by
  induction criteria generalizing before with
  | nil => exact (Except.ok.inj applied).symm
  | cons criterion rest ih =>
    rw [applyAll, List.foldlM_cons, apply] at applied
    cases misused : criterion.misuse? before.settings with
    | some misuse =>
      rw [misused] at applied
      cases applied
    | none =>
      rw [misused] at applied
      exact ih applied

/-- Criteria whose steps are checks, whatever the settings are, register them in order. -/
theorem refineAll_checks {criteria : List (Criterion κ)} {register : Criterion κ → Option (Check κ)}
    (own : ∀ criterion ∈ criteria, ∀ settings,
      criterion.step? settings = (register criterion).map Step.check) (body : Body κ) :
    (criteria.foldl refine body).steps =
      body.steps ++ (criteria.filterMap register).map Step.check := by
  induction criteria generalizing body with
  | nil => exact (List.append_nil _).symm
  | cons criterion rest ih =>
    obtain ⟨here, later⟩ := List.forall_mem_cons.mp own
    rw [List.foldl_cons, ih later, refine, here, List.append_assoc, List.filterMap_cons]
    cases register criterion <;> rfl

/-- What every criterion that means something preserves is preserved by criteria that were
applied. -/
theorem applyAll_invariant (property : Body κ → Prop) {criteria : List (Criterion κ)}
    {before after : Body κ}
    (each : ∀ criterion ∈ criteria, ∀ body, criterion.misuse? body.settings = none →
      property body → property (body.refine criterion))
    (start : property before) (applied : before.applyAll criteria = .ok after) :
    property after := by
  induction criteria generalizing before with
  | nil =>
    obtain rfl := Except.ok.inj applied
    exact start
  | cons criterion rest ih =>
    have later := fun other member => each other (List.mem_cons_of_mem criterion member)
    rw [applyAll, List.foldlM_cons, apply] at applied
    cases misused : criterion.misuse? before.settings with
    | some misuse =>
      rw [misused] at applied
      cases applied
    | none =>
      rw [misused] at applied
      exact ih later (each criterion List.mem_cons_self before misused start) applied

/-- What every criterion on the way preserves is preserved by all of them. -/
theorem applyAll_preserves (property : Body κ → Prop) {criteria : List (Criterion κ)}
    {before after : Body κ}
    (each : ∀ criterion ∈ criteria, ∀ body, property body → property (body.refine criterion))
    (start : property before) (applied : before.applyAll criteria = .ok after) :
    property after :=
  applyAll_invariant property (fun criterion member body _ => each criterion member body) start
    applied

/-- A criterion leaves the kind alone. -/
@[simp] theorem refine_kind (body : Body κ) (criterion : Criterion κ) :
    (body.refine criterion).settings.kind = body.settings.kind := by
  cases criterion <;> rfl

/-- Criteria leave the kind alone. -/
theorem applyAll_kind {before after : Body κ} {criteria : List (Criterion κ)}
    (applied : before.applyAll criteria = .ok after) :
    after.settings.kind = before.settings.kind := by
  refine applyAll_preserves (fun body => body.settings.kind = before.settings.kind)
    (fun criterion _ body same => ?_) rfl applied
  exact (refine_kind body criterion).trans same

/-- Criteria add steps at the end. -/
theorem applyAll_steps {before after : Body κ} {criteria : List (Criterion κ)}
    (applied : before.applyAll criteria = .ok after) : before.steps <+: after.steps := by
  refine applyAll_preserves (fun body => before.steps <+: body.steps)
    (fun criterion _ body kept => ?_) (List.prefix_refl _) applied
  exact kept.trans (List.prefix_append _ _)

/-- Criteria of a kind add steps that the kind has a use for. -/
theorem applyAll_suits {before after : Body κ} {criteria : List (Criterion κ)} {kind : Kind}
    (own : ∀ criterion ∈ criteria, criterion.suits kind = true)
    (start : ∀ step ∈ before.steps, step.suits kind = true)
    (applied : before.applyAll criteria = .ok after) :
    ∀ step ∈ after.steps, step.suits kind = true := by
  refine applyAll_preserves (fun body => ∀ step ∈ body.steps, step.suits kind = true)
    (fun criterion member body suit step listed => ?_) start applied
  rcases List.mem_append.mp listed with old | new
  · exact suit step old
  · exact Criterion.step?_suits (own criterion member) (Option.mem_toList.mp new)

/-- The bodies that schemas start with. -/
inductive Started : Body κ → Prop
  /-- Values of a kind that starts without steps. -/
  | plain (kind : Kind) (free : kind.isPlain = true) : Started (.ofKind kind)
  /-- An object with declared fields. -/
  | shape (declared : List (String × Schema κ)) : Started (.shape declared)
  /-- An array with declared positions. -/
  | tuple (schemas : List (Schema κ)) : Started (.tuple schemas)
  /-- One of several schemas. -/
  | union {schemas : List (Schema κ)} {default : Value} {body : Body κ}
      (built : Body.union schemas default = .ok body) : Started body
  /-- Anything that a callback lets pass. -/
  | custom (name : κ) (default : Value) : Started (.custom name default)

namespace Started

variable {body : Body κ}

/-- A body that a schema starts with has only steps that its kind has a use for. -/
theorem suits (started : body.Started) :
    ∀ step ∈ body.steps, step.suits body.settings.kind = true := by
  intro step listed
  cases started with
  | plain kind free => cases listed
  | union built =>
    rw [applyAll_ok built] at listed ⊢
    obtain rfl := List.mem_singleton.mp listed
    rfl
  | _ =>
    obtain rfl := List.mem_singleton.mp listed
    rfl

/-- A shape, tuple or union starts with a step that can rebuild. -/
theorem rebuilds (started : body.Started) (structured : body.settings.kind.isPlain = false)
    (shaped : body.settings.kind ≠ .custom) : ∃ step ∈ body.steps, step.role = .rebuild := by
  cases started with
  | plain kind free => exact absurd (structured.symm.trans free) Bool.false_ne_true
  | shape declared => exact ⟨.fields declared, List.mem_cons_self, rfl⟩
  | tuple schemas => exact ⟨.positions schemas, List.mem_cons_self, rfl⟩
  | @union schemas _ _ built =>
    rw [applyAll_ok built]
    exact ⟨.members schemas, List.mem_cons_self, rfl⟩
  | custom name default => exact absurd rfl shaped

/-- Every body that a schema starts with has a default. -/
theorem default_ne_undefined (started : body.Started) : body.settings.default ≠ .undefined := by
  cases started with
  | plain kind free =>
    intro undefined
    cases kind with
    | union => cases free
    | custom => cases free
    | _ => cases undefined
  | union built =>
    rw [applyAll_ok built]
    exact nofun
  | _ => exact nofun

end Started

/-- The body comes from a constructor by criteria of its kind. -/
def Built (body : Body κ) : Prop :=
  ∃ (start : Body κ) (criteria : List (Criterion κ)), start.Started ∧
    (∀ criterion ∈ criteria, criterion.suits start.settings.kind = true) ∧
    start.applyAll criteria = .ok body

namespace Built

variable {body : Body κ}

/-- A body that was built has only steps that its kind has a use for. -/
theorem suits (built : body.Built) : ∀ step ∈ body.steps, step.suits body.settings.kind = true := by
  obtain ⟨start, criteria, started, own, applied⟩ := built
  rw [applyAll_kind applied]
  exact applyAll_suits own started.suits applied

/-- What holds of the steps that bodies start with and of those that criteria of a kind register
holds of every step of a body that was built. -/
theorem each (property : Step κ → Prop)
    (starts : ∀ start : Body κ, start.Started → ∀ step ∈ start.steps, property step)
    (registers : ∀ criterion : Criterion κ, criterion.suits body.settings.kind = true →
      ∀ settings step, criterion.step? settings = some step → property step)
    (built : body.Built) : ∀ step ∈ body.steps, property step := by
  obtain ⟨start, criteria, started, own, applied⟩ := built
  rw [applyAll_kind applied] at registers
  refine applyAll_preserves (fun body => ∀ step ∈ body.steps, property step)
    (fun criterion member body holds step listed => ?_) (starts start started) applied
  rcases List.mem_append.mp listed with old | new
  · exact holds step old
  · exact registers criterion (own criterion member) body.settings step (Option.mem_toList.mp new)

/-- Texts and numbers apart, nothing is checked about content. -/
theorem substance (built : body.Built)
    (other : ¬ (body.settings.kind = .string ∨ body.settings.kind = .number)) :
    ∀ step ∈ body.steps, step.isAboutContent = false := by
  refine built.each (fun step => step.isAboutContent = false)
    (fun start started step listed => ?_) fun criterion own settings step found => ?_
  · cases started with
    | plain kind free => cases listed
    | union built =>
      rw [applyAll_ok built] at listed
      obtain rfl := List.mem_singleton.mp listed
      rfl
    | _ =>
      obtain rfl := List.mem_singleton.mp listed
      rfl
  · cases criterion with
    | text => exact absurd (.inl (eq_of_beq own)) other
    | number => exact absurd (.inr (eq_of_beq own)) other
    | only =>
      obtain ⟨value, _, rfl⟩ := Option.map_eq_some_iff.mp found
      rfl
    | _ => cases found <;> rfl

/-- Keys are held to schemas of texts. -/
theorem text_of_keys (built : body.Built) {schema : Schema κ} (listed : .keys schema ∈ body.steps) :
    schema.kind = .string := by
  refine built.each (fun step => ∀ schema, step = .keys schema → schema.kind = .string)
    (fun start started step listed schema same => ?_)
    (fun criterion own settings step found schema same => ?_) _ listed schema rfl
  · cases started with
    | plain kind free => cases listed
    | union built =>
      rw [applyAll_ok built] at listed
      cases (List.mem_singleton.mp listed).symm.trans same
    | _ => cases (List.mem_singleton.mp listed).symm.trans same
  · subst same
    cases criterion with
    | keys =>
      obtain rfl := Step.keys.inj (Option.some.inj found)
      exact eq_of_beq (Bool.and_eq_true_iff.mp own).2
    | only =>
      obtain ⟨value, _, other⟩ := Option.map_eq_some_iff.mp found
      cases other
    | _ => cases found

/-- Unless its input may not be, a body that was built has a default. -/
theorem default_ne_undefined (built : body.Built) (usable : body.settings.never = false) :
    body.settings.default ≠ .undefined := by
  obtain ⟨start, criteria, started, _, applied⟩ := built
  have kept : body.settings.never = true ∨ body.settings.default ≠ .undefined := by
    refine applyAll_preserves
      (fun body => body.settings.never = true ∨ body.settings.default ≠ .undefined)
      (fun criterion _ body held => ?_) ?_ applied
    · cases criterion with
      | never => exact .inl rfl
      | default => exact .inr nofun
      | computedDefault => exact .inr nofun
      | _ => exact held
    · exact .inr started.default_ne_undefined
  rcases kept with never | supplied
  · rw [usable] at never
    cases never
  · exact supplied

/-- A shape, tuple or union that was built has a step that can rebuild. -/
theorem rebuilds (built : body.Built) (structured : body.settings.kind.isPlain = false)
    (shaped : body.settings.kind ≠ .custom) : ∃ step ∈ body.steps, step.role = .rebuild := by
  obtain ⟨start, criteria, started, _, applied⟩ := built
  rw [applyAll_kind applied] at structured shaped
  obtain ⟨step, listed, role⟩ := started.rebuilds structured shaped
  exact ⟨step, (applyAll_steps applied).subset listed, role⟩

/-- A shape that was built declares fields. -/
theorem fields (built : body.Built) (kind : body.settings.kind = .shape) :
    ∃ declared, .fields declared ∈ body.steps := by
  obtain ⟨step, listed, role⟩ := built.rebuilds (by rw [kind]; rfl) (by rw [kind]; decide)
  have suit := built.suits step listed
  rw [kind] at suit
  cases step with
  | fields declared => exact ⟨declared, listed⟩
  | check => cases role
  | _ => cases suit

/-- A tuple that was built declares positions. -/
theorem positions (built : body.Built) (kind : body.settings.kind = .tuple) :
    ∃ schemas, .positions schemas ∈ body.steps := by
  obtain ⟨step, listed, role⟩ := built.rebuilds (by rw [kind]; rfl) (by rw [kind]; decide)
  have suit := built.suits step listed
  rw [kind] at suit
  cases step with
  | positions schemas => exact ⟨schemas, listed⟩
  | check => cases role
  | _ => cases suit

/-- A union that was built has members. -/
theorem members (built : body.Built) (kind : body.settings.kind = .union) :
    ∃ schemas, .members schemas ∈ body.steps := by
  obtain ⟨step, listed, role⟩ := built.rebuilds (by rw [kind]; rfl) (by rw [kind]; decide)
  have suit := built.suits step listed
  rw [kind] at suit
  cases step with
  | members schemas => exact ⟨schemas, listed⟩
  | check => cases role
  | _ => cases suit

end Built

/-- The body was built, rebuilds values once at most and declares no field twice. -/
structure Proper (body : Body κ) : Prop where
  /-- It comes from a constructor by criteria of its kind. -/
  built : body.Built
  /-- One step at most can rebuild a value. -/
  single : (body.steps.filter fun step => step.role == .rebuild).length ≤ 1
  /-- The fields that it declares have different names. -/
  distinct : ∀ declared, .fields declared ∈ body.steps → (declared.map Prod.fst).Nodup

/-- Two steps of a proper body that can rebuild are one. -/
theorem Proper.unique {body : Body κ} (proper : body.Proper) {first second : Step κ}
    (one : first ∈ body.steps) (other : second ∈ body.steps) (rebuilds : first.role = .rebuild)
    (also : second.role = .rebuild) : first = second := by
  have single := proper.single
  have left : first ∈ body.steps.filter fun step => step.role == .rebuild :=
    List.mem_filter.mpr ⟨one, decide_eq_true rebuilds⟩
  have right : second ∈ body.steps.filter fun step => step.role == .rebuild :=
    List.mem_filter.mpr ⟨other, decide_eq_true also⟩
  generalize (body.steps.filter fun step => step.role == .rebuild) = rebuilding at single left right
  match rebuilding, single with
  | [only], _ => rw [List.mem_singleton.mp left, List.mem_singleton.mp right]

/-- Of what schemas start with, everything is proper that declares no field twice. -/
theorem Started.proper {body : Body κ} (started : body.Started)
    (distinct : ∀ declared, .fields declared ∈ body.steps → (declared.map Prod.fst).Nodup) :
    body.Proper := by
  refine ⟨⟨body, [], started, by simp, rfl⟩, ?_, distinct⟩
  refine Nat.le_trans (List.length_filter_le _ _) ?_
  cases started with
  | plain kind free => exact Nat.zero_le 1
  | union built =>
    rw [applyAll_ok built]
    exact Nat.le_refl 1
  | _ => exact Nat.le_refl 1

end Body

end Assay
