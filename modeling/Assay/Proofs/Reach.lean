import Mathlib.Data.List.Basic
import Assay.Proofs.Construction
import Assay.Proofs.Run
import Assay.Validation.Basic

/-!
# What a schema leads to

A schema resolves to the body that it stands for, deferred schemas looked up (`Schema.ResolvesTo`),
and reaches every body that a value or a part of it can meet on the way, however deep the
definitions refer to one another (`Schema.Reaches`). A condition on schemas at every depth is a
condition on the bodies reached (`Schema.Throughout`); it passes from a schema to those that its
steps hand values on to.
-/
namespace Assay

/-- Surroundings of the strict mode are strict. -/
theorem Scope.isStrict_of_mode {scope : Scope} (strict : scope.mode = .strict) :
    scope.isStrict = true := by
  rw [isStrict, strict, Mode.isStrict]

/-- Surroundings of the lenient mode are not strict. -/
theorem Scope.isStrict_of_lenient {scope : Scope} (lenient : scope.mode = .lenient) :
    scope.isStrict = false := by
  rw [isStrict, lenient, Mode.isStrict]

namespace Schema

variable {κ : Type} {host : Host κ}

/-- The schema stands for the body. -/
inductive ResolvesTo (host : Host κ) : Schema κ → Body κ → Prop
  /-- A body stands for itself. -/
  | built (body : Body κ) : ResolvesTo host (.built body) body
  /-- A name stands for what its definition stands for. -/
  | deferred {name : String} {target : Schema κ} {body : Body κ}
      (found : host.definitions name = .ok target) (resolved : ResolvesTo host target body) :
      ResolvesTo host (.deferred name) body

/-- A schema stands for one body at most. -/
theorem ResolvesTo.unique {schema : Schema κ} {first second : Body κ}
    (one : schema.ResolvesTo host first) (other : schema.ResolvesTo host second) :
    first = second := by
  induction one with
  | built body =>
    cases other
    rfl
  | deferred found _ ih =>
    cases other with
    | deferred again resolved =>
      obtain rfl := Except.ok.inj (found.symm.trans again)
      exact ih resolved

/-- The body is met on the way through the schema. -/
inductive Reaches (host : Host κ) : Schema κ → Body κ → Prop
  /-- A body is met at once. -/
  | here (body : Body κ) : Reaches host (.built body) body
  /-- What a step hands values on to is met later. -/
  | member {body found : Body κ} {step : Step κ} {inner : Schema κ} (taken : step ∈ body.steps)
      (handed : inner ∈ step.schemas) (reached : Reaches host inner found) :
      Reaches host (.built body) found
  /-- What a name stands for is met in its place. -/
  | target {name : String} {target : Schema κ} {found : Body κ}
      (defined : host.definitions name = .ok target) (reached : Reaches host target found) :
      Reaches host (.deferred name) found

/-- A schema leads to the body that it stands for. -/
theorem ResolvesTo.reaches {schema : Schema κ} {body : Body κ}
    (resolved : schema.ResolvesTo host body) : schema.Reaches host body := by
  induction resolved with
  | built body => exact .here body
  | deferred found _ ih => exact .target found ih

/-- Every body on the way through the schema has the property. -/
def Throughout (host : Host κ) (property : Body κ → Prop) (schema : Schema κ) : Prop :=
  ∀ body, schema.Reaches host body → property body

namespace Throughout

variable {property : Body κ → Prop}

/-- What holds throughout a body and the schemas that its steps hand values on to. -/
theorem built {body : Body κ} (here : property body)
    (later : ∀ step ∈ body.steps, ∀ inner ∈ step.schemas, inner.Throughout host property) :
    (Schema.built body).Throughout host property := by
  intro found reached
  cases reached with
  | here => exact here
  | member taken handed inside => exact later _ taken _ handed found inside

/-- What holds throughout what a name stands for holds throughout the deferred schema. -/
theorem deferred {name : String} {target : Schema κ} (defined : host.definitions name = .ok target)
    (later : target.Throughout host property) :
    (Schema.deferred name).Throughout host property := by
  intro found reached
  cases reached with
  | target again inside =>
    obtain rfl := Except.ok.inj (defined.symm.trans again)
    exact later found inside

/-- What holds of every body among some schemas holds throughout each of them, if steps hand values
on to schemas among them only, and names stand for such. -/
theorem of_closed {among : Schema κ → Prop}
    (bodies : ∀ body, among (.built body) →
      property body ∧ ∀ step ∈ body.steps, ∀ inner ∈ step.schemas, among inner)
    (targets : ∀ name target, among (.deferred name) → host.definitions name = .ok target →
      among target)
    {schema : Schema κ} (start : among schema) : schema.Throughout host property := by
  intro found reached
  induction reached with
  | here body => exact (bodies body start).1
  | member taken handed _ ih => exact ih ((bodies _ start).2 _ taken _ handed)
  | target defined _ ih => exact ih (targets _ _ start defined)

/-- What holds throughout a body holds of it. -/
theorem here {body : Body κ} (all : (Schema.built body).Throughout host property) :
    property body := all body (.here body)

/-- What holds throughout a body holds throughout the schemas that its steps hand values on to. -/
theorem member {body : Body κ} {step : Step κ} {inner : Schema κ}
    (all : (Schema.built body).Throughout host property) (taken : step ∈ body.steps)
    (handed : inner ∈ step.schemas) : inner.Throughout host property :=
  fun found reached => all found (.member taken handed reached)

/-- What holds throughout a deferred schema holds throughout what its name stands for. -/
theorem target {name : String} {target : Schema κ}
    (all : (Schema.deferred name).Throughout host property)
    (defined : host.definitions name = .ok target) : target.Throughout host property :=
  fun found reached => all found (.target defined reached)

/-- What holds throughout a schema holds throughout the body that it stands for. -/
theorem resolved {schema : Schema κ} {body : Body κ} (all : schema.Throughout host property)
    (stands : schema.ResolvesTo host body) : (Schema.built body).Throughout host property := by
  induction stands with
  | built body => exact all
  | deferred found _ ih => exact ih (all.target found)

end Throughout

/-- A kind found by looking deferred schemas up is that of the body that the schema stands for. -/
theorem resolvedKind_accepted {depth : Nat} {schema : Schema κ} {kind : Kind}
    (accepted : (schema.resolvedKind host depth).result? = some kind) :
    ∃ body, schema.ResolvesTo host body ∧ body.settings.kind = kind := by
  induction depth generalizing schema with
  | zero =>
    cases schema with
    | built body => exact ⟨body, .built body, Option.some.inj accepted⟩
    | deferred name => cases accepted
  | succ depth ih =>
    cases schema with
    | built body => exact ⟨body, .built body, Option.some.inj accepted⟩
    | deferred name =>
      rw [resolvedKind, Run.result?_bind, Option.bind_eq_some_iff] at accepted
      obtain ⟨target, defined, found⟩ := accepted
      obtain ⟨body, resolved, same⟩ := ih found
      exact ⟨body, .deferred (Run.result?_ofMisuse_eq_some.mp defined) resolved, same⟩

/-- Where a validation is accepted, every validation to the same depth is one of the body that the
schema stands for, its members validated to a smaller depth. -/
theorem validateAt_resolved {depth : Nat} {schema : Schema κ} {value : Option Value} {path : Path}
    {scope : Scope} {outcome : Option Value}
    (accepted : (schema.validateAt host depth value path scope).result? = some outcome) :
    ∃ body inner, inner < depth ∧ schema.ResolvesTo host body ∧ ∀ input place beside,
      (schema.validateAt host depth input place beside).result? =
        (body.validate host (membersAt host inner) input place beside).result? := by
  induction depth generalizing schema with
  | zero => cases accepted
  | succ depth ih =>
    cases schema with
    | built body =>
      exact ⟨body, depth, Nat.lt_succ_self depth, .built body, fun _ _ _ => rfl⟩
    | deferred name =>
      rw [validateAt, Run.result?_bind, Option.bind_eq_some_iff] at accepted
      obtain ⟨target, defined, found⟩ := accepted
      obtain ⟨body, inner, below, resolved, same⟩ := ih found
      refine ⟨body, inner, Nat.lt_succ_of_lt below,
        .deferred (Run.result?_ofMisuse_eq_some.mp defined) resolved, fun input place beside => ?_⟩
      rw [validateAt, Run.result?_bind, defined, Option.bind_some, same]

/-- An accepted validation is one of the body that the schema stands for, its members validated to a
smaller depth. -/
theorem validateAt_accepted {depth : Nat} {schema : Schema κ} {value : Option Value} {path : Path}
    {scope : Scope} {outcome : Option Value}
    (accepted : (schema.validateAt host depth value path scope).result? = some outcome) :
    ∃ body inner, inner < depth ∧ schema.ResolvesTo host body ∧
      (body.validate host (membersAt host inner) value path scope).result? = some outcome := by
  obtain ⟨body, inner, below, resolved, same⟩ := validateAt_resolved accepted
  exact ⟨body, inner, below, resolved, (same value path scope).symm.trans accepted⟩

end Schema

/-! ## Events, an example -/

/-- A host by which a moment is a date, and what is left out is said to be unknown. -/
def events : Host Unit where
  callback _ _ _ := none
  compute _ _ _ := .string "unknown"
  now := ⟨0, 0⟩
  definitions name := if name = "moment" then .ok (.built (.ofKind .date)) else .error .noMembers

/-- Places are numbered or named. -/
def place : Body Unit :=
  [.members [.built (.ofKind .number), .built (.ofKind .string)], .default (.number 0)].foldl
    Body.refine (.ofKind .union)

/-- Tags are some texts. -/
def tags : Body Unit :=
  [.size .array .notEmpty, .elements (.built (.ofKind .string))].foldl Body.refine (.ofKind .array)

/-- Notes are texts, and there always is one. -/
def note : Body Unit := (Body.ofKind .string).refine (.computedDefault ())

/-- An event has a moment, a note, a place and tags. -/
def event : Body Unit :=
  .shape [("at", .deferred "moment"), ("note", .built note), ("place", .built place),
    ("tags", .built tags)]

/-- An event as it may be given. -/
def eventGiven : Value :=
  .object [("at", .string "1970-01-01T00:00:01Z"), ("extra", .bool true),
    ("tags", .array [.string "first"])]

/-- The same event as validation leaves it. -/
def eventFound : Value :=
  .object [("at", .date ⟨1, 0⟩), ("extra", .bool true), ("note", .string "unknown"),
    ("place", .number 0), ("tags", .array [.string "first"])]

/-- What holds of an event and its parts holds throughout. -/
theorem event_throughout {property : Body Unit → Prop} (whole : property event)
    (moment : property (.ofKind .date)) (noted : property note) (placed : property place)
    (number : property (.ofKind .number)) (text : property (.ofKind .string))
    (tagged : property tags) : (Schema.built event).Throughout events property := by
  have plain : ∀ kind : Kind, property (.ofKind kind) →
      (Schema.built (.ofKind kind)).Throughout events property :=
    fun kind holds => .built holds fun _ taken => by cases taken
  refine .built whole fun step taken inner handed => ?_
  obtain rfl := List.mem_singleton.mp taken
  rcases List.mem_cons.mp handed with rfl | handed
  · exact .deferred (show events.definitions "moment" = .ok (.built (.ofKind .date)) from rfl)
      (plain .date moment)
  rcases List.mem_cons.mp handed with rfl | handed
  · exact .built noted fun _ taken => by cases taken
  rcases List.mem_pair.mp handed with rfl | rfl
  · refine .built placed fun step taken inner handed => ?_
    obtain rfl := List.mem_singleton.mp taken
    rcases List.mem_pair.mp handed with rfl | rfl
    · exact plain .number number
    · exact plain .string text
  · refine .built tagged fun step taken inner handed => ?_
    rcases List.mem_pair.mp taken with rfl | rfl
    · cases handed
    · obtain rfl := List.mem_singleton.mp handed
      exact plain .string text

/-! ## Counts, another example -/

/-- Counts are positive numbers. -/
def count : Body Unit := (Body.ofKind .number).refine (.number .positive)

/-- A choice is a number or a text. -/
def choice : Body Unit :=
  [.members [.built (.ofKind .number), .built (.ofKind .string)], .default (.number 0)].foldl
    Body.refine (.ofKind .union)

/-- A host that knows counts, lists of them, and choices. -/
def counts : Host Unit where
  callback _ _ _ := none
  compute _ path _ := .string path.toText
  now := ⟨0, 0⟩
  definitions name :=
    if name = "count" then .ok (.built count)
    else if name = "counts" then
      .ok (.built ((Body.ofKind .array).refine (.elements (.deferred "count"))))
    else if name = "choice" then .ok (.built choice)
    else .error .noMembers

end Assay
