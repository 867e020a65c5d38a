import Assay.Proofs.Depth

/-!
# Deferred schemas are transparent

Two schemas are the same up to deferral when, wherever one of them has a schema, the other has that
schema or a name for it (`Schema.UpToDeferral`). Definitions may refer to one another in circles, so
this is whatever some relation allows that is closed under unfolding (`Schema.Unfolded`). Such
schemas end alike on every input: with the same result, or with faults that differ only in the types
that unions show for their members (`Schema.validateAt_upToDeferral`). One may need twice the depth
of the other, as names take depth of their own.
-/
namespace Assay

variable {κ : Type}

namespace Fault

/-- The faults are the same, except that unions may show their members under other types. -/
inductive Alike : Fault → Fault → Prop
  /-- The same fault. -/
  | same (fault : Fault) : Alike fault fault
  /-- The faults of unions of as many members, which refuse one value for causes that are alike. -/
  | noMember {names others : List String} {causes later : List Fault}
      (counted : names.length = others.length) (caused : List.Forall₂ Alike causes later)
      (value : Value) (path : Path) :
      Alike (Members.noMemberFault names value path causes)
        (Members.noMemberFault others value path later)

namespace Alike

variable {fault other : Fault}

/-- Faults that are alike are at one place. -/
theorem path (alike : Alike fault other) : fault.path = other.path := by
  cases alike <;> rfl

/-- Faults that are alike have as many causes, each like its counterpart. -/
theorem causes (alike : Alike fault other) : List.Forall₂ Alike fault.causes other.causes := by
  cases alike with
  | same => exact List.forall₂_same.mpr fun cause _ => .same cause
  | noMember _ caused => exact caused

end Alike

end Fault

namespace Step.Alike

variable {related : Schema κ → Schema κ → Prop} {step twin : Step κ}

/-- Steps that do the same with schemas in one relation do so with those in a wider one. -/
theorem mono {wider : Schema κ → Schema κ → Prop}
    (within : ∀ schema another, related schema another → wider schema another)
    (alike : Alike related step twin) : Alike wider step twin := by
  cases alike with
  | check condition => exact .check condition
  | keys same => exact .keys (within _ _ same)
  | elements same => exact .elements (within _ _ same)
  | values same => exact .values (within _ _ same)
  | fields named same => exact .fields named (same.imp within)
  | positions same => exact .positions (same.imp within)
  | members same => exact .members (same.imp within)

/-- Steps do the same both ways round. -/
theorem flip (alike : Alike related step twin) : Alike (flip related) twin step := by
  cases alike with
  | check condition => exact .check condition
  | keys same => exact .keys same
  | elements same => exact .elements same
  | values same => exact .values same
  | fields named same => exact .fields named.symm same.flip
  | positions same => exact .positions same.flip
  | members same => exact .members same.flip

end Step.Alike

namespace Schema

variable {host : Host κ} {related : Schema κ → Schema κ → Prop} {schema twin : Schema κ}

/-- The schemas have the same form, with related schemas inside. -/
inductive Matches (host : Host κ) (related : Schema κ → Schema κ → Prop) :
    Schema κ → Schema κ → Prop
  /-- Bodies with the same settings, but for the type that is shown, and steps that do the same. -/
  | built {body twin : Body κ}
      (settings : twin.settings = { body.settings with typeName := twin.settings.typeName })
      (steps : List.Forall₂ (Step.Alike related) body.steps twin.steps) :
      Matches host related (.built body) (.built twin)
  /-- Names for related schemas. -/
  | deferred {name label : String} {target another : Schema κ}
      (defined : host.definitions name = .ok target)
      (again : host.definitions label = .ok another) (same : related target another) :
      Matches host related (.deferred name) (.deferred label)
  /-- One name that stands for nothing. -/
  | undefined {name : String} {misuse : Misuse} (missing : host.definitions name = .error misuse) :
      Matches host related (.deferred name) (.deferred name)

namespace Matches

/-- Every schema has the form of itself. -/
theorem refl (reflexive : ∀ schema, related schema schema) (schema : Schema κ) :
    Matches host related schema schema := by
  cases schema with
  | built body =>
    exact .built rfl (List.forall₂_same.mpr fun step _ => .refl step fun inner _ => reflexive inner)
  | deferred name =>
    cases found : host.definitions name with
    | ok target => exact .deferred found found (reflexive target)
    | error misuse => exact .undefined found

/-- Schemas of one form with schemas in one relation inside have them in every wider one. -/
theorem mono {wider : Schema κ → Schema κ → Prop}
    (within : ∀ schema another, related schema another → wider schema another)
    (same : Matches host related schema twin) : Matches host wider schema twin := by
  cases same with
  | built settings steps => exact .built settings (steps.imp fun _ _ alike => alike.mono within)
  | deferred defined again inner => exact .deferred defined again (within _ _ inner)
  | undefined missing => exact .undefined missing

/-- Schemas have the same form both ways round. -/
theorem flip (same : Matches host related schema twin) :
    Matches host (flip related) twin schema := by
  cases same with
  | @built body twin settings steps =>
    have back : body.settings = { twin.settings with typeName := body.settings.typeName } := by
      rw [settings]
    exact .built back (steps.imp fun _ _ alike => alike.flip).flip
  | deferred defined again inner => exact .deferred again defined inner
  | undefined missing => exact .undefined missing

end Matches

/-- One of the schemas may be a name where the other is not; apart from it, they have the same form,
with related schemas inside. -/
inductive Unfolded (host : Host κ) (related : Schema κ → Schema κ → Prop) :
    Schema κ → Schema κ → Prop
  /-- Neither is deferred where the other is not. -/
  | matched {schema twin : Schema κ} (same : Matches host related schema twin) :
      Unfolded host related schema twin
  /-- The second one is a name for what the first one is. -/
  | wrapped {schema target : Schema κ} {name : String}
      (defined : host.definitions name = .ok target) (same : Matches host related schema target) :
      Unfolded host related schema (.deferred name)
  /-- The first one is a name for what the second one is. -/
  | unwrapped {twin target : Schema κ} {name : String}
      (defined : host.definitions name = .ok target) (same : Matches host related target twin) :
      Unfolded host related (.deferred name) twin

namespace Unfolded

/-- What unfolds to schemas in one relation unfolds to those in every wider one. -/
theorem mono {wider : Schema κ → Schema κ → Prop}
    (within : ∀ schema another, related schema another → wider schema another)
    (unfolded : Unfolded host related schema twin) : Unfolded host wider schema twin := by
  cases unfolded with
  | matched same => exact .matched (same.mono within)
  | wrapped defined same => exact .wrapped defined (same.mono within)
  | unwrapped defined same => exact .unwrapped defined (same.mono within)

/-- Schemas unfold both ways round. -/
theorem flip (unfolded : Unfolded host related schema twin) :
    Unfolded host (flip related) twin schema := by
  cases unfolded with
  | matched same => exact .matched same.flip
  | wrapped defined same => exact .unwrapped defined same.flip
  | unwrapped defined same => exact .wrapped defined same.flip

end Unfolded

/-- Related schemas unfold to related schemas. -/
def Deferral (host : Host κ) (related : Schema κ → Schema κ → Prop) : Prop :=
  ∀ schema twin, related schema twin → Unfolded host related schema twin

/-- Each of the schemas is the other one with any number of schemas in it deferred, or no longer
deferred. -/
def UpToDeferral (host : Host κ) (schema twin : Schema κ) : Prop :=
  ∃ related, Deferral host related ∧ related schema twin

namespace UpToDeferral

/-- Schemas that are the same up to deferral unfold to such schemas. -/
theorem unfolded : Deferral host (UpToDeferral host) := by
  rintro schema twin ⟨related, deferral, same⟩
  exact (deferral schema twin same).mono fun _ _ inner => ⟨related, deferral, inner⟩

/-- Schemas that unfold to schemas that are the same up to deferral are so themselves. -/
theorem of_unfolded (same : Unfolded host (UpToDeferral host) schema twin) :
    schema.UpToDeferral host twin :=
  ⟨Unfolded host (UpToDeferral host), fun _ _ outer => outer.mono unfolded, same⟩

/-- Every schema is the same as itself. -/
theorem refl (schema : Schema κ) : schema.UpToDeferral host schema := by
  refine ⟨Eq, ?_, rfl⟩
  rintro schema _ rfl
  exact .matched (.refl (fun _ => rfl) schema)

/-- A name is the same as the schema that it stands for. -/
theorem deferred {name : String} (defined : host.definitions name = .ok schema) :
    schema.UpToDeferral host (.deferred name) :=
  of_unfolded (.wrapped defined (.refl refl schema))

end UpToDeferral

namespace Deferral

variable {α : Type} {alike : Fault → Fault → Prop}

/-- Recursions over schemas to a depth that look names up agree on schemas of one form, where they
agree on bodies to the same depth and on related schemas to smaller depths. -/
theorem matches_agree {run : Nat → Schema κ → Run α}
    (stuck : ∀ name, run 0 (.deferred name) = .unfinished)
    (lookup : ∀ depth name, run (depth + 1) (.deferred name) =
      (Run.ofMisuse (host.definitions name) >>= fun target => run depth target))
    {depth more : Nat} (enough : 2 * depth ≤ more)
    (bodies : ∀ body twin, Matches host related (.built body) (.built twin) →
      (run depth (.built body)).Agrees alike (run more (.built twin)))
    (inner : ∀ less < depth, ∀ rest, 2 * less + 1 ≤ rest → ∀ schema twin, related schema twin →
      (run less schema).Agrees alike (run rest twin))
    (same : Matches host related schema twin) :
    (run depth schema).Agrees alike (run more twin) := by
  cases same with
  | @built body twin settings steps => exact bodies body twin (.built settings steps)
  | @deferred name label target another defined again same =>
    cases depth with
    | zero =>
      rw [stuck]
      exact .unfinished _
    | succ depth =>
      obtain ⟨more, rfl⟩ : ∃ rest, more = rest + 1 := ⟨more - 1, by omega⟩
      rw [lookup, lookup, defined, again]
      exact inner depth (Nat.lt_succ_self depth) more (by omega) target another same
  | @undefined name misuse missing =>
    cases depth with
    | zero =>
      rw [stuck]
      exact .unfinished _
    | succ depth =>
      obtain ⟨more, rfl⟩ : ∃ rest, more = rest + 1 := ⟨more - 1, by omega⟩
      rw [lookup, lookup, missing]
      exact fun _ => .misused misuse

/-- Recursions over schemas to a depth that look names up agree on related schemas, where they agree
on bodies. -/
theorem agrees (deferral : Deferral host related) (run : Nat → Schema κ → Run α)
    (stuck : ∀ name, run 0 (.deferred name) = .unfinished)
    (lookup : ∀ depth name, run (depth + 1) (.deferred name) =
      (Run.ofMisuse (host.definitions name) >>= fun target => run depth target))
    {depth more : Nat} (enough : 2 * depth + 1 ≤ more)
    (bodies : ∀ less ≤ depth, ∀ rest, 2 * less ≤ rest → ∀ body twin,
      Matches host related (.built body) (.built twin) →
        (run less (.built body)).Agrees alike (run rest (.built twin)))
    (linked : related schema twin) : (run depth schema).Agrees alike (run more twin) := by
  induction depth using Nat.strongRecOn generalizing schema twin more with
  | ind depth ih =>
    have inner : ∀ less < depth, ∀ rest, 2 * less + 1 ≤ rest → ∀ schema twin,
        related schema twin → (run less schema).Agrees alike (run rest twin) :=
      fun less below rest enough _ _ linked =>
        ih less below enough (fun lesser within => bodies lesser (by omega)) linked
    cases deferral schema twin linked with
    | matched same =>
      have here := bodies depth (Nat.le_refl depth) more (by omega)
      exact matches_agree stuck lookup (by omega) here inner same
    | @wrapped _ target name defined same =>
      obtain ⟨more, rfl⟩ : ∃ rest, more = rest + 1 := ⟨more - 1, by omega⟩
      have here := bodies depth (Nat.le_refl depth) more (by omega)
      rw [lookup, defined]
      exact matches_agree stuck lookup (by omega) here inner same
    | @unwrapped _ target name defined same =>
      cases depth with
      | zero =>
        rw [stuck]
        exact .unfinished _
      | succ depth =>
        have here := bodies depth (Nat.le_succ depth) more (by omega)
        rw [lookup, defined]
        exact matches_agree stuck lookup (by omega) here (fun less below => inner less (by omega))
          same

/-- Related schemas are found to have the same kind. -/
theorem resolvedKind_agrees (deferral : Deferral host related) {depth more : Nat}
    (enough : 2 * depth + 1 ≤ more) (same : related schema twin) :
    (schema.resolvedKind host depth).Agrees alike (twin.resolvedKind host more) := by
  refine deferral.agrees (fun depth schema => schema.resolvedKind host depth)
    (fun _ => rfl) (fun _ _ => rfl) enough (fun less _ rest _ body twin same => ?_) same
  cases same with
  | built settings steps =>
    rw [resolvedKind_built, resolvedKind_built, settings]
    exact .pure _

/-- Related schemas are validated alike, whatever faults count as the same, provided that every one
does as itself and those of unions do when their causes do. -/
theorem validateAt_agrees (deferral : Deferral host related)
    (reflexive : ∀ fault, alike fault fault)
    (noMember : ∀ (schemas others : List (Schema κ)) (causes later : List Fault),
      List.Forall₂ related schemas others → List.Forall₂ alike causes later → ∀ value path,
        alike (Members.noMemberFault (schemas.map Schema.typeName) value path causes)
          (Members.noMemberFault (others.map Schema.typeName) value path later))
    {depth more : Nat} (enough : 2 * depth + 1 ≤ more) (same : related schema twin)
    (value : Option Value) (path : Path) (scope : Scope) :
    (schema.validateAt host depth value path scope).Agrees alike
      (twin.validateAt host more value path scope) := by
  induction depth using Nat.strongRecOn generalizing schema twin more value path scope with
  | ind depth ih =>
    refine deferral.agrees (fun depth schema => schema.validateAt host depth value path scope)
      (fun _ => rfl) (fun _ _ => rfl) enough (fun less within rest enough body twin same => ?_) same
    cases less with
    | zero => exact .unfinished _
    | succ less =>
      obtain ⟨rest, rfl⟩ : ∃ deeper, rest = deeper + 1 := ⟨rest - 1, by omega⟩
      have agree : (membersAt host less).Agree (.inPlace related alike reflexive noMember)
          (membersAt host rest) := by
        intro schema another same
        refine ⟨?_, deferral.resolvedKind_agrees (by omega) same⟩
        rintro value path scope _ _ ⟨rfl, rfl⟩
        exact ih less within (by omega) same value path scope
      cases same with
      | built settings steps =>
        exact Body.validate_agrees (.inPlace settings steps) agree ⟨rfl, rfl⟩ value

end Deferral

/-- Schemas that are the same up to deferral end alike, each as soon as the other one does at half
the depth: with the same result, or with faults that are alike. -/
theorem validateAt_upToDeferral (host : Host κ) (schema twin : Schema κ)
    (same : schema.UpToDeferral host twin) (value : Option Value) (path : Path) (scope : Scope) :
    (∀ depth, (schema.validateAt host depth value path scope).Agrees Fault.Alike
      (twin.validateAt host (2 * depth + 1) value path scope)) ∧
    (∀ depth, (twin.validateAt host depth value path scope).Agrees (flip Fault.Alike)
      (schema.validateAt host (2 * depth + 1) value path scope)) := by
  obtain ⟨related, deferral, same⟩ := same
  have counted : ∀ {relation : Schema κ → Schema κ → Prop} {schemas others : List (Schema κ)},
      List.Forall₂ relation schemas others →
        (schemas.map Schema.typeName).length = (others.map Schema.typeName).length := by
    intro relation schemas others listed
    rw [List.length_map, List.length_map, listed.length_eq]
  have back : Deferral host (flip related) := fun _ _ same => (deferral _ _ same).flip
  refine ⟨fun depth => ?_, fun depth => ?_⟩
  · exact deferral.validateAt_agrees .same
      (fun _ _ _ _ listed caused value path => .noMember (counted listed) caused value path)
      (Nat.le_refl _) same
      value path scope
  · exact back.validateAt_agrees .same
      (fun _ _ _ _ listed caused value path =>
        .noMember (counted listed).symm caused.flip value path)
      (Nat.le_refl _) same value path scope

end Schema

/-- A weight is a text or a count, the count given by a schema of one's choice. -/
def weight (counted : Schema Unit) : Body Unit :=
  [.members [.built (.ofKind .string), counted], .default (.string "")].foldl
    Body.refine (.ofKind .union)

/-- An order has some parts, given by a schema of one's choice, and a weight. -/
def order (parts counted : Schema Unit) : Body Unit :=
  .shape [("parts", parts), ("weight", .built (weight counted))]

/-- The order in full. -/
def orderInFull : Schema Unit :=
  .built (order (.built ((Body.ofKind .array).refine (.elements (.built count)))) (.built count))

/-- The order by names for counts and lists of them. -/
def orderByName : Schema Unit := .built (order (.deferred "counts") (.deferred "count"))

/-- The two orders are the same up to deferral. -/
theorem order_upToDeferral : orderInFull.UpToDeferral counts orderByName := by
  have counted : (Schema.built count).UpToDeferral counts (.deferred "count") := .deferred rfl
  have listed : (Schema.built ((Body.ofKind .array).refine (.elements (.built count)))).UpToDeferral
      counts (.deferred "counts") :=
    .of_unfolded (.wrapped rfl (.built rfl (.cons (.elements counted) .nil)))
  have weighed : (Schema.built (weight (.built count))).UpToDeferral counts
      (.built (weight (.deferred "count"))) :=
    .of_unfolded (.matched (.built rfl
      (.cons (.members (.cons (.refl _) (.cons counted .nil))) .nil)))
  exact .of_unfolded (.matched (.built rfl
    (.cons (.fields rfl (.cons listed (.cons weighed .nil))) .nil)))

/-- A weight below zero. -/
def underweight : Value := .object [("weight", .number (-1))]

/-- The fault of a weight below zero: a text and a count were expected, and it is not positive. -/
def underweightFault : Fault :=
  Members.noMemberFault ["string", "number"] (.number (-1)) (Path.root.key "weight")
    [.located (Path.root.key "weight") (.number .positive)]

/-- The order by names refuses a weight below zero as the order in full does. -/
theorem Schema.validateAt_upToDeferral_order :
    orderInFull.UpToDeferral counts orderByName ∧
      (orderInFull.validateAt counts 3 (some underweight) .root (.new .strict)).fault? =
        some underweightFault ∧
      ∃ other, (orderByName.validateAt counts 7 (some underweight) .root (.new .strict)).fault? =
        some other ∧ underweightFault.Alike other :=
  ⟨order_upToDeferral, rfl, ((validateAt_upToDeferral counts orderInFull orderByName
    order_upToDeferral (some underweight) .root (.new .strict)).1 3).fault? rfl⟩

end Assay
