import Assay.Proofs.Tolerance

/-!
# Where a fault lies and what it rests on

A fault lies at the place that was validated or inside it and bears no label, and so do the faults
among its causes, each at the place of the fault that it is a cause of or inside that. Only a union
gives a fault causes: they are the faults of the members that were offered the value, in order
(`Members.firstOf_rejected`). What holds of the faults of all calls of a step holds of the step's own
(`Step.run_blames`), so every validation passes it on (`Schema.validateAt_blames`).
-/
namespace Assay

/-- The second place is the first one or lies inside it. -/
def Path.LeadsTo (path place : Path) : Prop := path.segments <+: place.segments

namespace Path.LeadsTo

/-- A place leads to itself. -/
theorem refl (path : Path) : path.LeadsTo path := List.prefix_rfl

/-- What a place inside leads to, the place leads to. -/
theorem trans {path place further : Path} (first : path.LeadsTo place)
    (second : place.LeadsTo further) : path.LeadsTo further := List.IsPrefix.trans first second

/-- A place leads one step further. -/
theorem child (path : Path) (segment : Segment) : path.LeadsTo (path.child segment) :=
  List.prefix_append path.segments [segment]

end Path.LeadsTo

/-- A union that lists invalidations has one line for each of them. -/
theorem Reason.noMember_message {names : List String} {received : String}
    {invalidations : List String} (listed : invalidations ≠ []) :
    (noMember names received invalidations).message =
      "Value must be one of: " ++ ", ".intercalate names ++ ". Received " ++ received ++
        (" with the following invalidations:" ++
          String.join (invalidations.map fun message => "\n - " ++ message)) := by
  have several : invalidations.isEmpty = false := List.isEmpty_eq_false_iff.mpr listed
  unfold message invalidationsText
  simp only [several, Bool.false_eq_true, if_false]

variable {κ : Type}

/-- The calls of a step are at its place or inside it. -/
theorem Step.Calls.leadsTo {step : Step κ} {value : Value} {path place : Path}
    {scope inside : Scope} {schema : Schema κ} {input : Option Value}
    (calls : step.Calls value path scope schema input place inside) : path.LeadsTo place := by
  cases calls with
  | member => exact .refl path
  | _ => exact .child path _

/-! ## The fault of a union -/

namespace Members

variable {members : Members κ} {path : Path} {scope : Scope}

/-- The schemas that a union offers the value: those whose kind accepts its category. -/
def offered (members : Members κ) (value : Value) (schemas : List (Schema κ)) : List (Schema κ) :=
  schemas.filter fun schema =>
    ((members.kind schema).result?.map fun kind => kind.accepts value.category).getD false

/-- The kinds of the schemas are known, and those that are offered the value refuse it, with these
faults in order. -/
structure Refuse (members : Members κ) (value : Value) (path : Path) (scope : Scope)
    (schemas : List (Schema κ)) (causes : List Fault) : Prop where
  /-- Each schema has a kind. -/
  known : ∀ schema ∈ schemas, ∃ kind, (members.kind schema).result? = some kind
  /-- Each fault is that of a schema that is offered the value. -/
  refused : ((members.offered value schemas).map fun schema =>
    (members.validate schema (some value) path scope).fault?) = causes.map some

namespace Refuse

variable {value : Value} {schema : Schema κ} {rest : List (Schema κ)} {kind : Kind}
  {causes : List Fault}

/-- No schemas refuse a value without a fault. -/
theorem nil (members : Members κ) (value : Value) (path : Path) (scope : Scope) :
    members.Refuse value path scope [] [] := ⟨List.forall_mem_nil _, rfl⟩

/-- A schema that is not offered the value adds no fault. -/
theorem skip (found : (members.kind schema).result? = some kind)
    (other : kind.accepts value.category = false)
    (later : members.Refuse value path scope rest causes) :
    members.Refuse value path scope (schema :: rest) causes := by
  refine ⟨List.forall_mem_cons.mpr ⟨⟨kind, found⟩, later.known⟩, ?_⟩
  have same : members.offered value (schema :: rest) = members.offered value rest :=
    List.filter_cons_of_neg (by rw [found]; simp [other])
  rw [same]
  exact later.refused

/-- A schema that is offered the value adds its fault in front. -/
theorem cons {fault : Fault} (found : (members.kind schema).result? = some kind)
    (accepts : kind.accepts value.category = true)
    (rejected : (members.validate schema (some value) path scope).fault? = some fault)
    (later : members.Refuse value path scope rest causes) :
    members.Refuse value path scope (schema :: rest) (fault :: causes) := by
  refine ⟨List.forall_mem_cons.mpr ⟨⟨kind, found⟩, later.known⟩, ?_⟩
  have same : members.offered value (schema :: rest) = schema :: members.offered value rest :=
    List.filter_cons_of_pos (by rw [found]; simp [accepts])
  rw [same, List.map_cons, List.map_cons, rejected, later.refused]

/-- Each fault is that of one of the schemas. -/
theorem exists_of_mem {schemas : List (Schema κ)} {cause : Fault}
    (refuse : members.Refuse value path scope schemas causes) (listed : cause ∈ causes) :
    ∃ schema ∈ schemas, (members.validate schema (some value) path scope).fault? = some cause := by
  have among : some cause ∈ causes.map some := List.mem_map_of_mem listed
  rw [← refuse.refused] at among
  obtain ⟨schema, offered, rejected⟩ := List.mem_map.mp among
  exact ⟨schema, List.mem_of_mem_filter offered, rejected⟩

end Refuse

/-- A union fails because a member is a union, or because all members that it offers the value refuse
it; their faults are the causes, after those that were there before. -/
theorem firstOf_rejected {names : List String} {value : Value} {schemas : List (Schema κ)}
    {causes : List Fault} {fault : Fault}
    (kinds : ∀ schema ∈ schemas, (members.kind schema).fault? = none)
    (rejected : (members.firstOf names value path scope schemas causes).fault? = some fault) :
    fault = .located path .nestedUnion ∨
      ∃ later, fault = noMemberFault names value path (causes ++ later) ∧
        members.Refuse value path scope schemas later := by
  induction schemas generalizing causes with
  | nil =>
    rw [firstOf] at rejected
    split at rejected
    · obtain rfl := Option.some.inj rejected
      exact .inr ⟨[], by rw [List.append_nil], .nil members value path scope⟩
    · cases rejected
  | cons schema rest ih =>
    obtain ⟨sound, others⟩ := List.forall_mem_cons.mp kinds
    rw [firstOf, Run.fault?_bind] at rejected
    rcases rejected with unknown | ⟨kind, found, rejected⟩
    · rw [sound] at unknown
      cases unknown
    by_cases union : kind = .union
    · rw [if_pos union] at rejected
      obtain rfl := Option.some.inj rejected
      exact .inl rfl
    rw [if_neg union] at rejected
    cases accepts : kind.accepts value.category with
    | false =>
      rw [accepts, Bool.not_false, if_pos rfl] at rejected
      refine (ih others rejected).imp_right ?_
      rintro ⟨later, same, refuse⟩
      exact ⟨later, same, refuse.skip found accepts⟩
    | true =>
      rw [accepts, Bool.not_true, if_neg Bool.false_ne_true, Run.fault?_bind] at rejected
      rcases rejected with unknown | ⟨outcome, tried, rejected⟩
      · rw [Run.fault?_attempt] at unknown
        cases unknown
      cases outcome with
      | ok result => cases rejected
      | error cause =>
        have refused := Run.result?_attempt_error.mp tried
        rcases Run.fault?_bind.mp rejected with noted | ⟨_, _, rejected⟩
        · cases noted
        refine (ih others rejected).imp_right ?_
        rintro ⟨later, same, refuse⟩
        exact ⟨cause :: later, by rw [same, List.append_assoc, List.singleton_append],
          refuse.cons found accepts refused⟩

end Members

namespace Fault

/-- The fault and the faults among its causes, at any depth, have the property. -/
inductive Throughout (property : Fault → Prop) : Fault → Prop
  /-- A fault that has the property, and whose causes have it throughout. -/
  | intro {fault : Fault} (here : property fault)
      (later : ∀ cause ∈ fault.causes, Throughout property cause) : Throughout property fault

variable {host : Host κ} {schema : Schema κ} {path : Path}

/-- A union on the way through the schema ended with the fault for a value. The causes are the faults
of the members that it offered the value at the place of the fault, in order, and the reason has one
line for each of them. -/
def OfUnion (host : Host κ) (schema : Schema κ) (fault : Fault) : Prop :=
  ∃ body schemas depth value scope, schema.Reaches host body ∧ .members schemas ∈ body.steps ∧
    ((Step.members schemas).run host (Schema.membersAt host depth) body.settings value fault.path
      scope).fault? = some fault ∧
    (Schema.membersAt host depth).Refuse value fault.path scope schemas fault.causes ∧
    fault.reason.message =
      "Value must be one of: " ++ ", ".intercalate (schemas.map Schema.typeName) ++
        ". Received " ++ value.typeName ++ (" with the following invalidations:" ++
          String.join ((fault.causes.map message).map fun message => "\n - " ++ message))

/-- The fault has no label, its causes are at its place or inside it, and if it has causes it is that
of a union on the way through the schema. -/
structure Founded (host : Host κ) (schema : Schema κ) (fault : Fault) : Prop where
  /-- There is no label. -/
  bare : fault.labels = .empty
  /-- The causes are at the place of the fault or inside it. -/
  within : ∀ cause ∈ fault.causes, fault.path.LeadsTo cause.path
  /-- Only unions give causes. -/
  united : fault.causes ≠ [] → fault.OfUnion host schema

/-- The fault is at the place or inside it, and it is founded throughout. -/
def Blames (host : Host κ) (schema : Schema κ) (path : Path) (fault : Fault) : Prop :=
  path.LeadsTo fault.path ∧ fault.Throughout (Founded host schema)

/-- A fault at the place without causes. -/
theorem Blames.located (reason : Reason) : Blames host schema path (.located path reason) :=
  ⟨.refl path, .intro ⟨rfl, List.forall_mem_nil _, fun caused => absurd rfl caused⟩
    (List.forall_mem_nil _)⟩

/-- What is blamed inside a place is blamed there. -/
theorem Blames.of_leadsTo {place : Path} {fault : Fault} (leads : path.LeadsTo place)
    (blames : Blames host schema place fault) : Blames host schema path fault :=
  ⟨leads.trans blames.1, blames.2⟩

end Fault

namespace Step

variable {host : Host κ} {schema : Schema κ} {body : Body κ} {depth : Nat} {path : Path}
  {scope : Scope}

/-- A union on the way through a schema blames what its members blame. -/
theorem members_blames {schemas : List (Schema κ)} {value : Value}
    (reached : schema.Reaches host body) (taken : .members schemas ∈ body.steps)
    (each : ∀ member ∈ schemas, (member.validateAt host depth (some value) path scope).EndsWithin
      (Fault.Blames host schema path) True) :
    ((Step.members schemas).run host (Schema.membersAt host depth) body.settings value path
      scope).EndsWithin (Fault.Blames host schema path) True := by
  refine .of_fault fun fault rejected => ?_
  have kinds : ∀ member ∈ schemas, (member.resolvedKind host depth).fault? = none :=
    fun member _ => Schema.resolvedKind_fault? host member depth
  rcases Members.firstOf_rejected kinds rejected with rfl | ⟨causes, rfl, refuse⟩
  · exact .located .nestedUnion
  · have blamed : ∀ cause ∈ causes, Fault.Blames host schema path cause := by
      intro cause listed
      obtain ⟨member, among, refused⟩ := refuse.exists_of_mem listed
      exact (each member among).fault refused
    refine ⟨.refl path, .intro ⟨rfl, fun cause listed => (blamed cause listed).1, fun caused => ?_⟩
      fun cause listed => (blamed cause listed).2⟩
    exact ⟨body, schemas, depth, value, scope, reached, taken, rejected, refuse,
      Reason.noMember_message (List.map_eq_nil_iff.not.mpr caused)⟩

/-- A step on the way through a schema blames what its calls blame. -/
theorem run_blames {step : Step κ} {value : Value} (reached : schema.Reaches host body)
    (taken : step ∈ body.steps)
    (each : ∀ inner input place inside, step.Calls value path scope inner input place inside →
      (inner.validateAt host depth input place inside).EndsWithin
        (Fault.Blames host schema place) True) :
    (step.run host (Schema.membersAt host depth) body.settings value path scope).EndsWithin
      (Fault.Blames host schema path) True := by
  cases step with
  | members schemas =>
    exact members_blames reached taken fun member among =>
      each member (some value) path scope (.member among)
  | _ =>
    exact run_endsWithin (fun _ => .located) (fun _ => nofun) nofun nofun
      fun inner input place inside calls =>
        (each inner input place inside calls).mono fun _ => .of_leadsTo calls.leadsTo

end Step

namespace Schema

variable {host : Host κ} {outer : Schema κ}

/-- What a validation blames is founded in every schema that leads wherever its own schema does. -/
theorem validateAt_endsWithin_blames {depth : Nat} {schema : Schema κ} {value : Option Value}
    {path : Path} {scope : Scope}
    (within : ∀ body, schema.Reaches host body → outer.Reaches host body) :
    (schema.validateAt host depth value path scope).EndsWithin (Fault.Blames host outer path)
      True := by
  induction depth generalizing schema value path scope with
  | zero => exact trivial
  | succ depth ih =>
    cases schema with
    | built body =>
      refine Body.validate_endsWithin (fun _ => .located) fun given _ _ => ?_
      refine Body.takeSteps_endsWithin_of_each fun step taken _ given => ?_
      refine Step.run_blames (within body (.here body)) taken
        fun inner input place inside calls => ?_
      exact ih fun found reached => within found (.member taken calls.handed reached)
    | deferred name =>
      refine Run.EndsWithin.bind (.ofMisuse (.inl trivial)) fun target found => ?_
      have defined := Run.result?_ofMisuse_eq_some.mp found
      exact ih fun body reached => within body (.target defined reached)

/-- The fault of a validation is at its place or inside it. Neither it nor any fault among its causes,
at any depth, has a label; all causes are at the place of their fault or inside it; and a fault that
has causes is that of a union, which blames the members that it offered a value, one by one. -/
theorem validateAt_blames (host : Host κ) (depth : Nat) (schema : Schema κ) (value : Option Value)
    (path : Path) (scope : Scope) (fault : Fault)
    (rejected : (schema.validateAt host depth value path scope).fault? = some fault) :
    path.LeadsTo fault.path ∧ fault.Throughout (Fault.Founded host schema) :=
  (validateAt_endsWithin_blames fun _ reached => reached).fault rejected

end Schema

/-- A quantity is a count or a list of counts. -/
def quantity : Body Unit :=
  [.members [.deferred "count", .deferred "counts"], .default (.number 0)].foldl Body.refine
    (.ofKind .union)

/-- A list with a negative number is refused as a quantity because it is refused as a list of
counts. -/
theorem Schema.validateAt_blames_quantity :
    ∃ fault cause, ((Schema.built quantity).validateAt counts 5
        (some (.array [.number 1, .number (-2)])) .root (.new .strict)).fault? = some fault ∧
      fault.causes = [cause] ∧ cause.path = Path.root.index 1 ∧
      Path.root.LeadsTo fault.path ∧
      fault.Throughout (Fault.Founded counts (.built quantity)) :=
  ⟨_, _, rfl, rfl, rfl, validateAt_blames counts 5 (.built quantity)
    (some (.array [.number 1, .number (-2)])) .root (.new .strict) _ rfl⟩

end Assay
