import Assay.Proofs.Depth
import Assay.Proofs.Extension

/-!
# Which member of a union takes a value

A union goes through its members in order, passes some over and takes the result of one
(`Members.firstOf_taken`). It offers a value only to members whose kind accepts its category, which
saves work and changes nothing: a kind other than those of dates and unions accepts the category of
whatever passes its type check (`Kind.accepts_of_check`), so a member that is not offered a value
would have refused it. Hence a union returns what the first member returns that does not fail on the
value by itself (`Step.run_members_returns`).
-/
namespace Assay

/-- Dates and unions apart, a kind accepts the category of all values that pass its type check. -/
theorem Kind.accepts_of_check {kind : Kind} {value : Value} (dated : kind ≠ .date)
    (united : kind ≠ .union) (checked : kind.check value = true) :
    kind.accepts value.category = true := by
  cases kind with
  | date => exact absurd rfl dated
  | union => exact absurd rfl united
  | custom => rfl
  | _ => cases value <;> first | rfl | cases checked

variable {κ : Type}

namespace Members

variable {members : Members κ} {path : Path} {scope : Scope}

/-- The member is no union, and refuses the value if it is offered it. -/
def PassesOver (members : Members κ) (value : Value) (path : Path) (scope : Scope)
    (schema : Schema κ) : Prop :=
  ∃ kind, (members.kind schema).result? = some kind ∧ kind ≠ .union ∧
    (kind.accepts value.category = true →
      ∃ fault, (members.validate schema (some value) path scope).fault? = some fault)

/-- The member is offered the value and leaves the result. -/
def Takes (members : Members κ) (value : Value) (path : Path) (scope : Scope)
    (schema : Schema κ) (result : Value) : Prop :=
  ∃ kind outcome, (members.kind schema).result? = some kind ∧ kind ≠ .union ∧
    kind.accepts value.category = true ∧
    (members.validate schema (some value) path scope).result? = some outcome ∧
    result = outcome.getD value

/-- A union passes its first member over and goes on with the rest, or takes its result. -/
theorem firstOf_cons_accepted {names : List String} {value : Value} {schema : Schema κ}
    {rest : List (Schema κ)} {causes : List Fault} {outcome : Option Value}
    (accepted : (members.firstOf names value path scope (schema :: rest) causes).result? =
      some outcome) :
    (members.PassesOver value path scope schema ∧
      ∃ causes, (members.firstOf names value path scope rest causes).result? = some outcome) ∨
    ∃ result, outcome = some result ∧ members.Takes value path scope schema result := by
  rw [firstOf, Run.result?_bind, Option.bind_eq_some_iff] at accepted
  obtain ⟨kind, found, tried⟩ := accepted
  by_cases union : kind = .union
  · rw [if_pos union] at tried
    cases tried
  rw [if_neg union] at tried
  cases offered : kind.accepts value.category with
  | false =>
    rw [offered, Bool.not_false, if_pos rfl] at tried
    refine .inl ⟨⟨kind, found, union, fun accepts => ?_⟩, causes, tried⟩
    rw [offered] at accepts
    cases accepts
  | true =>
    rw [offered, Bool.not_true, if_neg Bool.false_ne_true, Run.result?_bind,
      Option.bind_eq_some_iff] at tried
    obtain ⟨attempted, ended, chosen⟩ := tried
    cases attempted with
    | ok made =>
      exact .inr ⟨_, (Option.some.inj chosen).symm, kind, made, found, union, offered,
        Run.result?_attempt_ok.mp ended, rfl⟩
    | error fault =>
      rw [Run.result?_bind, Run.result?_note, Option.bind_some] at chosen
      exact .inl ⟨⟨kind, found, union, fun _ => ⟨fault, Run.result?_attempt_error.mp ended⟩⟩, _,
        chosen⟩

/-- A union that passes its first member over has the result of the rest. -/
theorem firstOf_cons_of_passesOver {names : List String} {value : Value} {schema : Schema κ}
    (passed : members.PassesOver value path scope schema) (rest : List (Schema κ))
    (causes : List Fault) :
    ∃ later, (members.firstOf names value path scope (schema :: rest) causes).result? =
      (members.firstOf names value path scope rest later).result? := by
  obtain ⟨kind, found, union, refused⟩ := passed
  cases offered : kind.accepts value.category with
  | false =>
    refine ⟨causes, ?_⟩
    rw [firstOf, Run.result?_bind, found, Option.bind_some, if_neg union, offered, Bool.not_false,
      if_pos rfl]
  | true =>
    obtain ⟨fault, rejected⟩ := refused offered
    refine ⟨causes ++ [fault], ?_⟩
    rw [firstOf, Run.result?_bind, found, Option.bind_some, if_neg union, offered, Bool.not_true,
      if_neg Bool.false_ne_true, Run.result?_bind, Run.result?_attempt_error.mpr rejected,
      Option.bind_some, Run.result?_bind, Run.result?_note, Option.bind_some]

/-- A union that rebuilds a value passed some members over and took the result of the next. -/
theorem exists_taken {names : List String} {value result : Value} {schemas : List (Schema κ)}
    {causes : List Fault}
    (accepted : (members.firstOf names value path scope schemas causes).result? =
      some (some result)) :
    ∃ before schema after, schemas = before ++ schema :: after ∧
      (∀ other ∈ before, members.PassesOver value path scope other) ∧
      members.Takes value path scope schema result := by
  induction schemas generalizing causes with
  | nil =>
    rw [firstOf] at accepted
    split at accepted <;> cases accepted
  | cons schema rest ih =>
    rcases firstOf_cons_accepted accepted with ⟨passed, _, later⟩ | ⟨_, same, taken⟩
    · obtain ⟨before, other, after, rfl, all, taken⟩ := ih later
      exact ⟨schema :: before, other, after, rfl, List.forall_mem_cons.mpr ⟨passed, all⟩, taken⟩
    · obtain rfl := Option.some.inj same
      exact ⟨[], schema, rest, rfl, List.forall_mem_nil _, taken⟩

/-- A union takes the result of a member after passing over those before it. -/
theorem firstOf_of_taken {names : List String} {value result : Value}
    {before after : List (Schema κ)} {schema : Schema κ}
    (passed : ∀ other ∈ before, members.PassesOver value path scope other)
    (taken : members.Takes value path scope schema result) (causes : List Fault) :
    (members.firstOf names value path scope (before ++ schema :: after) causes).result? =
      some (some result) := by
  induction before generalizing causes with
  | nil =>
    obtain ⟨kind, outcome, found, union, offered, validated, rfl⟩ := taken
    rw [List.nil_append, firstOf, Run.result?_bind, found, Option.bind_some, if_neg union, offered,
      Bool.not_true, if_neg Bool.false_ne_true, Run.result?_bind,
      Run.result?_attempt_ok.mpr validated]
    rfl
  | cons first before ih =>
    obtain ⟨own, others⟩ := List.forall_mem_cons.mp passed
    obtain ⟨later, same⟩ := firstOf_cons_of_passesOver own (before ++ schema :: after) causes
    rw [List.cons_append, same]
    exact ih others later

/-- Exactly a lenient union that passes all members over leaves the value as it is. -/
theorem firstOf_leaves {names : List String} {value : Value} {schemas : List (Schema κ)}
    {causes : List Fault} :
    (members.firstOf names value path scope schemas causes).result? = some none ↔
      scope.isStrict = false ∧ ∀ schema ∈ schemas, members.PassesOver value path scope schema := by
  induction schemas generalizing causes with
  | nil =>
    rw [firstOf]
    cases scope.isStrict <;> simp
  | cons schema rest ih =>
    rw [List.forall_mem_cons]
    constructor
    · intro accepted
      rcases firstOf_cons_accepted accepted with ⟨passed, _, later⟩ | ⟨_, other, _⟩
      · obtain ⟨lenient, others⟩ := ih.mp later
        exact ⟨lenient, passed, others⟩
      · cases other
    · rintro ⟨lenient, passed, others⟩
      obtain ⟨later, same⟩ := firstOf_cons_of_passesOver passed rest causes
      rw [same]
      exact ih.mpr ⟨lenient, others⟩

/-- A union rebuilds a value exactly when it passes some members over and takes the result of the
next. -/
theorem firstOf_taken {names : List String} {value result : Value} {schemas : List (Schema κ)}
    {causes : List Fault} :
    (members.firstOf names value path scope schemas causes).result? = some (some result) ↔
      ∃ before schema after, schemas = before ++ schema :: after ∧
        (∀ other ∈ before, members.PassesOver value path scope other) ∧
        members.Takes value path scope schema result := by
  constructor
  · exact exists_taken
  · rintro ⟨before, schema, after, rfl, passed, taken⟩
    exact firstOf_of_taken passed taken causes

end Members

namespace Body

variable {host : Host κ} {members : Members κ} {body : Body κ} {path : Path} {scope : Scope}

/-- Defined input is received as it is, or refused. -/
theorem receive_defined (host : Host κ) (settings : Settings κ) (value : Value) (path : Path)
    (scope : Scope) : (receive host settings (some value) path scope).result? = some (some value) ∨
      ∃ fault, (receive host settings (some value) path scope).fault? = some fault := by
  have allowed : (if settings.never && scope.isStrict then .reject (.located path .neverUsed)
      else pure (some value) : Run (Option Value)).result? = some (some value) ∨
      ∃ fault, (if settings.never && scope.isStrict then .reject (.located path .neverUsed)
        else pure (some value) : Run (Option Value)).fault? = some fault := by
    split
    · exact .inr ⟨_, rfl⟩
    · exact .inl rfl
  rw [receive]
  cases settings.deprecated with
  | none => exact allowed
  | some message =>
    rcases allowed with received | ⟨fault, refused⟩
    · exact .inl ((Run.result?_bind _ _).trans received)
    · exact .inr ⟨fault, Run.fault?_bind.mpr (.inr ⟨(), rfl, refused⟩)⟩

/-- A strict validation refuses a value other than null that fails the type check. -/
theorem validate_wrongKind {value : Value} (strict : scope.isStrict = true)
    (defined : value ≠ .null) (wrong : body.settings.kind.check value = false) :
    ∃ fault, (body.validate host members (some value) path scope).fault? = some fault := by
  rcases receive_defined host body.settings value path scope with received | ⟨fault, refused⟩
  · have present : value.isNull = false := Value.isNull_eq_false_iff.mpr defined
    have processed : (body.process host members value path scope).fault? =
        some (.located path (.wrongKind body.settings.kind)) := by
      rw [process, strict, wrong, Bool.not_false, Bool.and_true, if_pos rfl, Run.fault?_reject]
    refine ⟨.located path (.wrongKind body.settings.kind),
      Run.fault?_bind.mpr (.inr ⟨some value, received, ?_⟩)⟩
    dsimp only
    rw [present, if_neg Bool.false_ne_true]
    exact Run.fault?_bind.mpr (.inl processed)
  · exact ⟨fault, Run.fault?_bind.mpr (.inl refused)⟩

end Body

namespace Schema

variable {host : Host κ} {path : Path} {scope : Scope}

/-- A schema that completes has a kind, found to the same depth. -/
theorem resolvedKind_of_completes {depth : Nat} {schema : Schema κ} {value : Option Value}
    (ended : (schema.validateAt host depth value path scope).Completes) :
    ∃ kind, (schema.resolvedKind host depth).result? = some kind := by
  induction depth generalizing schema with
  | zero => rcases ended with ⟨_, accepted⟩ | ⟨_, rejected⟩ <;> contradiction
  | succ depth ih =>
    cases schema with
    | built body => exact ⟨body.settings.kind, rfl⟩
    | deferred name =>
      rcases ended.of_bind with ⟨fault, misused⟩ | ⟨target, defined, later⟩
      · rw [Run.fault?_ofMisuse] at misused
        contradiction
      · obtain ⟨kind, found⟩ := ih later
        refine ⟨kind, ?_⟩
        rw [resolvedKind, Run.result?_bind, defined, Option.bind_some, found]

/-- A schema that stands for a body fails strictly on what fails the type check of the body. -/
theorem fails_of_check {schema : Schema κ} {body : Body κ} {value : Value}
    (resolved : schema.ResolvesTo host body) (strict : scope.isStrict = true)
    (defined : value ≠ .null) (wrong : body.settings.kind.check value = false) :
    schema.Fails host (some value) path scope := by
  induction resolved with
  | built body =>
    obtain ⟨fault, rejected⟩ := Body.validate_wrongKind strict defined wrong
    exact ⟨1, fault, rejected⟩
  | deferred found _ ih =>
    obtain ⟨depth, fault, rejected⟩ := ih wrong
    refine ⟨depth + 1, fault, Run.fault?_bind.mpr (.inr ⟨_, ?_, rejected⟩)⟩
    rw [Run.result?_ofMisuse_eq_some]
    exact found

/-- What a schema accepts strictly, other than null, passes the type check of its kind. -/
theorem check_of_accepted {depth : Nat} {schema : Schema κ} {kind : Kind} {value : Value}
    {outcome : Option Value} (strict : scope.isStrict = true) (defined : value ≠ .null)
    (found : (schema.resolvedKind host depth).result? = some kind)
    (accepted : (schema.validateAt host depth (some value) path scope).result? = some outcome) :
    kind.check value = true := by
  obtain ⟨body, resolved, rfl⟩ := resolvedKind_accepted found
  obtain ⟨same, inner, _, other, validated⟩ := validateAt_accepted accepted
  obtain rfl := other.unique resolved
  rcases Body.validate_accepted validated with
    ⟨received, _⟩ | ⟨received, _⟩ | ⟨given, _, received, _, processed, _⟩
  · cases (Body.receive_accepted received).1
  · exact absurd (Option.some.inj (Body.receive_accepted received).1).symm defined
  · obtain rfl := Option.some.inj (Body.receive_accepted received).1
    exact (Body.process_accepted processed).1 strict

/-- Schemas that all fail do so to a common depth. -/
theorem fail_together {schemas : List (Schema κ)} {value : Option Value}
    (failed : ∀ schema ∈ schemas, schema.Fails host value path scope) :
    ∃ depth, ∀ schema ∈ schemas, ∃ fault,
      (schema.validateAt host depth value path scope).fault? = some fault := by
  induction schemas with
  | nil => exact ⟨0, nofun⟩
  | cons schema rest ih =>
    obtain ⟨⟨one, fault, first⟩, others⟩ := List.forall_mem_cons.mp failed
    obtain ⟨two, later⟩ := ih others
    refine ⟨max one two, List.forall_mem_cons.mpr ⟨⟨fault, ?_⟩, fun other member => ?_⟩⟩
    · exact fault?_of_le (Nat.le_max_left one two) first
    · obtain ⟨fault, rejected⟩ := later other member
      exact ⟨fault, fault?_of_le (Nat.le_max_right one two) rejected⟩

section members

variable {depth : Nat} {schema : Schema κ} {value : Value}

/-- A schema, neither of dates nor a union, that a union passes over fails by itself. -/
theorem fails_of_passesOver (strict : scope.isStrict = true) (defined : value ≠ .null)
    (routed : ∀ body, schema.ResolvesTo host body →
      body.settings.kind ≠ .date ∧ body.settings.kind ≠ .union)
    (passed : (membersAt host depth).PassesOver value path scope schema) :
    schema.Fails host (some value) path scope := by
  obtain ⟨kind, found, _, refused⟩ := passed
  cases offered : kind.accepts value.category with
  | true =>
    obtain ⟨fault, rejected⟩ := refused offered
    exact ⟨depth, fault, rejected⟩
  | false =>
    obtain ⟨body, resolved, rfl⟩ := resolvedKind_accepted found
    obtain ⟨dated, united⟩ := routed body resolved
    refine fails_of_check resolved strict defined ?_
    by_contra passes
    have accepts := Kind.accepts_of_check dated united ((Bool.not_eq_false _).mp passes)
    rw [offered] at accepts
    cases accepts

/-- A schema, not a union, that fails by itself is passed over by a union. -/
theorem passesOver_of_fault
    (routed : ∀ body, schema.ResolvesTo host body → body.settings.kind ≠ .union) {fault : Fault}
    (rejected : (schema.validateAt host depth (some value) path scope).fault? = some fault) :
    (membersAt host depth).PassesOver value path scope schema := by
  obtain ⟨kind, found⟩ := resolvedKind_of_completes (.inr ⟨fault, rejected⟩)
  obtain ⟨body, resolved, rfl⟩ := resolvedKind_accepted found
  exact ⟨_, found, routed body resolved, fun _ => ⟨fault, rejected⟩⟩

/-- What a union takes from a schema, the schema returns by itself. -/
theorem returns_of_takes {result : Value} (strict : scope.isStrict = true)
    (taken : (membersAt host depth).Takes value path scope schema result) :
    schema.Returns host (some value) path scope (some result) := by
  obtain ⟨kind, outcome, _, _, _, validated, rfl⟩ := taken
  obtain ⟨kept, rfl, _⟩ :=
    membersAt_keep host depth schema value path scope outcome strict validated
  exact ⟨depth, validated⟩

/-- What a schema, neither of dates nor a union, returns by itself is there for a union to take. -/
theorem takes_of_accepted {result : Value} (strict : scope.isStrict = true)
    (defined : value ≠ .null)
    (routed : ∀ body, schema.ResolvesTo host body →
      body.settings.kind ≠ .date ∧ body.settings.kind ≠ .union)
    (accepted : (schema.validateAt host depth (some value) path scope).result? =
      some (some result)) :
    (membersAt host depth).Takes value path scope schema result := by
  obtain ⟨kind, found⟩ := resolvedKind_of_completes (.inl ⟨_, accepted⟩)
  have checked := check_of_accepted strict defined found accepted
  obtain ⟨body, resolved, rfl⟩ := resolvedKind_accepted found
  obtain ⟨dated, united⟩ := routed body resolved
  have offered := Kind.accepts_of_check dated united checked
  exact ⟨_, some result, found, united, offered, accepted, rfl⟩

end members

end Schema

/-- Strictly resolved, a union none of whose members is one of dates or a union returns what a
member returns, validated by itself, when every member before it fails by itself. -/
theorem Step.run_members_returns (host : Host κ) (schemas : List (Schema κ))
    (routed : ∀ schema ∈ schemas, ∀ body, schema.ResolvesTo host body →
      body.settings.kind ≠ .date ∧ body.settings.kind ≠ .union)
    (settings : Settings κ) (value : Value) (defined : value ≠ .null) (path : Path) (scope : Scope)
    (strict : scope.mode = .strict) (result : Value) :
    (∃ depth, ((Step.members schemas).run host (Schema.membersAt host depth) settings value path
      scope).result? = some (some result)) ↔
    ∃ before schema after, schemas = before ++ schema :: after ∧
      (∀ other ∈ before, other.Fails host (some value) path scope) ∧
      schema.Returns host (some value) path scope (some result) := by
  have strictly : scope.isStrict = true := Scope.isStrict_of_mode strict
  constructor
  · rintro ⟨depth, accepted⟩
    obtain ⟨before, schema, after, rfl, passed, taken⟩ := Members.firstOf_taken.mp accepted
    refine ⟨before, schema, after, rfl, fun other member => ?_,
      Schema.returns_of_takes strictly taken⟩
    have own := routed other (List.mem_append_left _ member)
    exact Schema.fails_of_passesOver strictly defined own (passed other member)
  · rintro ⟨before, schema, after, rfl, failed, one, accepted⟩
    obtain ⟨two, rejected⟩ := Schema.fail_together failed
    -- The union needs the depth of the member that it takes and of all before it.
    have validated := Schema.result?_of_le (Nat.le_max_left one two) accepted
    have own := routed schema (List.mem_append_right _ List.mem_cons_self)
    have taken := Schema.takes_of_accepted strictly defined own validated
    refine ⟨max one two, Members.firstOf_taken.mpr
      ⟨before, schema, after, rfl, fun other member => ?_, taken⟩⟩
    obtain ⟨fault, ended⟩ := rejected other member
    have refused := Schema.fault?_of_le (Nat.le_max_right one two) ended
    exact Schema.passesOver_of_fault
      (fun body resolved => (routed other (List.mem_append_left _ member) body resolved).2) refused

/-- Members that are offered a list or not: a single count, a text, counts, anything. -/
def offered : List (Schema Unit) :=
  [.built (.tuple [.built count]), .built (.ofKind .string), .deferred "counts",
    .built (.custom () .null)]

/-- No member stands for a date or a union. -/
theorem offered_routed : ∀ schema ∈ offered, ∀ body, schema.ResolvesTo counts body →
    body.settings.kind ≠ .date ∧ body.settings.kind ≠ .union := by
  intro schema member body resolved
  simp only [offered, List.mem_cons, List.not_mem_nil, or_false] at member
  rcases member with rfl | rfl | rfl | rfl
  · cases resolved
    decide
  · cases resolved
    decide
  · cases resolved with
    | deferred found later =>
      obtain rfl := Except.ok.inj found
      cases later
      decide
  · cases resolved
    decide

/-- Two numbers. -/
def twoNumbers : Value := .array [.number 2, .number 3]

/-- Two numbers are no single count and no text, so they are counts. -/
theorem Step.run_members_returns_counts :
    (∀ schema ∈ offered, ∀ body, schema.ResolvesTo counts body →
        body.settings.kind ≠ .date ∧ body.settings.kind ≠ .union) ∧
      twoNumbers ≠ .null ∧ (Scope.new .strict).mode = .strict ∧
      (∃ depth, ((Step.members offered).run counts (Schema.membersAt counts depth)
        (.ofKind .union) twoNumbers .root (.new .strict)).result? = some (some twoNumbers)) ∧
      ∃ before schema after, offered = before ++ schema :: after ∧
        (∀ other ∈ before, other.Fails counts (some twoNumbers) .root (.new .strict)) ∧
        schema.Returns counts (some twoNumbers) .root (.new .strict) (some twoNumbers) :=
  ⟨offered_routed, nofun, rfl, ⟨4, rfl⟩, (run_members_returns counts offered offered_routed
    (.ofKind .union) twoNumbers nofun .root (.new .strict) rfl twoNumbers).mp ⟨4, rfl⟩⟩

end Assay
