import Mathlib.Data.Nat.Find
import Assay.Proofs.Essence
import Assay.Proofs.Routing

/-!
# Which member a lenient union resolves a value through

A union passes over the members that refuse a value and takes the result of the next one
(`Members.Picks`). Lenient validation leaves out the checks for which members refuse values, so a
lenient union ends with the first member that is offered the value, whatever came of it strictly
(`Step.run_members_resolves`). That is the member which a strict union picks only if none before it
is offered the value; an earlier one may rebuild it otherwise (`Step.run_members_strays`).
-/
namespace Assay

variable {κ : Type}

namespace Members

variable {members : Members κ} {value : Value} {path : Path} {scope : Scope}
  {schemas : List (Schema κ)}

/-- The kind of the member accepts the category of the value. -/
def Offers (members : Members κ) (value : Value) (schema : Schema κ) : Prop :=
  ∃ kind, (members.kind schema).result? = some kind ∧ kind.accepts value.category = true

/-- The member is no union, and its kind does not accept the category of the value. -/
def LeavesOut (members : Members κ) (value : Value) (schema : Schema κ) : Prop :=
  ∃ kind, (members.kind schema).result? = some kind ∧ kind ≠ .union ∧
    kind.accepts value.category = false

/-- A union passes over its members before a place, and takes the result of the one there. -/
def Picks (members : Members κ) (value : Value) (path : Path) (scope : Scope)
    (schemas : List (Schema κ)) (place : Nat) (result : Value) : Prop :=
  ∃ schema, schemas[place]? = some schema ∧
    (∀ other ∈ schemas.take place, members.PassesOver value path scope other) ∧
    members.Takes value path scope schema result

/-- Members are those before a place, the one there and those after it. -/
theorem split_at {place : Nat} {schema : Schema κ} (found : schemas[place]? = some schema) :
    schemas = schemas.take place ++ schema :: schemas.drop (place + 1) := by
  obtain ⟨bound, rfl⟩ := List.getElem?_eq_some_iff.mp found
  rw [← List.drop_eq_getElem_cons bound, List.take_append_drop]

/-- A union rebuilds a value exactly when it picks a member. -/
theorem firstOf_picks {names : List String} {causes : List Fault} {result : Value} :
    (members.firstOf names value path scope schemas causes).result? = some (some result) ↔
      ∃ place, members.Picks value path scope schemas place result := by
  rw [firstOf_taken]
  constructor
  · rintro ⟨before, schema, after, rfl, passed, taken⟩
    have here : (before ++ schema :: after)[before.length]? = some schema := by simp
    have earlier : (before ++ schema :: after).take before.length = before := by simp
    exact ⟨before.length, schema, here, earlier.symm ▸ passed, taken⟩
  · rintro ⟨place, schema, here, passed, taken⟩
    exact ⟨_, schema, _, split_at here, passed, taken⟩

/-- A union does not take the result of a member that it passes over. -/
theorem not_passesOver_of_takes {schema : Schema κ} {result : Value}
    (taken : members.Takes value path scope schema result) :
    ¬ members.PassesOver value path scope schema := by
  rintro ⟨kind, found, _, refused⟩
  obtain ⟨same, outcome, again, _, offered, accepted, _⟩ := taken
  obtain rfl := Option.some.inj (again.symm.trans found)
  obtain ⟨fault, rejected⟩ := refused offered
  rw [Run.fault?_of_result accepted] at rejected
  cases rejected

/-- What is before a place is among the items before it. -/
theorem mem_take_of_lt {earlier place : Nat} {schema : Schema κ} (before : earlier < place)
    (found : schemas[earlier]? = some schema) : schema ∈ schemas.take place :=
  List.mem_of_getElem? ((List.getElem?_take_of_lt before).trans found)

/-- A union picks its member at one place. -/
theorem Picks.place_unique {place other : Nat} {result made : Value}
    (one : members.Picks value path scope schemas place result)
    (two : members.Picks value path scope schemas other made) : place = other := by
  obtain ⟨first, here, passed, taken⟩ := one
  obtain ⟨second, there, skipped, chosen⟩ := two
  rcases Nat.lt_trichotomy place other with before | same | after
  · exact absurd (skipped first (mem_take_of_lt before here)) (not_passesOver_of_takes taken)
  · exact same
  · exact absurd (passed second (mem_take_of_lt after there)) (not_passesOver_of_takes chosen)

/-- The members of a union up to the one that it picks are no unions. -/
theorem Picks.kind {place other : Nat} {schema : Schema κ} {result : Value}
    (picked : members.Picks value path scope schemas place result) (upTo : other ≤ place)
    (found : schemas[other]? = some schema) :
    ∃ kind, (members.kind schema).result? = some kind ∧ kind ≠ .union := by
  obtain ⟨own, here, passed, taken⟩ := picked
  rcases Nat.lt_or_eq_of_le upTo with before | rfl
  · obtain ⟨kind, known, united, _⟩ := passed schema (mem_take_of_lt before found)
    exact ⟨kind, known, united⟩
  · obtain rfl := Option.some.inj (here.symm.trans found)
    obtain ⟨kind, _, known, united, _⟩ := taken
    exact ⟨kind, known, united⟩

/-- The member that a union picks is offered the value. -/
theorem Picks.offered {place : Nat} {result : Value}
    (picked : members.Picks value path scope schemas place result) :
    ∃ schema, schemas[place]? = some schema ∧ members.Offers value schema := by
  obtain ⟨schema, here, _, kind, _, known, _, accepts, _⟩ := picked
  exact ⟨schema, here, kind, known, accepts⟩

/-- The member that a union picks, or one before it, is the first that is offered the value. -/
theorem Picks.exists_first {place : Nat} {result : Value}
    (picked : members.Picks value path scope schemas place result) :
    ∃ early first, early ≤ place ∧ schemas[early]? = some first ∧ members.Offers value first ∧
      ∀ other ∈ schemas.take early, ¬ members.Offers value other := by
  classical
  have offering : ∃ early, ∃ first, schemas[early]? = some first ∧ members.Offers value first :=
    ⟨place, picked.offered⟩
  obtain ⟨first, found, offered⟩ := Nat.find_spec offering
  have upTo : Nat.find offering ≤ place := Nat.find_min' offering picked.offered
  refine ⟨Nat.find offering, first, upTo, found, offered, fun other listed also => ?_⟩
  obtain ⟨earlier, before, there⟩ := List.mem_take_iff_getElem.mp listed
  have smaller : earlier < Nat.find offering := by omega
  have here : schemas[earlier]? = some other := List.getElem?_eq_some_iff.mpr ⟨_, there⟩
  exact Nat.find_min offering smaller ⟨other, here, also⟩

/-- Members that are not offered the value, up to the one that a union picks, are left out. -/
theorem Picks.leavesOut {place early : Nat} {result : Value}
    (picked : members.Picks value path scope schemas place result) (upTo : early ≤ place)
    (unoffered : ∀ other ∈ schemas.take early, ¬ members.Offers value other) :
    ∀ other ∈ schemas.take early, members.LeavesOut value other := by
  intro other listed
  obtain ⟨earlier, before, there⟩ := List.mem_take_iff_getElem.mp listed
  have within : earlier ≤ place := by omega
  have here : schemas[earlier]? = some other := List.getElem?_eq_some_iff.mpr ⟨_, there⟩
  obtain ⟨kind, known, united⟩ := picked.kind within here
  refine ⟨kind, known, united, Bool.eq_false_iff.mpr fun accepts => ?_⟩
  exact unoffered other listed ⟨kind, known, accepts⟩

/-- What is left out is passed over, in whatever surroundings. -/
theorem LeavesOut.passesOver {schema : Schema κ} (left : members.LeavesOut value schema)
    (path : Path) (scope : Scope) : members.PassesOver value path scope schema := by
  obtain ⟨kind, known, united, unoffered⟩ := left
  refine ⟨kind, known, united, fun accepts => ?_⟩
  rw [unoffered] at accepts
  cases accepts

/-- A union ends as it does without the first members, if these are left out. -/
theorem firstOf_of_leavesOut {names : List String} {before : List (Schema κ)}
    (each : ∀ other ∈ before, members.LeavesOut value other) (rest : List (Schema κ))
    (causes : List Fault) :
    (members.firstOf names value path scope (before ++ rest) causes).verdict =
      (members.firstOf names value path scope rest causes).verdict := by
  induction before with
  | nil => rfl
  | cons first before ih =>
    obtain ⟨⟨kind, found, united, unoffered⟩, others⟩ := List.forall_mem_cons.mp each
    rw [List.cons_append, firstOf, Run.verdict_bind_of_result found, if_neg united, unoffered,
      Bool.not_false, if_pos rfl]
    exact ih others

/-- A union that offers the value to its first member, which does not fail, ends as that does. -/
theorem firstOf_of_offered {names : List String} {first : Schema κ} {kind : Kind}
    (found : (members.kind first).result? = some kind) (united : kind ≠ .union)
    (offered : kind.accepts value.category = true)
    (unfailing : (members.validate first (some value) path scope).fault? = none)
    (rest : List (Schema κ)) (causes : List Fault) :
    (members.firstOf names value path scope (first :: rest) causes).verdict =
      (members.validate first (some value) path scope >>= fun outcome =>
        pure (some (outcome.getD value))).verdict := by
  rw [firstOf, Run.verdict_bind_of_result found, if_neg united, offered, Bool.not_true,
    if_neg Bool.false_ne_true]
  exact Run.verdict_attempt_bind unfailing _

end Members

namespace Schema

variable {host : Host κ} {depth more : Nat} {schemas : List (Schema κ)} {schema : Schema κ}
  {value result : Value} {path : Path} {scope : Scope}

/-- A member that is left out at one depth is left out at every greater depth. -/
theorem leavesOut_of_le (enough : depth ≤ more)
    (left : (membersAt host depth).LeavesOut value schema) :
    (membersAt host more).LeavesOut value schema := by
  obtain ⟨kind, found, united, unoffered⟩ := left
  exact ⟨kind, resolvedKind_of_le enough found, united, unoffered⟩

/-- A member that is passed over at one depth is passed over at every greater depth. -/
theorem passesOver_of_le (enough : depth ≤ more)
    (passed : (membersAt host depth).PassesOver value path scope schema) :
    (membersAt host more).PassesOver value path scope schema := by
  obtain ⟨kind, found, united, refused⟩ := passed
  refine ⟨kind, resolvedKind_of_le enough found, united, fun accepts => ?_⟩
  obtain ⟨fault, rejected⟩ := refused accepts
  exact ⟨fault, fault?_of_le enough rejected⟩

/-- What is taken at one depth is taken at every greater depth. -/
theorem takes_of_le (enough : depth ≤ more)
    (taken : (membersAt host depth).Takes value path scope schema result) :
    (membersAt host more).Takes value path scope schema result := by
  obtain ⟨kind, outcome, found, united, accepts, validated, same⟩ := taken
  exact ⟨kind, outcome, resolvedKind_of_le enough found, united, accepts,
    result?_of_le enough validated, same⟩

/-- The member that is picked at one depth is picked at every greater depth. -/
theorem picks_of_le {place : Nat} (enough : depth ≤ more)
    (picked : (membersAt host depth).Picks value path scope schemas place result) :
    (membersAt host more).Picks value path scope schemas place result := by
  obtain ⟨schema, here, passed, taken⟩ := picked
  exact ⟨schema, here, fun other listed => passesOver_of_le enough (passed other listed),
    takes_of_le enough taken⟩

/-- Whatever the depth, a union picks its member at one place. -/
theorem picks_unique {place other : Nat} {made : Value}
    (one : (membersAt host depth).Picks value path scope schemas place result)
    (two : (membersAt host more).Picks value path scope schemas other made) : place = other := by
  have first := picks_of_le (Nat.le_max_left depth more) one
  have second := picks_of_le (Nat.le_max_right depth more) two
  exact first.place_unique second

end Schema

/-- A union accepts a value through the member that it picks. What it picks a member for, strictly or
not, is leniently resolved through the first member that is offered it: that member, or one before it,
and one before it exactly when one of these is offered it. The union then ends as this first member
does; it goes on only if the member fails, for which there is only one reason. -/
theorem Step.run_members_resolves (host : Host κ) (depth : Nat) (schemas : List (Schema κ))
    (settings : Settings κ) (value : Value) (path : Path) (scope : Scope) (place : Nat)
    (result : Value)
    (picked : (Schema.membersAt host depth).Picks value path scope schemas place result) :
    (∀ made, ((members schemas).run host (Schema.membersAt host depth) settings value path
        scope).result? = some (some made) ↔
      ∃ other, (Schema.membersAt host depth).Picks value path scope schemas other made) ∧
    ∃ early first, early ≤ place ∧ schemas[early]? = some first ∧
      (Schema.membersAt host depth).Offers value first ∧
      (∀ other ∈ schemas.take early, ¬ (Schema.membersAt host depth).Offers value other) ∧
      (early = place ↔
        ∀ other ∈ schemas.take place, ¬ (Schema.membersAt host depth).Offers value other) ∧
      ∀ more, depth ≤ more →
        (∀ fault, (first.validateAt host more (some value) path scope.lenient).fault? = some fault →
          ∃ inside, fault = .located inside .nestedUnion) ∧
        ((first.validateAt host more (some value) path scope.lenient).fault? = none →
          ((members schemas).run host (Schema.membersAt host more) settings value path
            scope.lenient).verdict =
          (first.validateAt host more (some value) path scope.lenient >>= fun outcome =>
            pure (some (outcome.getD value))).verdict) ∧
        ∀ outcome,
          (first.validateAt host more (some value) path scope.lenient).result? = some outcome →
            (Schema.membersAt host more).Picks value path scope.lenient schemas early
              (outcome.getD value) := by
  refine ⟨fun made => Members.firstOf_picks, ?_⟩
  obtain ⟨early, first, upTo, found, offered, earliest⟩ := picked.exists_first
  have same : early = place ↔
      ∀ other ∈ schemas.take place, ¬ (Schema.membersAt host depth).Offers value other := by
    constructor
    · rintro rfl
      exact earliest
    · intro none
      by_contra other
      have before : early < place := by omega
      exact none first (Members.mem_take_of_lt before found) offered
  refine ⟨early, first, upTo, found, offered, earliest, same, fun more enough => ?_⟩
  have left : ∀ other ∈ schemas.take early, (Schema.membersAt host more).LeavesOut value other := by
    intro other listed
    exact Schema.leavesOut_of_le enough (picked.leavesOut upTo earliest other listed)
  obtain ⟨kind, known, united⟩ := picked.kind upTo found
  obtain ⟨_, again, accepts⟩ := offered
  obtain rfl := Option.some.inj (again.symm.trans known)
  have later := Schema.resolvedKind_of_le enough known
  refine ⟨fun fault rejected => Schema.fault_of_lenient rfl rejected, fun unfailing => ?_,
    fun outcome accepted => ?_⟩
  · calc ((members schemas).run host (Schema.membersAt host more) settings value path
          scope.lenient).verdict
        = ((Schema.membersAt host more).firstOf (schemas.map Schema.typeName) value path
            scope.lenient (schemas.take early ++ first :: schemas.drop (early + 1))
            []).verdict := by
          rw [← Members.split_at found]
          rfl
      _ = ((Schema.membersAt host more).firstOf (schemas.map Schema.typeName) value path
            scope.lenient (first :: schemas.drop (early + 1)) []).verdict :=
          Members.firstOf_of_leavesOut left _ _
      _ = _ := Members.firstOf_of_offered later united accepts unfailing _ _
  · have passed : ∀ other ∈ schemas.take early,
        (Schema.membersAt host more).PassesOver value path scope.lenient other := by
      intro other listed
      exact (left other listed).passesOver path scope.lenient
    exact ⟨first, found, passed, _, outcome, later, united, accepts, accepted, rfl⟩

/-- Strictly two numbers are counts, leniently they are cut to a single count. -/
theorem Step.run_members_resolves_counts :
    (Schema.membersAt counts 4).Picks twoNumbers .root (.new .strict) offered 2 twoNumbers ∧
      ((members offered).run counts (Schema.membersAt counts 4) (.ofKind .union) twoNumbers .root
        (.new .strict)).result? = some (some twoNumbers) ∧
      (Schema.membersAt counts 4).Picks twoNumbers .root (.new .lenient) offered 0
        (.array [.number 2]) := by
  have picked :
      (Schema.membersAt counts 4).Picks twoNumbers .root (.new .strict) offered 2 twoNumbers := by
    refine ⟨.deferred "counts", rfl, fun other listed => ?_, .array, some twoNumbers, rfl,
      by decide, rfl, rfl, rfl⟩
    simp only [offered, List.take_succ_cons, List.take_zero, List.mem_cons, List.not_mem_nil,
      or_false] at listed
    rcases listed with rfl | rfl
    · exact ⟨.tuple, rfl, by decide, fun _ => ⟨_, rfl⟩⟩
    · exact ⟨.string, rfl, by decide, fun accepts => by cases accepts⟩
  obtain ⟨accepts, early, first, _, found, _, earliest, _, leniently⟩ :=
    run_members_resolves counts 4 offered (.ofKind .union) twoNumbers .root (.new .strict) 2
      twoNumbers picked
  have start : early = 0 := by
    by_contra later
    have before : 0 < early := by omega
    exact earliest _ (Members.mem_take_of_lt before rfl) ⟨.tuple, rfl, rfl⟩
  subst start
  obtain rfl := Option.some.inj found
  exact ⟨picked, (accepts twoNumbers).mpr ⟨2, picked⟩,
    (leniently 4 (Nat.le_refl 4)).2.2 (some (.array [.number 2])) rfl⟩

/-- The kind of a value, which has a default. -/
def kindField : String × Schema Unit :=
  ("kind", .built ((Body.ofKind .string).refine (.default (.string "a"))))

/-- A value of a kind and nothing else, or numbers by name. -/
def kinds : List (Schema Unit) :=
  [.built ((Body.shape [kindField]).refine (.exact true)),
    .built ((Body.ofKind .object).refine (.values (.built (.ofKind .number))))]

/-- A number by name. -/
def named : Value := .object [("x", .number 1)]

/-- Strictly a number by name is no value of a kind, leniently it becomes one, at any depth. -/
theorem Step.run_members_strays :
    (∀ schema ∈ kinds, ∀ body, schema.ResolvesTo events body → body.settings.kind ≠ .union) ∧
      named ≠ .null ∧
      (Schema.membersAt events 3).Picks named .root (.new .strict) kinds 1 named ∧
      (Schema.membersAt events 3).Picks named .root (.new .lenient) kinds 0
        (.object [("kind", .string "a"), ("x", .number 1)]) ∧
      ∀ more made, ¬ (Schema.membersAt events more).Picks named .root (.new .lenient) kinds 1
        made := by
  have united : ∀ schema ∈ kinds, ∀ body, schema.ResolvesTo events body →
      body.settings.kind ≠ .union := by
    intro schema listed body resolved
    simp only [kinds, List.mem_cons, List.not_mem_nil, or_false] at listed
    rcases listed with rfl | rfl <;> (cases resolved; decide)
  have strictly : (Schema.membersAt events 3).Picks named .root (.new .strict) kinds 1 named := by
    refine ⟨_, rfl, fun other listed => ?_, .object, some named, rfl, by decide, rfl, rfl, rfl⟩
    obtain rfl := List.mem_singleton.mp listed
    exact ⟨.shape, rfl, by decide, fun _ => ⟨_, rfl⟩⟩
  have leniently : (Schema.membersAt events 3).Picks named .root (.new .lenient) kinds 0
      (.object [("kind", .string "a"), ("x", .number 1)]) :=
    ⟨_, rfl, (fun _ listed => by cases listed), .shape, _, rfl, by decide, rfl, rfl, rfl⟩
  refine ⟨united, nofun, strictly, leniently, fun more made picked => ?_⟩
  cases Schema.picks_unique leniently picked

end Assay
