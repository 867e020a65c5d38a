import Assay.Proofs.Conformance
import Assay.Proofs.Leniency
import Assay.Proofs.Routing

/-!
# Steps that settle what they leave

A step is settled for a value when it changes nothing if it is taken with that value, in whatever
object (`Step.Settled`). Every step settles what it leaves in a strict validation
(`Step.run_settles`), if its checks look at nothing but the value, its members leave their results
as they are (`Members.Stable`), and no union could send a result to another member than its input.
What it does with items, values, positions and fields holds in either mode for schemas that leave
their outcomes as they are (`Members.Settles`). The result may differ from the input everywhere:
defaults are filled in, texts have become dates, tuples are complete.
-/
namespace Assay

variable {κ : Type}

/-- Whether a check that a value passes is passed, wherever it is made, by all that it extends
to. -/
def Check.isStable : Check κ → Bool
  | only _ | presence .. | custom _ => false
  | _ => true

/-- What a schema describes that is not null passes the type check of the body it stands for. -/
theorem Schema.Conforms.check {host : Host κ} {schema : Schema κ} {body : Body κ} {value : Value}
    (conforms : schema.Conforms host value) (resolved : schema.ResolvesTo host body)
    (defined : value ≠ .null) : body.settings.kind.check value = true := by
  induction resolved with
  | deferred found _ ih =>
    cases conforms with
    | deferred again inner =>
      obtain rfl := Except.ok.inj (found.symm.trans again)
      exact ih inner
  | built body =>
    cases conforms with
    | null => exact absurd rfl defined
    | number kind finite =>
      rw [kind]
      exact finite
    | string kind | boolean kind | date kind | function kind | inst kind | array kind
    | object kind | tuple kind | shape kind | shapedInst kind | union kind | custom kind =>
      rw [kind]
      rfl

/-- A stable check that a value passes is passed by all that the value extends to, wherever it is,
provided that it has the size of the value if that is what is checked. -/
theorem Check.objection?_of_extends {host : Host κ} {condition : Check κ} {value later : Value}
    {path : Path} {scope : Scope} (stable : condition.isStable = true)
    (extended : value.ExtendsTo later)
    (sized : ∀ container rule, condition = .size container rule →
      container.size? later = container.size? value)
    (passed : condition.objection? host value path scope = none) (place : Path) (beside : Scope) :
    condition.objection? host later place beside = none := by
  cases condition with
  | text rule =>
    cases extended with
    | string => exact passed
    | _ => rfl
  | number rule =>
    cases extended with
    | number => exact passed
    | _ => rfl
  | boolean expected =>
    cases extended with
    | bool => exact passed
    | _ => rfl
  | date rule =>
    cases extended with
    | date denoted =>
      rw [objection?, denoted] at passed
      exact passed
    | array => rfl
    | object => rfl
    | _ => exact passed
  | size container rule =>
    rw [objection?, ← sized container rule rfl] at passed
    exact passed
  | instanceOf cls loose =>
    cases extended with
    | @date value _ denoted =>
      cases value with
      | inst => cases denoted
      | _ => cases passed
    | array => cases passed
    | object => cases passed
    | _ => exact passed
  | only => cases stable
  | presence => cases stable
  | custom => cases stable

/-! ## Members -/

namespace Members

variable {members : Members κ} {host : Host κ} {schema : Schema κ} {path : Path} {scope : Scope}

/-- The schema has no outcome that it does not allow, leaves nothing undefined, and in any object
leaves its results as they are. -/
structure Stable (members : Members κ) (host : Host κ) (schema : Schema κ) : Prop where
  /-- It has no outcome that it does not allow. -/
  sound : members.Sound host schema
  /-- It leaves nothing undefined. -/
  supplied : ¬ schema.LeavesUndefined host
  /-- In any object it leaves its results as they are. -/
  settles : ∀ value path scope result, scope.isStrict = true →
    (members.validate schema value path scope).result? = some (some result) → ∀ current,
      (members.validate schema (some result) path { scope with current := current }).result? =
        some (some result)

/-- An outcome of a stable schema is a value that the schema leaves as it is. -/
theorem Stable.outcome {value outcome : Option Value} (stable : members.Stable host schema)
    (strict : scope.isStrict = true)
    (accepted : (members.validate schema value path scope).result? = some outcome) :
    ∃ result, outcome = some result ∧ ∀ current,
      (members.validate schema (some result) path { scope with current := current }).result? =
        some (some result) := by
  cases outcome with
  | none => exact absurd (stable.sound value path scope none strict accepted) stable.supplied
  | some result => exact ⟨result, rfl, stable.settles value path scope result strict accepted⟩

/-- In a mode, the schema has a result for all defined input, and in any object it leaves its
outcomes as they are, null in the place of undefined ones included. -/
structure Settles (members : Members κ) (strict : Bool) (schema : Schema κ) : Prop where
  /-- Defined input has a result. -/
  defined : ∀ value path scope outcome, scope.isStrict = strict →
    (members.validate schema (some value) path scope).result? = some outcome →
      ∃ result, outcome = some result
  /-- In any object it leaves its outcomes as they are. -/
  again : ∀ value path scope outcome, scope.isStrict = strict →
    (members.validate schema value path scope).result? = some outcome → ∀ current,
      (members.validate schema outcome path { scope with current := current }).result? =
        some outcome
  /-- Where it leaves undefined input undefined, it leaves null as it is. -/
  filled : ∀ path scope, scope.isStrict = strict →
    (members.validate schema none path scope).result? = some none → ∀ current,
      (members.validate schema (some .null) path { scope with current := current }).result? =
        some (some .null)

/-- A stable schema settles its outcomes in the strict mode. -/
theorem Stable.outcomes (stable : members.Stable host schema) : members.Settles true schema := by
  refine ⟨fun value path scope outcome strict accepted => ?_,
    fun value path scope outcome strict accepted current => ?_,
    fun path scope strict accepted _ => ?_⟩
  · obtain ⟨result, same, _⟩ := stable.outcome strict accepted
    exact ⟨result, same⟩
  · obtain ⟨result, rfl, settled⟩ := stable.outcome strict accepted
    exact settled current
  · obtain ⟨_, missing, _⟩ := stable.outcome strict accepted
    cases missing

/-- An array is left as it is when each of its items is. -/
theorem elements_settled {index : Nat} {items : List Value}
    (each : ∀ place item, items[place]? = some item →
      (members.validate schema (some item) (path.index (index + place)) scope).result? =
        some (some item)) :
    (members.elements schema path scope index items).result? = some items := by
  induction items generalizing index with
  | nil => rfl
  | cons first rest ih =>
    have head := each 0 first rfl
    have tail := ih fun place item found => by
      have moved : index + 1 + place = index + (place + 1) := by omega
      rw [moved]
      exact each (place + 1) item found
    rw [Nat.add_zero] at head
    simp only [elements, Run.result?_bind, head, tail, Option.bind_some, Run.result?_pure,
      Option.getD_some]

/-- An object is left as it is when each of its values is. -/
theorem values_settled {entries : List (String × Value)}
    (each : ∀ entry ∈ entries, (members.validate schema (some entry.2) (path.key entry.1)
      scope).result? = some (some entry.2)) :
    (members.values schema path scope entries).result? = some entries := by
  induction entries with
  | nil => rfl
  | cons entry rest ih =>
    obtain ⟨head, tail⟩ := List.forall_mem_cons.mp each
    simp only [values, Run.result?_bind, head, ih tail, Option.bind_some, Run.result?_pure,
      Option.getD_some]

/-- Keys are accepted when the schema accepts each of them as a text. -/
theorem keys_accepted {entries : List (String × Value)} :
    (members.keys schema path scope entries).result? = some () ↔
      ∀ key ∈ Entries.keys entries, ∃ outcome,
        (members.validate schema (some (.string key)) (path.key key) scope).result? =
          some outcome := by
  induction entries with
  | nil => simp [keys, Entries.keys]
  | cons entry rest ih =>
    obtain ⟨key, value⟩ := entry
    have split : Entries.keys ((key, value) :: rest) = key :: Entries.keys rest := rfl
    rw [split, List.forall_mem_cons, ← ih, keys, Run.result?_bind, Option.bind_eq_some_iff]
    constructor
    · rintro ⟨outcome, head, tail⟩
      exact ⟨⟨outcome, head⟩, tail⟩
    · rintro ⟨⟨outcome, head⟩, tail⟩
      exact ⟨outcome, head, tail⟩

/-- Declared fields are accepted when each of them is. -/
theorem fields_of_accepted {declared : List (String × Schema κ)}
    {input : List (String × Value)}
    (each : ∀ field ∈ declared, ∃ outcome,
      (members.validate field.2 (input.lookup field.1) (path.key field.1) scope).result? =
        some outcome) (output : List (String × Value)) :
    ∃ built, (members.fields input path scope declared output).result? = some built := by
  induction declared generalizing output with
  | nil => exact ⟨output, rfl⟩
  | cons field rest ih =>
    obtain ⟨⟨outcome, head⟩, tail⟩ := List.forall_mem_cons.mp each
    simp only [fields, Run.result?_bind, head, Option.bind_some]
    exact ih tail _

/-- A complete tuple is left as it is when each of its items is. -/
theorem positions_settled {index : Nat} {schemas : List (Schema κ)} {items : List Value}
    (length : items.length = schemas.length)
    (each : ∀ place schema item, schemas[place]? = some schema → items[place]? = some item →
      (members.validate schema (some item) (path.index (index + place)) scope).result? =
        some (some item)) :
    (members.positions path scope index schemas items).result? = some items := by
  induction schemas generalizing index items with
  | nil =>
    obtain rfl := List.eq_nil_of_length_eq_zero length
    rfl
  | cons schema rest ih =>
    cases items with
    | nil => cases length
    | cons item others =>
      have head := each 0 schema item rfl rfl
      have tail := ih (Nat.succ.inj length) fun place schema item listed found => by
        have moved : index + 1 + place = index + (place + 1) := by omega
        rw [moved]
        exact each (place + 1) schema item listed found
      rw [Nat.add_zero] at head
      simp only [positions, Run.result?_bind, List.head?_cons, head, List.tail_cons, tail,
        Option.bind_some, Run.result?_pure, Option.getD_some]

/-- A kind that accepts the category of a value accepts that of its result. -/
theorem accepts_result {kind : Kind} {value result : Value} (kinds : members.KindsResolve host)
    (keep : members.Keep) (sound : members.Sound host schema) (strict : scope.isStrict = true)
    (found : (members.kind schema).result? = some kind)
    (offered : kind.accepts value.category = true)
    (accepted : (members.validate schema (some value) path scope).result? = some (some result)) :
    kind.accepts result.category = true := by
  obtain ⟨outcome, same, extended⟩ := keep schema value path scope _ strict accepted
  obtain rfl := Option.some.inj same
  obtain ⟨body, resolved, rfl⟩ := kinds schema kind found
  have conforms : schema.Conforms host result := sound _ _ _ (some result) strict accepted
  by_cases defined : value = .null
  · -- A union offers null only to what accepts everything.
    subst defined
    cases kind : body.settings.kind with
    | custom => rfl
    | _ =>
      rw [kind] at offered
      cases offered
  have checked := conforms.check resolved (extended.ne_null defined)
  by_cases dated : body.settings.kind = .date
  · -- A union offers dates only to the schema of a date, which are left as they are.
    rw [dated] at offered ⊢
    cases value with
    | date instant =>
      cases extended with
      | date denoted => rfl
    | _ => cases offered
  · have united : body.settings.kind ≠ .union := by
      intro union
      rw [union] at offered
      cases offered
    exact Kind.accepts_of_check dated united checked

/-- A union whose members are apart offers its result to the member that it comes from only. -/
theorem firstOf_settled {names : List String} {value result : Value} {schemas : List (Schema κ)}
    {causes : List Fault} (kinds : members.KindsResolve host) (keep : members.Keep)
    (apart : schemas.Pairwise (Schema.Apart host))
    (stable : ∀ schema ∈ schemas, members.Stable host schema) (strict : scope.isStrict = true)
    (accepted : (members.firstOf names value path scope schemas causes).result? =
      some (some result)) (current : Option Value) :
    (members.firstOf names result path { scope with current := current } schemas causes).result? =
      some (some result) := by
  obtain ⟨before, schema, after, rfl, passed, kind, outcome, found, union, offered, validated,
    same⟩ := exists_taken accepted
  have own := stable schema (List.mem_append_right _ List.mem_cons_self)
  obtain ⟨made, rfl, settled⟩ := own.outcome strict validated
  obtain rfl : result = made := same
  have again := accepts_result kinds keep own.sound strict found offered validated
  refine firstOf_of_taken (fun other earlier => ?_)
    ⟨kind, some result, found, union, again, settled current, rfl⟩ causes
  obtain ⟨second, known, single, _⟩ := passed other earlier
  refine ⟨second, known, single, fun alike => ?_⟩
  obtain ⟨one, stands, rfl⟩ := kinds other second known
  obtain ⟨two, also, rfl⟩ := kinds schema kind found
  have separate := (List.pairwise_append.mp apart).2.2 other earlier schema List.mem_cons_self
  exact absurd ⟨alike, again⟩ (separate one two stands also result.category)

end Members

/-! ## Steps -/

namespace Step

variable {host : Host κ} {members : Members κ} {settings : Settings κ} {path : Path}
  {scope : Scope} {strict : Bool} {value : Value} {replaced : Option Value}

/-- In any object the step is left out for the value, or taken with it and changes nothing. -/
def Settled (host : Host κ) (members : Members κ) (settings : Settings κ) (path : Path)
    (scope : Scope) (step : Step κ) (value : Value) : Prop :=
  ∀ current, step.isSkipped settings value = true ∨ ∃ replaced,
    (step.run host members settings value path { scope with current := current }).result? =
      some replaced ∧ replaced.getD value = value

/-- A check is settled where it has no objection. -/
theorem check_settled {condition : Check κ} (passed : ∀ current,
    condition.objection? host value path { scope with current := current } = none) :
    (check condition).Settled host members settings path scope value := by
  intro current
  refine .inr ⟨none, ?_, rfl⟩
  rw [run, Check.run, passed current]
  rfl

/-- A stable check is settled by passing it. -/
theorem check_settles {condition : Check κ} (stable : condition.isStable = true)
    (accepted : ((check condition).run host members settings value path scope).result? =
      some replaced) :
    (check condition).Settled host members settings path scope (replaced.getD value) := by
  obtain ⟨passed, rfl⟩ := run_check_accepted accepted
  exact check_settled fun current =>
    Check.objection?_of_extends stable (.refl value) (fun _ _ _ => rfl) passed path _

/-- A check stays settled when the value is extended, unless it is about content, or about a size
that changes. -/
theorem Settled.check_extends {condition : Check κ} {later : Value}
    (settled : (check condition).Settled host members settings path scope value)
    (stable : condition.isStable = true) (substance : condition.isAboutContent = false)
    (extended : value.ExtendsTo later)
    (sized : ∀ container rule, condition = .size container rule →
      container.size? later = container.size? value) :
    (check condition).Settled host members settings path scope later := by
  refine check_settled fun current => ?_
  rcases settled current with skipped | ⟨_, ran, _⟩
  · have content := isAboutContent_of_isSkipped skipped
    rw [isAboutContent, substance] at content
    cases content
  · exact Check.objection?_of_extends stable extended sized (run_check_accepted ran).1 path _

/-- The keys of a plain object are settled where the schema accepts each of them. -/
theorem keys_settled {schema : Schema κ} {entries : List (String × Value)}
    (each : ∀ current, ∀ key ∈ Entries.keys entries, ∃ outcome,
      (members.validate schema (some (.string key)) (path.key key)
        { scope with current := current }).result? = some outcome) :
    (keys schema).Settled host members settings path scope (.object entries) := by
  intro current
  refine .inr ⟨none, ?_, rfl⟩
  rw [run, Run.result?_bind, Members.keys_accepted.mpr (each current)]
  rfl

/-- Keys stay settled as long as they stay. -/
theorem Settled.keys_kept {schema : Schema κ} {entries later : List (String × Value)}
    (settled : (keys schema).Settled host members settings path scope (.object entries))
    (same : Entries.keys later = Entries.keys entries) :
    (keys schema).Settled host members settings path scope (.object later) := by
  refine keys_settled fun current => ?_
  rcases settled current with skipped | ⟨_, ran, _⟩
  · cases isAboutContent_of_isSkipped skipped
  · rw [run, Run.result?_bind, Option.bind_eq_some_iff] at ran
    obtain ⟨_, validated, _⟩ := ran
    rw [same]
    exact Members.keys_accepted.mp validated

/-- A schema of texts settles the keys that it accepts. -/
theorem keys_settle {schema : Schema κ} (text : schema.kind = .string)
    (stable : members.Stable host schema) (keep : members.Keep) (strict : scope.isStrict = true)
    (accepted : ((keys schema).run host members settings value path scope).result? =
      some replaced) :
    (keys schema).Settled host members settings path scope (replaced.getD value) := by
  obtain rfl := run_keys_accepted accepted
  cases value with
  | object entries =>
    rw [run, Run.result?_bind, Option.bind_eq_some_iff] at accepted
    obtain ⟨_, validated, _⟩ := accepted
    refine keys_settled fun current key listed => ?_
    obtain ⟨outcome, ended⟩ := Members.keys_accepted.mp validated key listed
    obtain ⟨result, rfl, settled⟩ := stable.outcome strict ended
    have unchanged : result = .string key := by
      obtain ⟨_, same, extended⟩ := keep schema _ _ scope _ strict ended
      obtain rfl := Option.some.inj same
      have conforms : schema.Conforms host result := stable.sound _ _ _ _ strict ended
      cases schema with
      | built body =>
        have checked := conforms.check (.built body) (extended.ne_null fun null => by cases null)
        rw [show body.settings.kind = .string from text] at checked
        cases extended with
        | string => rfl
        | date => cases checked
      | deferred name => cases text
    subst unchanged
    exact ⟨_, settled current⟩
  | _ => exact fun _ => .inr ⟨none, rfl, rfl⟩

/-- Validated items are settled. -/
theorem elements_settle {schema : Schema κ} (settles : members.Settles strict schema)
    (mode : scope.isStrict = strict)
    (accepted : ((elements schema).run host members settings value path scope).result? =
      some replaced) :
    (elements schema).Settled host members settings path scope (replaced.getD value) := by
  intro current
  refine .inr ?_
  rcases run_elements_accepted accepted with ⟨items, results, rfl, validated, rfl⟩ | ⟨bare, rfl⟩
  · obtain ⟨length, each⟩ := Members.elements_accepted validated
    have again : (members.elements schema path { scope with current := current } 0
        results).result? = some results := by
      refine Members.elements_settled fun place result stands => ?_
      have inside : place < items.length := by
        have bound := (List.getElem?_eq_some_iff.mp stands).1
        omega
      obtain ⟨outcome, ended, found⟩ := each place _ (List.getElem?_eq_getElem inside)
      obtain ⟨made, rfl⟩ := settles.defined _ _ _ _ mode ended
      obtain rfl : result = made := Option.some.inj (stands.symm.trans found)
      exact settles.again _ _ _ _ mode ended current
    refine ⟨some (.array results), ?_, rfl⟩
    rw [Option.getD_some, run, Run.result?_bind, again]
    rfl
  · refine ⟨none, ?_, rfl⟩
    cases value with
    | array => cases bare
    | _ => rfl

/-- Validated values are settled. -/
theorem values_settle {schema : Schema κ} (settles : members.Settles strict schema)
    (mode : scope.isStrict = strict)
    (accepted : ((values schema).run host members settings value path scope).result? =
      some replaced) :
    (values schema).Settled host members settings path scope (replaced.getD value) := by
  intro current
  refine .inr ?_
  rcases run_values_accepted accepted with ⟨entries, results, rfl, validated, rfl⟩ | ⟨bare, rfl⟩
  · have again : (members.values schema path { scope with current := current }
        results).result? = some results := by
      refine Members.values_settled fun result listed => ?_
      obtain ⟨entry, _, key, outcome, ended, stands⟩ :=
        Entries.exists_left_of_forall₂ (Members.values_accepted validated) listed
      obtain ⟨made, rfl⟩ := settles.defined _ _ _ _ mode ended
      rw [key, stands]
      exact settles.again _ _ _ _ mode ended current
    refine ⟨some (.object results), ?_, rfl⟩
    rw [Option.getD_some, run, Run.result?_bind, again]
    rfl
  · refine ⟨none, ?_, rfl⟩
    cases value with
    | object => cases bare
    | _ => rfl

/-- Validated positions are settled. -/
theorem positions_settle {schemas : List (Schema κ)}
    (settles : ∀ schema ∈ schemas, members.Settles strict schema) (mode : scope.isStrict = strict)
    (accepted : ((positions schemas).run host members settings value path scope).result? =
      some replaced) :
    (positions schemas).Settled host members settings path scope (replaced.getD value) := by
  intro current
  refine .inr ?_
  rcases run_positions_accepted accepted with
    ⟨items, results, rfl, short, validated, rfl⟩ | ⟨bare, rfl⟩
  · obtain ⟨length, each⟩ := Members.positions_accepted validated
    have again : (members.positions path { scope with current := current } 0 schemas
        results).result? = some results := by
      refine Members.positions_settled length fun place schema result listed stands => ?_
      obtain ⟨outcome, ended, found⟩ := each place schema listed
      have own := settles schema (List.mem_of_getElem? listed)
      obtain rfl : result = outcome.getD .null := Option.some.inj (stands.symm.trans found)
      cases outcome with
      | some made => exact own.again _ _ _ _ mode ended current
      | none =>
        -- Undefined input alone has no result, and null stands in its place.
        cases given : items[place]? with
        | some item =>
          rw [given] at ended
          obtain ⟨_, missing⟩ := own.defined _ _ _ _ mode ended
          cases missing
        | none =>
          rw [given] at ended
          exact own.filled _ _ mode ended current
    have complete : ¬ schemas.length < results.length := by omega
    refine ⟨some (.array results), ?_, rfl⟩
    rw [Option.getD_some, run, runPositions, if_neg (by simp [complete]), Run.result?_bind, again]
    rfl
  · refine ⟨none, ?_, rfl⟩
    cases value with
    | array => cases bare
    | _ => rfl

/-- Accepted fields give the value rebuilt. -/
theorem run_fields_of_accepted {declared : List (String × Schema κ)}
    {input built : List (String × Value)} (given : value.fields? = some input)
    (closed : settings.exact = true → scope.isStrict = true → undeclared declared input = [])
    (validated : (members.fields input path (scope.withCurrent value) declared []).result? =
      some built) :
    ((fields declared).run host members settings value path scope).result? =
      some (rebuilt value built (undeclared declared input)) := by
  rw [run_fields_of_closed given closed, Run.result?_bind, validated]
  rfl

/-- Validated fields of a plain object give the same object when they are validated again. -/
theorem fields_again {declared : List (String × Schema κ)} {input built : List (String × Value)}
    (settles : ∀ field ∈ declared, members.Settles strict field.2) (mode : scope.isStrict = strict)
    (distinct : (declared.map Prod.fst).Nodup)
    (validated : (members.fields input path scope declared []).result? = some built)
    (current : Option Value) :
    ∃ later, (members.fields (Entries.overlay built (undeclared declared input)) path
        { scope with current := current } declared []).result? = some later ∧
      Entries.overlay later (undeclared declared
        (Entries.overlay built (undeclared declared input))) =
          Entries.overlay built (undeclared declared input) := by
  have sorted := sorted_fields validated
  have outcome := fun name schema (listed : (name, schema) ∈ declared) =>
    fields_distinct distinct validated listed
  generalize Entries.overlay built (undeclared declared input) = made at sorted outcome ⊢
  have settled : ∀ name schema, (name, schema) ∈ declared →
      (members.validate schema (made.lookup name) (path.key name)
        { scope with current := current }).result? = some (made.lookup name) := by
    intro name schema listed
    exact (settles (name, schema) listed).again _ _ _ _ mode (outcome name schema listed) current
  obtain ⟨later, again⟩ := Members.fields_of_accepted
    (fun field listed => ⟨_, settled field.1 field.2 listed⟩) []
  refine ⟨later, again, Entries.eq_of_lookup (sorted_fields again) sorted fun key => ?_⟩
  by_cases declares : key ∈ declared.map Prod.fst
  · obtain ⟨⟨name, schema⟩, listed, rfl⟩ := List.mem_map.mp declares
    have found := fields_distinct distinct again listed
    rw [settled name schema listed] at found
    exact (Option.some.inj found).symm
  · obtain ⟨_, _, lookup⟩ := fields_outcomes again
    rw [lookup key, if_neg declares]

/-- Validated fields are settled. -/
theorem fields_settle {declared : List (String × Schema κ)}
    (settles : ∀ field ∈ declared, members.Settles strict field.2) (mode : scope.isStrict = strict)
    (distinct : (declared.map Prod.fst).Nodup)
    (accepted : ((fields declared).run host members settings value path scope).result? =
      some replaced) :
    (fields declared).Settled host members settings path scope (replaced.getD value) := by
  intro current
  refine .inr ?_
  rcases run_fields_accepted accepted with
    ⟨input, built, given, closed, validated, rfl⟩ | ⟨bare, rfl⟩
  · cases value with
    | object entries =>
      obtain rfl := Option.some.inj given
      have inside : (scope.withCurrent (.object entries)).isStrict = strict := mode
      obtain ⟨later, again, same⟩ := fields_again settles inside distinct validated
        (some (.object (Entries.overlay built (undeclared declared entries))))
      have sealed : settings.exact = true → scope.isStrict = true → undeclared declared
          (Entries.overlay built (undeclared declared entries)) = [] := by
        intro exact strict
        refine undeclared_eq_nil.mpr fun key present => ?_
        by_contra other
        obtain ⟨_, _, lookup⟩ := fields_outcomes validated
        rw [lookup key, if_neg other] at present
        exact other (undeclared_eq_nil.mp (closed exact strict) key present)
      exact ⟨_, run_fields_of_accepted rfl sealed again, congrArg Value.object same⟩
    | inst cls entries =>
      -- An instance stays, so its fields are validated as before.
      exact ⟨_, run_fields_of_accepted given closed validated, rfl⟩
    | _ => cases given
  · refine ⟨none, ?_, rfl⟩
    rw [Option.getD_none, run, runFields, bare]
    rfl

/-- A stable step settles what it leaves. -/
theorem run_settles {step : Step κ} (kinds : members.KindsResolve host) (keep : members.Keep)
    (checks : ∀ condition, step = .check condition → condition.isStable = true)
    (text : ∀ schema, step = .keys schema → schema.kind = .string)
    (distinct : ∀ declared, step = .fields declared → (declared.map Prod.fst).Nodup)
    (apart : ∀ schemas, step = .members schemas → schemas.Pairwise (Schema.Apart host))
    (stable : ∀ schema ∈ step.schemas, members.Stable host schema)
    (strict : scope.isStrict = true)
    (accepted : (step.run host members settings value path scope).result? = some replaced) :
    step.Settled host members settings path scope (replaced.getD value) := by
  cases step with
  | check condition => exact check_settles (checks condition rfl) accepted
  | keys schema =>
    exact keys_settle (text schema rfl) (stable schema List.mem_cons_self) keep strict accepted
  | elements schema =>
    exact elements_settle (stable schema List.mem_cons_self).outcomes strict accepted
  | values schema => exact values_settle (stable schema List.mem_cons_self).outcomes strict accepted
  | fields declared =>
    exact fields_settle (fun field listed => (stable field.2 (List.mem_map_of_mem listed)).outcomes)
      strict (distinct declared rfl) accepted
  | positions schemas =>
    exact positions_settle (fun schema listed => (stable schema listed).outcomes) strict accepted
  | members schemas =>
    intro current
    rcases Members.firstOf_accepted accepted with
      ⟨_, lenient⟩ | ⟨schema, member, _, outcome, _, _, validated, rfl⟩
    · rw [strict] at lenient
      cases lenient
    · exact .inr ⟨_, Members.firstOf_settled kinds keep (apart schemas rfl) stable strict accepted
        current, rfl⟩

end Step

end Assay
