import Mathlib.Data.List.Forall2
import Assay.Proofs.Run
import Assay.Validation.Basic

/-!
# Validations that agree

Two validations are compared by saying which schemas stand for one another, in which surroundings
the two of them take place, and which faults count as the same (`Comparison`). A run agrees with
another when the other ends alike as soon as the first one ends at all (`Run.Agrees`). Agreement of
the members carries over to every step and to the whole body (`Body.validate_agrees`), so a
statement about two validations is left with what it is about: how schemas are looked up, what the
checks see, and which defaults come in.
-/
namespace Assay

/-- The verdicts are the same, faults being compared by a relation. -/
inductive Verdict.Corresponds {α : Type} (alike : Fault → Fault → Prop) :
    Verdict α → Verdict α → Prop
  /-- Both have the same result. -/
  | accepted (result : α) : Corresponds alike (.accepted result) (.accepted result)
  /-- Both have a fault, and these count as the same. -/
  | rejected {fault other : Fault} (same : alike fault other) :
      Corresponds alike (.rejected fault) (.rejected other)
  /-- Both met the same mistake. -/
  | misused (misuse : Misuse) : Corresponds alike (.misused misuse) (.misused misuse)

namespace Run

variable {α β : Type} {alike : Fault → Fault → Prop}

/-- The second run ends as the first one does, if the first one ends. -/
def Agrees (alike : Fault → Fault → Prop) (first second : Run α) : Prop :=
  first.verdict ≠ .unfinished → first.verdict.Corresponds alike second.verdict

namespace Agrees

/-- Runs that only accept agree when they have the same result. -/
theorem pure (result : α) : Agrees alike (pure result) (pure result) :=
  fun _ => .accepted result

/-- Refusals agree when their faults count as the same. -/
theorem reject {fault other : Fault} (same : alike fault other) :
    Agrees alike (Run.reject fault : Run α) (Run.reject other) :=
  fun _ => .rejected same

/-- A run that is not finished agrees with every other. -/
theorem unfinished (second : Run α) : Agrees alike .unfinished second :=
  fun ended => absurd rfl ended

/-- Notes agree, whatever they say. -/
theorem note (event other : Event) : Agrees alike (Run.note event) (Run.note other) :=
  fun _ => .accepted ()

/-- The same result, or the same misuse in its place. -/
theorem ofMisuse (outcome : Except Misuse α) :
    Agrees alike (Run.ofMisuse outcome) (Run.ofMisuse outcome) := by
  intro _
  cases outcome with
  | ok result => exact .accepted result
  | error misuse => exact .misused misuse

/-- Results or faults in their place agree when the faults count as the same. -/
theorem ofFault {outcome other : Except Fault α}
    (same : (∃ result, outcome = .ok result ∧ other = .ok result) ∨
      ∃ fault later, outcome = .error fault ∧ other = .error later ∧ alike fault later) :
    Agrees alike (Run.ofFault outcome) (Run.ofFault other) := by
  rcases same with ⟨result, rfl, rfl⟩ | ⟨fault, later, rfl, rfl, same⟩
  · exact .pure result
  · exact .reject same

/-- One run after another agrees with such a sequence when both parts do. -/
theorem bind {first second : Run α} {next later : α → Run β} (head : Agrees alike first second)
    (tail : ∀ result, Agrees alike (next result) (later result)) :
    Agrees alike (first >>= next) (second >>= later) := by
  intro ended
  obtain ⟨events, verdict⟩ := first
  obtain ⟨others, ending⟩ := second
  cases verdict with
  | accepted result =>
    cases head nofun
    exact tail result ended
  | rejected fault =>
    cases head nofun with
    | rejected same => exact .rejected same
  | misused misuse =>
    cases head nofun
    exact .misused misuse
  | unfinished => exact absurd rfl ended

/-- What comes after an attempt agrees when the attempts do and it agrees after each outcome. -/
theorem attempt {first second : Run α} {next later : Except Fault α → Run β}
    (head : Agrees alike first second)
    (accepted : ∀ result, Agrees alike (next (.ok result)) (later (.ok result)))
    (rejected : ∀ fault other, alike fault other →
      Agrees alike (next (.error fault)) (later (.error other))) :
    Agrees alike (first.attempt >>= next) (second.attempt >>= later) := by
  intro ended
  obtain ⟨events, verdict⟩ := first
  obtain ⟨others, ending⟩ := second
  cases verdict with
  | accepted result =>
    cases head nofun
    exact accepted result ended
  | rejected fault =>
    cases head nofun with
    | @rejected _ other same => exact rejected fault other same ended
  | misused misuse =>
    cases head nofun
    exact .misused misuse
  | unfinished => exact absurd rfl ended

/-- Runs that agree still do when more faults count as the same. -/
theorem mono {wider : Fault → Fault → Prop} {first second : Run α}
    (within : ∀ fault other, alike fault other → wider fault other)
    (agrees : Agrees alike first second) : Agrees wider first second := by
  intro ended
  obtain ⟨events, verdict⟩ := first
  obtain ⟨others, ending⟩ := second
  cases agrees ended with
  | accepted result => exact .accepted result
  | rejected same => exact .rejected (within _ _ same)
  | misused misuse => exact .misused misuse

/-- The result of a run is that of one that it agrees with. -/
theorem result? {first second : Run α} (agrees : Agrees alike first second) {result : α}
    (accepted : first.result? = some result) : second.result? = some result := by
  obtain ⟨events, verdict⟩ := first
  obtain ⟨others, ending⟩ := second
  cases verdict with
  | accepted held =>
    cases agrees nofun
    exact accepted
  | _ => cases accepted

/-- The fault of a run counts as the same as that of one that it agrees with. -/
theorem fault? {first second : Run α} (agrees : Agrees alike first second) {fault : Fault}
    (rejected : first.fault? = some fault) :
    ∃ other, second.fault? = some other ∧ alike fault other := by
  obtain ⟨events, verdict⟩ := first
  obtain ⟨others, ending⟩ := second
  cases verdict with
  | rejected held =>
    obtain rfl := Option.some.inj rejected
    cases agrees nofun with
    | @rejected _ other same => exact ⟨other, rfl, same⟩
  | _ => cases rejected

/-- Runs that agree both ways have the same result, or none of them has one. -/
theorem result?_eq {first second : Run α} {reverse : Fault → Fault → Prop}
    (forth : Agrees alike first second) (back : Agrees reverse second first) :
    first.result? = second.result? :=
  Option.ext fun _ => ⟨forth.result?, back.result?⟩

/-- Runs that agree both ways have faults that count as the same, or none of them has one. -/
theorem fault?_rel {first second : Run α} {reverse : Fault → Fault → Prop}
    (forth : Agrees alike first second) (back : Agrees reverse second first) :
    Option.Rel alike first.fault? second.fault? := by
  cases rejected : first.fault? with
  | some fault =>
    obtain ⟨other, found, same⟩ := forth.fault? rejected
    rw [found]
    exact .some same
  | none =>
    cases found : second.fault? with
    | none => exact .none
    | some other =>
      obtain ⟨fault, held, _⟩ := back.fault? found
      rw [rejected] at held
      cases held

/-- A run completes when one that agrees with it does. -/
theorem completes {first second : Run α} (agrees : Agrees alike first second)
    (ended : first.Completes) : second.Completes := by
  rcases ended with ⟨result, accepted⟩ | ⟨fault, rejected⟩
  · exact .inl ⟨result, agrees.result? accepted⟩
  · obtain ⟨other, found, _⟩ := agrees.fault? rejected
    exact .inr ⟨other, found⟩

/-- A run has the verdict of one that completes and agrees with it on the same faults. -/
theorem verdict_eq {first second : Run α} (agrees : Agrees Eq first second)
    (ended : first.Completes) : second.verdict = first.verdict := by
  obtain ⟨events, verdict⟩ := first
  obtain ⟨others, ending⟩ := second
  cases verdict with
  | accepted result =>
    cases agrees nofun
    rfl
  | rejected fault =>
    cases agrees nofun with
    | rejected same => exact congrArg Verdict.rejected same.symm
  | _ =>
    rcases ended with ⟨_, accepted⟩ | ⟨_, rejected⟩
    · cases accepted
    · cases rejected

/-- Runs that agree both ways have the same verdict, where the faults of the first count as the same
only if they are. -/
theorem verdict_eq_of_both {first second : Run α} {reverse : Fault → Fault → Prop}
    (forth : Agrees alike first second) (back : Agrees reverse second first)
    (exact : ∀ fault other, first.fault? = some fault → alike fault other → fault = other) :
    first.verdict = second.verdict := by
  obtain ⟨events, verdict⟩ := first
  obtain ⟨others, ending⟩ := second
  cases verdict with
  | accepted result =>
    cases forth nofun
    rfl
  | rejected fault =>
    cases forth nofun with
    | @rejected _ other same => exact congrArg Verdict.rejected (exact fault other rfl same)
  | misused misuse =>
    cases forth nofun
    rfl
  | unfinished =>
    cases ending with
    | unfinished => rfl
    | _ => cases back nofun

end Agrees

end Run

/-- What two validations are compared by. -/
structure Comparison (κ : Type) where
  /-- Which schemas stand for one another. -/
  schema : Schema κ → Schema κ → Prop
  /-- In which surroundings the two take place. -/
  place : Path → Scope → Path → Scope → Prop
  /-- Which faults count as the same. -/
  fault : Fault → Fault → Prop
  /-- Both validations are in one mode. -/
  mode {path other : Path} {scope beside : Scope} (placed : place path scope other beside) :
    scope.mode = beside.mode
  /-- Both go one step further. -/
  child {path other : Path} {scope beside : Scope} (placed : place path scope other beside)
    (segment : Segment) : place (path.child segment) scope (other.child segment) beside
  /-- Both go inside one object. -/
  within {path other : Path} {scope beside : Scope} (placed : place path scope other beside)
    (object : Value) : place path (scope.withCurrent object) other (beside.withCurrent object)
  /-- Faults with one reason, where the two take place, count as the same. -/
  located {path other : Path} {scope beside : Scope} (placed : place path scope other beside)
    (reason : Reason) : fault (.located path reason) (.located other reason)
  /-- Faults of unions that refuse one value, where the two take place, count as the same. -/
  noMember {path other : Path} {scope beside : Scope} {schemas others : List (Schema κ)}
    {causes later : List Fault} (placed : place path scope other beside)
    (listed : List.Forall₂ schema schemas others) (caused : List.Forall₂ fault causes later)
    (value : Value) :
    fault (Members.noMemberFault (schemas.map Schema.typeName) value path causes)
      (Members.noMemberFault (others.map Schema.typeName) value other later)

variable {κ : Type} {comparison : Comparison κ} {path other : Path} {scope beside : Scope}

namespace Comparison

/-- Two validations in one mode are both strict or both lenient. -/
theorem isStrict (placed : comparison.place path scope other beside) :
    scope.isStrict = beside.isStrict := by
  rw [Scope.isStrict, Scope.isStrict, comparison.mode placed]

/-- The comparison of validations in the same surroundings. -/
def inPlace (related : Schema κ → Schema κ → Prop) (alike : Fault → Fault → Prop)
    (reflexive : ∀ fault, alike fault fault)
    (noMember : ∀ (schemas others : List (Schema κ)) (causes later : List Fault),
      List.Forall₂ related schemas others → List.Forall₂ alike causes later → ∀ value path,
        alike (Members.noMemberFault (schemas.map Schema.typeName) value path causes)
          (Members.noMemberFault (others.map Schema.typeName) value path later)) :
    Comparison κ where
  schema := related
  place path scope other beside := path = other ∧ scope = beside
  fault := alike
  mode placed := congrArg Scope.mode placed.2
  child placed segment := ⟨congrArg (·.child segment) placed.1, placed.2⟩
  within placed object := ⟨placed.1, congrArg (·.withCurrent object) placed.2⟩
  located := by
    rintro path _ scope _ ⟨rfl, rfl⟩ reason
    exact reflexive _
  noMember := by
    rintro path _ scope _ schemas others causes later ⟨rfl, rfl⟩ listed caused value
    exact noMember _ _ _ _ listed caused value path

end Comparison

/-- Schemas that stand for one another are validated alike and have the same kind. -/
def Members.Agree (comparison : Comparison κ) (members others : Members κ) : Prop :=
  ∀ schema another, comparison.schema schema another →
    (∀ value path scope other beside, comparison.place path scope other beside →
      (members.validate schema value path scope).Agrees comparison.fault
        (others.validate another value other beside)) ∧
    (members.kind schema).Agrees comparison.fault (others.kind another)

/-- The steps do the same with schemas that are related. -/
inductive Step.Alike (related : Schema κ → Schema κ → Prop) : Step κ → Step κ → Prop
  /-- The same check. -/
  | check (condition : Check κ) : Alike related (.check condition) (.check condition)
  /-- Keys of objects. -/
  | keys {schema another : Schema κ} (same : related schema another) :
      Alike related (.keys schema) (.keys another)
  /-- Items of arrays. -/
  | elements {schema another : Schema κ} (same : related schema another) :
      Alike related (.elements schema) (.elements another)
  /-- Values of objects. -/
  | values {schema another : Schema κ} (same : related schema another) :
      Alike related (.values schema) (.values another)
  /-- Fields declared under the same names. -/
  | fields {declared others : List (String × Schema κ)}
      (named : declared.map Prod.fst = others.map Prod.fst)
      (same : List.Forall₂ related (declared.map Prod.snd) (others.map Prod.snd)) :
      Alike related (.fields declared) (.fields others)
  /-- Positions of arrays. -/
  | positions {schemas others : List (Schema κ)} (same : List.Forall₂ related schemas others) :
      Alike related (.positions schemas) (.positions others)
  /-- Members of unions. -/
  | members {schemas others : List (Schema κ)} (same : List.Forall₂ related schemas others) :
      Alike related (.members schemas) (.members others)

namespace Members

variable {members others : Members κ} {schema another : Schema κ}

/-- Items of an array agree. -/
theorem elements_agree (agree : members.Agree comparison others)
    (same : comparison.schema schema another) (placed : comparison.place path scope other beside)
    (index : Nat) (items : List Value) :
    (members.elements schema path scope index items).Agrees comparison.fault
      (others.elements another other beside index items) := by
  induction items generalizing index with
  | nil => exact .pure []
  | cons item rest ih =>
    have inside := comparison.child placed (.index index)
    exact ((agree schema another same).1 (some item) _ _ _ _ inside).bind fun _ =>
      (ih (index + 1)).bind fun _ => .pure _

/-- Values of an object agree. -/
theorem values_agree (agree : members.Agree comparison others)
    (same : comparison.schema schema another) (placed : comparison.place path scope other beside)
    (entries : List (String × Value)) :
    (members.values schema path scope entries).Agrees comparison.fault
      (others.values another other beside entries) := by
  induction entries with
  | nil => exact .pure []
  | cons entry rest ih =>
    have inside := comparison.child placed (.key entry.1)
    exact ((agree schema another same).1 (some entry.2) _ _ _ _ inside).bind fun _ =>
      ih.bind fun _ => .pure _

/-- Keys of an object agree. -/
theorem keys_agree (agree : members.Agree comparison others)
    (same : comparison.schema schema another) (placed : comparison.place path scope other beside)
    (entries : List (String × Value)) :
    (members.keys schema path scope entries).Agrees comparison.fault
      (others.keys another other beside entries) := by
  induction entries with
  | nil => exact .pure ()
  | cons entry rest ih =>
    have inside := comparison.child placed (.key entry.1)
    exact ((agree schema another same).1 (some (.string entry.1)) _ _ _ _ inside).bind fun _ => ih

/-- Declared fields agree. -/
theorem fields_agree (agree : members.Agree comparison others)
    {declared later : List (String × Schema κ)}
    (named : declared.map Prod.fst = later.map Prod.fst)
    (same : List.Forall₂ comparison.schema (declared.map Prod.snd) (later.map Prod.snd))
    (placed : comparison.place path scope other beside) (input output : List (String × Value)) :
    (members.fields input path scope declared output).Agrees comparison.fault
      (others.fields input other beside later output) := by
  induction declared generalizing later output with
  | nil =>
    obtain rfl : later = [] := List.map_eq_nil_iff.mp named.symm
    exact .pure output
  | cons field rest ih =>
    cases later with
    | nil => cases named
    | cons twin after =>
      obtain ⟨name, schema⟩ := field
      obtain ⟨label, another⟩ := twin
      obtain ⟨rfl, following⟩ := List.cons.inj named
      obtain ⟨head, tail⟩ := List.forall₂_cons.mp same
      have inside := comparison.child placed (.key name)
      exact ((agree schema another head).1 (input.lookup name) _ _ _ _ inside).bind fun _ =>
        ih following tail _

/-- Positions of an array agree. -/
theorem positions_agree (agree : members.Agree comparison others)
    {schemas later : List (Schema κ)} (same : List.Forall₂ comparison.schema schemas later)
    (placed : comparison.place path scope other beside) (index : Nat) (items : List Value) :
    (members.positions path scope index schemas items).Agrees comparison.fault
      (others.positions other beside index later items) := by
  induction same generalizing index items with
  | nil => exact .pure []
  | cons head tail ih =>
    have inside := comparison.child placed (.index index)
    exact ((agree _ _ head).1 items.head? _ _ _ _ inside).bind fun _ =>
      (ih (index + 1) items.tail).bind fun _ => .pure _

/-- Members of a union agree, whichever faults came before, where the fault of the whole union
does. -/
theorem firstOf_agrees (agree : members.Agree comparison others) {names labels : List String}
    {value : Value} {schemas later : List (Schema κ)}
    (same : List.Forall₂ comparison.schema schemas later)
    (placed : comparison.place path scope other beside)
    (closing : ∀ causes sources, List.Forall₂ comparison.fault causes sources →
      comparison.fault (noMemberFault names value path causes)
        (noMemberFault labels value other sources))
    {causes sources : List Fault} (caused : List.Forall₂ comparison.fault causes sources) :
    (members.firstOf names value path scope schemas causes).Agrees comparison.fault
      (others.firstOf labels value other beside later sources) := by
  induction same generalizing causes sources with
  | nil =>
    rw [firstOf, firstOf, ← comparison.isStrict placed]
    cases scope.isStrict with
    | true => exact .reject (closing causes sources caused)
    | false => exact .pure none
  | @cons schema another rest after head tail ih =>
    obtain ⟨validated, found⟩ := agree schema another head
    refine found.bind fun kind => ?_
    by_cases union : kind = .union
    · rw [if_pos union, if_pos union]
      exact .reject (comparison.located placed .nestedUnion)
    · rw [if_neg union, if_neg union]
      cases kind.accepts value.category with
      | false => exact ih caused
      | true =>
        refine (validated (some value) _ _ _ _ placed).attempt (fun result => .pure _)
          fun fault twin alike => ?_
        have longer : List.Forall₂ comparison.fault (causes ++ [fault]) (sources ++ [twin]) :=
          List.rel_append caused (.cons alike .nil)
        exact (Run.Agrees.note _ _).bind fun _ => ih longer

end Members

/-- The check says the same of every value in surroundings that are compared. -/
def Check.Agrees (comparison : Comparison κ) (host beyond : Host κ) (condition : Check κ) : Prop :=
  ∀ value path scope other beside, comparison.place path scope other beside →
    condition.objection? host value path scope = condition.objection? beyond value other beside

namespace Step

variable {host beyond : Host κ} {members others : Members κ}

namespace Alike

variable {related : Schema κ → Schema κ → Prop} {step twin : Step κ}

/-- Steps that do the same have the same role. -/
theorem role (alike : Alike related step twin) : step.role = twin.role := by
  cases alike <;> rfl

/-- Steps that do the same are left out alike. -/
theorem isSkipped (alike : Alike related step twin) (settings : Settings κ) (value : Value) :
    step.isSkipped settings value = twin.isSkipped settings value := by
  cases alike <;> rfl

/-- A step does the same as itself, where the schemas that it hands values on to are related to
themselves. -/
theorem refl (step : Step κ) (reflexive : ∀ schema ∈ step.schemas, related schema schema) :
    Alike related step step := by
  cases step with
  | check condition => exact .check condition
  | keys schema => exact .keys (reflexive schema (List.mem_singleton_self schema))
  | elements schema => exact .elements (reflexive schema (List.mem_singleton_self schema))
  | values schema => exact .values (reflexive schema (List.mem_singleton_self schema))
  | fields declared => exact .fields rfl (List.forall₂_same.mpr reflexive)
  | positions schemas => exact .positions (List.forall₂_same.mpr reflexive)
  | members schemas => exact .members (List.forall₂_same.mpr reflexive)

end Alike

/-- The undeclared entries depend on the declared names alone. -/
theorem undeclared_congr {declared others : List (String × Schema κ)}
    (named : ∀ key, key ∈ declared.map Prod.fst ↔ key ∈ others.map Prod.fst)
    (input : List (String × Value)) : undeclared declared input = undeclared others input := by
  have listed : ∀ (fields : List (String × Schema κ)) (key : String),
      (fields.any fun field => field.1 == key) = decide (key ∈ fields.map Prod.fst) := by
    intro fields key
    rw [Bool.eq_iff_iff]
    simp
  simp only [undeclared, listed, named]

/-- Steps that do the same agree where their schemas and checks do, and where the settings let the
same fields in, which only strict validation asks. -/
theorem run_agrees {step twin : Step κ} (alike : Alike comparison.schema step twin)
    (agree : members.Agree comparison others)
    (checks : ∀ condition, step = .check condition → condition.Agrees comparison host beyond)
    (placed : comparison.place path scope other beside) {settings later : Settings κ}
    (closed : scope.isStrict = true → settings.exact = later.exact) (value : Value) :
    (step.run host members settings value path scope).Agrees comparison.fault
      (twin.run beyond others later value other beside) := by
  cases alike with
  | check condition =>
    refine Run.Agrees.bind (.ofFault ?_) fun _ => .pure none
    rw [Check.run, Check.run, checks condition rfl value _ _ _ _ placed]
    cases condition.objection? beyond value other beside with
    | none => exact .inl ⟨(), rfl, rfl⟩
    | some reason => exact .inr ⟨_, _, rfl, rfl, comparison.located placed reason⟩
  | keys same =>
    cases value with
    | object entries =>
      exact (Members.keys_agree agree same placed entries).bind fun _ => .pure none
    | _ => exact .pure none
  | elements same =>
    cases value with
    | array items =>
      exact (Members.elements_agree agree same placed 0 items).bind fun _ => .pure _
    | _ => exact .pure none
  | values same =>
    cases value with
    | object entries =>
      exact (Members.values_agree agree same placed entries).bind fun _ => .pure _
    | _ => exact .pure none
  | @fields declared others named same =>
    have unknown : ∀ input : List (String × Value),
        undeclared declared input = undeclared others input :=
      undeclared_congr fun key => by rw [named]
    rw [run, run, runFields, runFields]
    cases value.fields? with
    | none => exact .pure none
    | some input =>
      have shut : (settings.exact && scope.isStrict) = (later.exact && scope.isStrict) := by
        cases strict : scope.isStrict with
        | true => rw [closed strict]
        | false => rw [Bool.and_false, Bool.and_false]
      dsimp only
      rw [← comparison.isStrict placed, shut, unknown input]
      split
      · exact .reject (comparison.located placed _)
      · have inside := comparison.within placed value
        exact (Members.fields_agree agree named same inside input []).bind fun _ => by
          cases value <;> exact .pure _
  | positions same =>
    cases value with
    | array items =>
      rw [run, run, runPositions, runPositions, ← comparison.isStrict placed, same.length_eq]
      split
      · exact .reject (comparison.located placed _)
      · exact (Members.positions_agree agree same placed 0 items).bind fun _ => .pure _
    | _ => exact .pure none
  | members same =>
    exact Members.firstOf_agrees agree same placed
      (fun _ _ caused => comparison.noMember placed same caused value) .nil

end Step

/-- The bodies meet their input alike and take steps that do the same. -/
structure Body.Alike (comparison : Comparison κ) (host beyond : Host κ) (body twin : Body κ) :
    Prop where
  /-- The settings are the same but for the type that is shown. -/
  settings : twin.settings = { body.settings with typeName := twin.settings.typeName }
  /-- Undefined input has the same default. -/
  default : ∀ path scope other beside, comparison.place path scope other beside →
    body.settings.default.resolve host path scope =
      body.settings.default.resolve beyond other beside
  /-- The checks say the same. -/
  checks : ∀ condition, .check condition ∈ body.steps → condition.Agrees comparison host beyond
  /-- The steps do the same. -/
  steps : List.Forall₂ (Step.Alike comparison.schema) body.steps twin.steps

namespace Body

variable {host beyond : Host κ} {members others : Members κ} {body twin : Body κ}

/-- Bodies are alike in the same surroundings when their settings and steps are. -/
theorem Alike.inPlace {related : Schema κ → Schema κ → Prop} {alike : Fault → Fault → Prop}
    {reflexive : ∀ fault, alike fault fault}
    {noMember : ∀ (schemas others : List (Schema κ)) (causes later : List Fault),
      List.Forall₂ related schemas others → List.Forall₂ alike causes later → ∀ value path,
        alike (Members.noMemberFault (schemas.map Schema.typeName) value path causes)
          (Members.noMemberFault (others.map Schema.typeName) value path later)}
    (settings : twin.settings = { body.settings with typeName := twin.settings.typeName })
    (steps : List.Forall₂ (Step.Alike related) body.steps twin.steps) :
    Alike (.inPlace related alike reflexive noMember) host host body twin where
  settings := settings
  default := by
    rintro path scope _ _ ⟨rfl, rfl⟩
    rfl
  checks := by
    rintro condition _ value path scope _ _ ⟨rfl, rfl⟩
    rfl
  steps := steps

/-- Steps that do the same, one after the other, agree under settings by which they are left out
alike. -/
theorem takeSteps_agree {steps later : List (Step κ)}
    (same : List.Forall₂ (Step.Alike comparison.schema) steps later)
    (agree : members.Agree comparison others)
    (checks : ∀ condition, .check condition ∈ steps → condition.Agrees comparison host beyond)
    (placed : comparison.place path scope other beside) {settings shown : Settings κ}
    (skipped : ∀ step ∈ steps, ∀ value,
      step.isSkipped settings value = step.isSkipped shown value)
    (closed : scope.isStrict = true → settings.exact = shown.exact) (value : Value) :
    (takeSteps host members settings path scope steps value).Agrees comparison.fault
      (takeSteps beyond others shown other beside later value) := by
  induction same generalizing value with
  | nil => exact .pure value
  | @cons step twin rest after head tail ih =>
    obtain ⟨own, further⟩ := List.forall_mem_cons.mp skipped
    have remaining := ih
      (fun condition listed => checks condition (List.mem_cons_of_mem step listed)) further
    rw [takeSteps, takeSteps, ← head.isSkipped shown value, ← own value, ← head.role,
      ← comparison.isStrict placed]
    split
    · exact remaining value
    · have said : ∀ condition, step = .check condition → condition.Agrees comparison host beyond :=
        fun condition same => checks condition (same ▸ List.mem_cons_self)
      exact (Step.run_agrees head agree said placed closed value).bind fun _ => remaining _

/-- What is received agrees. -/
theorem receive_agrees {settings : Settings κ} (typeName : String)
    (default : settings.default.resolve host path scope =
      settings.default.resolve beyond other beside)
    (placed : comparison.place path scope other beside) (value : Option Value) :
    (receive host settings value path scope).Agrees comparison.fault
      (receive beyond { settings with typeName := typeName } value other beside) := by
  cases value with
  | none =>
    rw [receive, receive, ← comparison.isStrict placed, default]
    dsimp only
    split
    · exact .reject (comparison.located placed _)
    · exact .pure _
  | some value =>
    have allowed : (if settings.never && scope.isStrict then .reject (.located path .neverUsed)
        else pure (some value) : Run (Option Value)).Agrees comparison.fault
        (if settings.never && scope.isStrict then .reject (.located other .neverUsed)
          else pure (some value)) := by
      split
      · exact .reject (comparison.located placed _)
      · exact .pure _
    rw [receive, receive, ← comparison.isStrict placed]
    dsimp only
    cases settings.deprecated with
    | none => exact allowed
    | some message => exact (Run.Agrees.note _ _).bind fun _ => allowed

/-- Bodies that are alike agree where the members do. -/
theorem validate_agrees (alike : Alike comparison host beyond body twin)
    (agree : members.Agree comparison others) (placed : comparison.place path scope other beside)
    (value : Option Value) :
    (body.validate host members value path scope).Agrees comparison.fault
      (twin.validate beyond others value other beside) := by
  obtain ⟨settings, steps⟩ := body
  obtain ⟨shown, following⟩ := twin
  obtain ⟨same, default, checks, listed⟩ := alike
  dsimp only at same default checks listed
  rw [same]
  refine (receive_agrees _ (default _ _ _ _ placed) placed value).bind fun received => ?_
  cases received with
  | none => exact .pure none
  | some given =>
    dsimp only
    rw [← comparison.isStrict placed]
    split
    · split
      · exact .pure _
      · exact .reject (comparison.located placed _)
    · refine Run.Agrees.bind ?_ fun _ => .pure _
      rw [process, process, ← comparison.isStrict placed]
      dsimp only
      split
      · exact .reject (comparison.located placed _)
      · have skipped : ∀ step ∈ steps, ∀ value, step.isSkipped settings value =
            step.isSkipped { settings with typeName := shown.typeName } value := fun _ _ _ => rfl
        exact (takeSteps_agree listed agree checks placed skipped (fun _ => rfl) given).bind
          fun _ => .pure _

end Body

end Assay
