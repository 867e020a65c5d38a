import Mathlib.Data.Finset.Card
import Mathlib.Logic.Relation
import Assay.Proofs.Reach

/-!
# References among definitions

A definition refers to the names that stand in it. Some steps guard what they hand values on to, and
a name is exposed when no guard stands before it (`Schema.Exposes`). A family of definitions is a
finite set of names, each of which stands for a schema over that set, in which every circle of
references passes a guard (`Family`). Its names can then be ranked so that exposed references lead
to lower ranks only (`Family.rank_lt`), all of them below the number of names
(`Family.rank_lt_card`).
-/
namespace Assay

variable {κ : Type} {host : Host κ} {guards : Step κ → Schema κ → Prop} {names : Finset String}

namespace Schema

/-- The name stands in the schema, and no guard before it. -/
inductive Exposes (guards : Step κ → Schema κ → Prop) : Schema κ → String → Prop
  /-- A deferred schema exposes its name. -/
  | here (name : String) : Exposes guards (.deferred name) name
  /-- A body exposes what a schema does that a step hands values on to without guarding it. -/
  | member {body : Body κ} {step : Step κ} {inner : Schema κ} {name : String}
      (taken : step ∈ body.steps) (handed : inner ∈ step.schemas) (bare : ¬ guards step inner)
      (inside : Exposes guards inner name) : Exposes guards (.built body) name

/-- The name stands somewhere in the schema. -/
def Mentions (schema : Schema κ) (name : String) : Prop := schema.Exposes (fun _ _ => False) name

/-- Every name in the schema is one of the given names. -/
def Over (names : Finset String) (schema : Schema κ) : Prop :=
  ∀ name, schema.Mentions name → name ∈ names

/-- The definition of the first name exposes the second one. -/
def Refers (host : Host κ) (guards : Step κ → Schema κ → Prop) (name other : String) : Prop :=
  ∃ target, host.definitions name = .ok target ∧ target.Exposes guards other

namespace Exposes

variable {schema : Schema κ} {name : String}

/-- What is exposed past some guards is exposed past fewer. -/
theorem mono {fewer : Step κ → Schema κ → Prop}
    (within : ∀ step inner, fewer step inner → guards step inner)
    (exposed : schema.Exposes guards name) : schema.Exposes fewer name := by
  induction exposed with
  | here name => exact .here name
  | member taken handed bare _ ih =>
    exact .member taken handed (fun guarded => bare (within _ _ guarded)) ih

/-- An exposed name stands in the schema. -/
theorem mentions (exposed : schema.Exposes guards name) : schema.Mentions name :=
  exposed.mono fun _ _ => False.elim

end Exposes

namespace Over

/-- A body is over some names when the schemas are that it hands values on to. -/
theorem built {body : Body κ}
    (each : ∀ step ∈ body.steps, ∀ inner ∈ step.schemas, inner.Over names) :
    (Schema.built body).Over names := by
  intro name mentioned
  cases mentioned with
  | member taken handed _ inside => exact each _ taken _ handed name inside

/-- One of some names is over them. -/
theorem of_mem {name : String} (known : name ∈ names) :
    (Schema.deferred name : Schema κ).Over names := by
  intro other mentioned
  cases mentioned
  exact known

/-- A deferred schema over some names is one of them. -/
theorem deferred {name : String} (covered : (Schema.deferred name : Schema κ).Over names) :
    name ∈ names := covered name (.here name)

/-- The schemas that a body over some names hands values on to are over these names. -/
theorem member {body : Body κ} {step : Step κ} {inner : Schema κ}
    (covered : (Schema.built body).Over names) (taken : step ∈ body.steps)
    (handed : inner ∈ step.schemas) : inner.Over names :=
  fun name inside => covered name (.member taken handed not_false inside)

end Over

end Schema

/-- The names stand for schemas over them, and every circle of references passes a guard. -/
structure Family (host : Host κ) (guards : Step κ → Schema κ → Prop) (names : Finset String) :
    Prop where
  /-- Every name stands for a schema over the names. -/
  closed : ∀ name ∈ names, ∃ target, host.definitions name = .ok target ∧ target.Over names
  /-- No name leads back to itself by exposed references. -/
  guarded : ∀ name ∈ names, ¬ Relation.TransGen (Schema.Refers host guards) name name

open Classical in
/-- How many of the names a name leads to by exposed references. -/
noncomputable def Schema.rank (host : Host κ) (guards : Step κ → Schema κ → Prop)
    (names : Finset String) (name : String) : Nat :=
  (names.filter fun other => Relation.TransGen (Refers host guards) name other).card

/-- The names that the schema exposes have ranks below a bound. -/
def Schema.RanksBelow (host : Host κ) (guards : Step κ → Schema κ → Prop) (names : Finset String)
    (bound : Nat) (schema : Schema κ) : Prop :=
  ∀ name, schema.Exposes guards name → rank host guards names name < bound

namespace Family

/-- A family stays one when more is guarded. -/
theorem mono {more : Step κ → Schema κ → Prop} (family : Family host guards names)
    (within : ∀ step inner, guards step inner → more step inner) : Family host more names where
  closed := family.closed
  guarded := by
    intro name known circle
    have fewer : ∀ first second, Schema.Refers host more first second →
        Schema.Refers host guards first second := by
      rintro first second ⟨target, defined, exposed⟩
      exact ⟨target, defined, exposed.mono within⟩
    exact family.guarded name known (Relation.TransGen.mono fewer _ _ circle)

/-- Exposed references lead to lower ranks. -/
theorem rank_lt (family : Family host guards names) {name other : String} (known : other ∈ names)
    (refers : Schema.Refers host guards name other) :
    Schema.rank host guards names other < Schema.rank host guards names name := by
  classical
  apply Finset.card_lt_card
  refine ⟨fun last listed => ?_, fun contained => ?_⟩
  · obtain ⟨among, later⟩ := Finset.mem_filter.mp listed
    exact Finset.mem_filter.mpr ⟨among, .head refers later⟩
  · -- The second name is reached from the first one, but not from itself.
    have listed := contained (Finset.mem_filter.mpr ⟨known, .single refers⟩)
    exact family.guarded other known (Finset.mem_filter.mp listed).2

/-- Ranks are below the number of names. -/
theorem rank_lt_card (family : Family host guards names) {name : String} (known : name ∈ names) :
    Schema.rank host guards names name < names.card := by
  classical
  apply Finset.card_lt_card
  refine ⟨Finset.filter_subset _ _, fun contained => ?_⟩
  exact family.guarded name known (Finset.mem_filter.mp (contained known)).2

end Family

namespace Schema.RanksBelow

variable {bound : Nat}

/-- A schema over a family exposes names of ranks below the number of names. -/
theorem of_over (family : Family host guards names) {schema : Schema κ}
    (covered : schema.Over names) :
    schema.RanksBelow host guards names names.card :=
  fun name exposed => family.rank_lt_card (covered name exposed.mentions)

/-- What a body hands values on to without guarding it exposes what the body does. -/
theorem member {body : Body κ} {step : Step κ} {inner : Schema κ}
    (below : (Schema.built body).RanksBelow host guards names bound) (taken : step ∈ body.steps)
    (handed : inner ∈ step.schemas) (bare : ¬ guards step inner) :
    inner.RanksBelow host guards names bound :=
  fun name exposed => below name (.member taken handed bare exposed)

/-- What a name stands for exposes names of lower ranks. -/
theorem target (family : Family host guards names) {name : String} {target : Schema κ}
    (defined : host.definitions name = .ok target) (covered : target.Over names) :
    target.RanksBelow host guards names (rank host guards names name) :=
  fun other exposed => family.rank_lt (covered other exposed.mentions) ⟨target, defined, exposed⟩

end Schema.RanksBelow

end Assay
