import Assay.Proofs.Checks

/-!
# Lines of classes

A class inherits from another one exactly when the line of classes from it upwards ends with the line
of the other (`Class.inherits_iff_suffix`), so inheritance is the order of suffixes: partial, and total
above any one class. Loosely, a class inherits from every name on its line, and the line of a class
that inherits from it holds the same names and more. Schemas that ask for classes therefore accept
the instances of a class only together with those of all classes below it
(`Body.validate_instances`).

Equal classes are one declaration, since declarations number their classes apart
(`Declarations.Made.eq_of_serial`).
-/
namespace Assay

namespace Class

/-- The number of the declaration. -/
def serial : Class → Nat
  | base serial _ => serial
  | derived serial _ _ => serial

/-- The class and the classes above it, nearest first. -/
def line : Class → List Class
  | base serial name => [base serial name]
  | derived serial name parent => derived serial name parent :: parent.line

/-- The line of a class begins with it. -/
theorem line_eq_cons (cls : Class) : ∃ above, cls.line = cls :: above := by
  cases cls with
  | base serial name => exact ⟨[], rfl⟩
  | derived serial name parent => exact ⟨parent.line, rfl⟩

/-- The line of a declared class is the class and the line of the one that it extends. -/
theorem line_declare (declarations : Declarations) (name : String) (parent : Option Class) :
    (declarations.declare name parent).1.line =
      (declarations.declare name parent).1 :: (parent.map line).getD [] := by
  cases parent <;> rfl

/-- A class is on its own line. -/
theorem mem_line_self (cls : Class) : cls ∈ cls.line := by
  obtain ⟨above, same⟩ := cls.line_eq_cons
  rw [same]
  exact List.mem_cons_self

/-- A class inherits from another one when some class on its line counts as that one. -/
theorem inherits_iff_exists {cls other : Class} {loose : Bool} :
    cls.inherits other loose = true ↔ ∃ above ∈ cls.line, above.matchesClass other loose = true := by
  induction cls with
  | base serial name => simp [inherits, line]
  | derived serial name parent ih => simp [inherits, line, ih]

/-- Strictly, a class inherits from the classes on its line. -/
theorem inherits_iff_mem {cls other : Class} :
    cls.inherits other false = true ↔ other ∈ cls.line := by
  simp [inherits_iff_exists, matchesClass]

/-- Loosely, a class inherits from the names on its line. -/
theorem inherits_iff_name {cls other : Class} :
    cls.inherits other true = true ↔ other.name ∈ cls.line.map name := by
  rw [inherits_iff_exists, List.mem_map]
  refine exists_congr fun above => and_congr_right fun _ => ?_
  simp only [matchesClass, Bool.true_and, Bool.or_eq_true, beq_iff_eq]
  exact ⟨fun counts => counts.elim (congrArg name) id, .inr⟩

/-- The line of a class ends with those of the classes on it. -/
theorem mem_line_iff_suffix {cls other : Class} : other ∈ cls.line ↔ other.line <:+ cls.line := by
  constructor
  · intro listed
    induction cls with
    | base serial name =>
      obtain rfl := List.mem_singleton.mp listed
      exact List.suffix_rfl
    | derived serial name parent ih =>
      rcases List.mem_cons.mp listed with rfl | above
      · exact List.suffix_rfl
      · exact (ih above).trans (List.suffix_cons _ _)
  · intro ending
    exact ending.subset other.mem_line_self

/-- Strictly, a class inherits from another one when its line ends with that of the other. -/
theorem inherits_iff_suffix {cls other : Class} :
    cls.inherits other false = true ↔ other.line <:+ cls.line :=
  inherits_iff_mem.trans mem_line_iff_suffix

/-- Classes of one line are one class. -/
theorem line_injective {cls other : Class} (same : cls.line = other.line) : cls = other := by
  obtain ⟨_, first⟩ := cls.line_eq_cons
  obtain ⟨_, second⟩ := other.line_eq_cons
  rw [first, second] at same
  exact (List.cons.inj same).1

variable {cls middle other : Class}

/-- A class inherits from itself. -/
theorem inherits_self (cls : Class) : cls.inherits cls false = true :=
  inherits_iff_mem.mpr cls.mem_line_self

/-- What a class inherits from, in one way or the other, the classes below it inherit from. -/
theorem inherits_trans {loose : Bool} (below : cls.inherits middle false = true)
    (above : middle.inherits other loose = true) : cls.inherits other loose = true := by
  obtain ⟨found, listed, counts⟩ := inherits_iff_exists.mp above
  exact inherits_iff_exists.mpr ⟨found, (inherits_iff_suffix.mp below).subset listed, counts⟩

/-- Classes that inherit from each other are one class. -/
theorem inherits_antisymm (below : cls.inherits other false = true)
    (above : other.inherits cls false = true) : cls = other := by
  have up := inherits_iff_suffix.mp below
  have down := inherits_iff_suffix.mp above
  exact line_injective (down.eq_of_length (Nat.le_antisymm down.length_le up.length_le))

/-- Of two classes that one class inherits from, one inherits from the other. -/
theorem inherits_total (one : cls.inherits middle false = true)
    (two : cls.inherits other false = true) :
    middle.inherits other false = true ∨ other.inherits middle false = true := by
  simp only [inherits_iff_suffix] at *
  exact (List.suffix_or_suffix_of_suffix one two).symm

/-- What a class inherits from strictly, it inherits from loosely. -/
theorem inherits_loosely (below : cls.inherits other false = true) :
    cls.inherits other true = true :=
  inherits_iff_name.mpr (List.mem_map_of_mem (inherits_iff_mem.mp below))

/-- Classes of one name are inherited from alike, loosely. -/
theorem inherits_congr_name (same : middle.name = other.name) :
    cls.inherits middle true = cls.inherits other true := by
  rw [Bool.eq_iff_iff, inherits_iff_name, inherits_iff_name, same]

end Class

namespace Declarations

/-- The declarations so far were of the classes, the latest first, each of which stands alone or
extends one declared before it. -/
inductive Made : Declarations → List Class → Prop
  /-- There is no class before the first declaration. -/
  | none : Made .empty []
  /-- A declaration adds its class. -/
  | one {declarations : Declarations} {classes : List Class} (before : Made declarations classes)
      (name : String) (parent : Option Class) (known : ∀ above ∈ parent, above ∈ classes) :
      Made (declarations.declare name parent).2 ((declarations.declare name parent).1 :: classes)

/-- A declaration gives its class the next number. -/
theorem serial_declare (declarations : Declarations) (name : String) (parent : Option Class) :
    (declarations.declare name parent).1.serial = declarations.next := by
  cases parent <;> rfl

/-- The numbers given so far are less than the next one. -/
theorem Made.serial_lt {declarations : Declarations} {classes : List Class}
    (made : declarations.Made classes) : ∀ cls ∈ classes, cls.serial < declarations.next := by
  induction made with
  | none => exact List.forall_mem_nil _
  | one before name parent known ih =>
    refine List.forall_mem_cons.mpr ⟨?_, fun cls listed => Nat.lt_succ_of_lt (ih cls listed)⟩
    rw [serial_declare]
    exact Nat.lt_succ_self _

/-- Declared classes of one number are one class. -/
theorem Made.eq_of_serial {declarations : Declarations} {classes : List Class}
    (made : declarations.Made classes) {first second : Class} (one : first ∈ classes)
    (two : second ∈ classes) (same : first.serial = second.serial) : first = second := by
  induction made with
  | none => cases one
  | one before name parent known ih =>
    have fresh := fun cls listed => Nat.ne_of_lt (before.serial_lt cls listed)
    rcases List.mem_cons.mp one with rfl | old
    · rcases List.mem_cons.mp two with rfl | older
      · rfl
      · rw [serial_declare] at same
        exact absurd same.symm (fresh second older)
    · rcases List.mem_cons.mp two with rfl | older
      · rw [serial_declare] at same
        exact absurd same (fresh first old)
      · exact ih old older

end Declarations

/-! ## Schemas of instances -/

variable {κ : Type} {host : Host κ} {members : Members κ} {path : Path} {scope : Scope}

namespace Criterion

/-- Whether a criterion sees no more of an instance than its class: it asks for a class or for fields
beside, or is about null, undefined or unwanted input, the default or a notice. -/
def isAboutClass : Criterion κ → Bool
  | instanceOf .. | presence .. | nullable _ | required _ | never | .deprecate _ | default _
  | computedDefault _ => true
  | _ => false

/-- The check that such a criterion registers. -/
def classCheck? : Criterion κ → Option (Check κ)
  | instanceOf cls loose => some (.instanceOf cls loose)
  | presence rule beside => some (.presence rule beside)
  | _ => none

/-- The step that such a criterion registers does not depend on the settings. -/
theorem step?_aboutClass {criterion : Criterion κ} (own : criterion.isAboutClass = true)
    (settings : Settings κ) : criterion.step? settings = criterion.classCheck?.map Step.check := by
  cases criterion <;> first | rfl | cases own

/-- Such a check is not about content, and if it does not object to an instance of a class, it does
not object to those of the classes below it. -/
theorem classCheck_below {criterion : Criterion κ} {condition : Check κ}
    (registered : criterion.classCheck? = some condition) :
    condition.isAboutContent = false ∧ ∀ cls below fields others, below.inherits cls false = true →
      condition.objection? host (.inst cls fields) path scope = none →
        condition.objection? host (.inst below others) path scope = none := by
  cases criterion with
  | instanceOf wanted loose =>
    obtain rfl := Option.some.inj registered
    refine ⟨rfl, fun cls below fields others inherits allowed => ?_⟩
    rw [Check.objection?, Check.reasonUnless_eq_none] at allowed ⊢
    exact Class.inherits_trans inherits allowed
  | presence rule beside =>
    obtain rfl := Option.some.inj registered
    exact ⟨rfl, fun _ _ _ _ _ allowed => allowed⟩
  | _ => cases registered

end Criterion

/-- Built by criteria that see no more of an instance than its class, a schema of instances that
accepts one of a class returns all those of the classes below it. -/
theorem Body.validate_instances {criteria : List (Criterion κ)} {body : Body κ}
    (own : ∀ criterion ∈ criteria, criterion.isAboutClass = true)
    (applied : (ofKind .inst).applyAll criteria = .ok body) {cls below : Class}
    {fields others : List (String × Value)} (inherits : below.inherits cls false = true)
    {outcome : Option Value}
    (accepted : (body.validate host members (some (.inst cls fields)) path scope).result? =
      some outcome) :
    (body.validate host members (some (.inst below others)) path scope).result? =
      some (some (.inst below others)) := by
  have kind : body.settings.kind = .inst := applyAll_kind applied
  have steps : body.steps = (criteria.filterMap Criterion.classCheck?).map Step.check := by
    rw [applyAll_ok applied, refineAll_checks fun criterion listed =>
      Criterion.step?_aboutClass (own criterion listed)]
    rfl
  have each : ∀ condition ∈ criteria.filterMap Criterion.classCheck?,
      condition.isAboutContent = false ∧ (condition.objection? host (.inst cls fields) path scope =
        none → condition.objection? host (.inst below others) path scope = none) := by
    intro condition listed
    obtain ⟨_, _, registered⟩ := List.mem_filterMap.mp listed
    exact (Criterion.classCheck_below registered).imp_right fun lower => lower _ _ _ _ inherits
  have ended : ∀ cls fields, (body.validate host members (some (.inst cls fields)) path
      scope).result? = if body.settings.never && scope.isStrict then none
        else if (Check.firstObjection? host (criteria.filterMap Criterion.classCheck?)
          (.inst cls fields) path scope).isSome then none
        else some (some (.inst cls fields)) := by
    intro cls fields
    refine (validate_of_checks steps (fun condition listed => (each condition listed).1)
      (show Value.inst cls fields ≠ .null from nofun) (by rw [kind]; rfl)).trans ?_
    rw [kind]
    rfl
  rw [ended] at accepted ⊢
  split at accepted
  · cases accepted
  · rename_i usable
    split at accepted
    · cases accepted
    · rename_i silent
      have pass : Check.firstObjection? host (criteria.filterMap Criterion.classCheck?)
          (.inst below others) path scope = none := by
        cases strict : scope.isStrict with
        | false => rw [Check.firstObjection?, strict, if_neg Bool.false_ne_true]
        | true =>
          have allowed := (Check.firstObjection?_eq_none_iff strict).mp (by simpa using silent)
          exact (Check.firstObjection?_eq_none_iff strict).mpr fun condition listed =>
            (each condition listed).2 (allowed condition listed)
      rw [if_neg usable, pass, if_neg (by simp)]

/-- A class inherits strictly from just the classes on its line, and loosely from just the names on it;
the line of a declared class is the class and the line of the one that it extends. So inheritance is a
partial order of classes, total on those that one class inherits from, and it holds loosely where it
holds strictly. A class inherits in either way what those that it inherits from strictly do, and loose
inheritance looks at names only. Among declared classes, equal ones are those of one declaration. A
schema that sees no more of an instance than its class, and accepts one of a class, returns all those
of the classes below it. -/
theorem Class.inherits_orders (host : Host κ) :
    (∀ lower upper : Class, lower.inherits upper false = true ↔ upper ∈ lower.line) ∧
    (∀ lower upper : Class, lower.inherits upper true = true ↔ upper.name ∈ lower.line.map name) ∧
    (∀ (declarations : Declarations) (name : String) (parent : Option Class),
      (declarations.declare name parent).1.line =
        (declarations.declare name parent).1 :: (parent.map line).getD []) ∧
    (∀ cls : Class, cls.inherits cls false = true) ∧
    (∀ lower middle upper : Class, lower.inherits middle false = true →
      middle.inherits upper false = true → lower.inherits upper false = true) ∧
    (∀ cls other : Class, cls.inherits other false = true → other.inherits cls false = true →
      cls = other) ∧
    (∀ lower upper other : Class, lower.inherits upper false = true →
      lower.inherits other false = true →
        upper.inherits other false = true ∨ other.inherits upper false = true) ∧
    (∀ lower upper : Class, lower.inherits upper false = true →
      lower.inherits upper true = true) ∧
    (∀ (lower middle upper : Class) (loose : Bool), lower.inherits middle false = true →
      middle.inherits upper loose = true → lower.inherits upper loose = true) ∧
    (∀ lower upper other : Class, upper.name = other.name →
      lower.inherits upper true = lower.inherits other true) ∧
    (∀ (declarations : Declarations) (classes : List Class), declarations.Made classes →
      ∀ cls ∈ classes, ∀ other ∈ classes, cls = other ↔ cls.serial = other.serial) ∧
    ∀ (criteria : List (Criterion κ)) (body : Body κ),
      (∀ criterion ∈ criteria, criterion.isAboutClass = true) →
      (Body.ofKind .inst).applyAll criteria = .ok body →
      ∀ (depth : Nat) (path : Path) (scope : Scope) (lower upper : Class)
        (fields others : List (String × Value)), lower.inherits upper false = true →
        (∃ outcome, ((Schema.built body).validateAt host depth (some (.inst upper fields)) path
          scope).result? = some outcome) →
        ((Schema.built body).validateAt host depth (some (.inst lower others)) path scope).result? =
          some (some (.inst lower others)) := by
  refine ⟨fun _ _ => inherits_iff_mem, fun _ _ => inherits_iff_name, line_declare, inherits_self,
    fun _ _ _ => inherits_trans, fun _ _ => inherits_antisymm,
    fun _ _ _ => inherits_total, fun _ _ => inherits_loosely, fun _ _ _ _ => inherits_trans,
    fun _ _ _ => inherits_congr_name, ?_, ?_⟩
  · intro declarations classes made cls one other two
    exact ⟨congrArg serial, made.eq_of_serial one two⟩
  · intro criteria body own applied depth path scope lower upper fields others inherits accepted
    obtain ⟨outcome, reached⟩ := accepted
    cases depth with
    | zero => cases reached
    | succ depth => exact Body.validate_instances own applied inherits reached

/-! ## Plugins, an example -/

/-- A first class of plugins. -/
def plugin : Class := .base 0 "Plugin"

/-- The plugins that draw. -/
def drawing : Class := .derived 1 "Drawing" plugin

/-- The plugins that draw charts. -/
def charting : Class := .derived 2 "Charting" drawing

/-- Another class of plugins, which has the name of the first. -/
def pluginAgain : Class := .base 3 "Plugin"

/-- Charting plugins are drawing plugins and plugins, loosely also of the other class of that name, and
whatever takes drawing plugins takes them. -/
theorem Class.inherits_orders_plugins :
    let body : Body Unit := (Body.ofKind .inst).refine (.instanceOf pluginAgain true)
    (Declarations.mk 4).Made [pluginAgain, charting, drawing, plugin] ∧
      (charting = pluginAgain ↔ charting.serial = pluginAgain.serial) ∧
      charting.inherits drawing false = true ∧ drawing.inherits plugin false = true ∧
      charting.inherits plugin false = true ∧ plugin ∈ charting.line ∧
      (drawing.inherits plugin false = true ∨ plugin.inherits drawing false = true) ∧
      plugin.name = pluginAgain.name ∧ charting.inherits pluginAgain true = true ∧
      charting.inherits pluginAgain false = false ∧
      ((Schema.built body).validateAt events 1 (some (.inst charting [])) .root
        (.new .strict)).result? = some (some (.inst charting [])) := by
  intro body
  have latest : ∀ (cls : Class) (classes : List Class), ∀ above ∈ some cls, above ∈ cls :: classes :=
    fun cls classes above found => Option.some.inj found ▸ List.mem_cons_self
  have made : (Declarations.mk 4).Made [pluginAgain, charting, drawing, plugin] :=
    (((Declarations.Made.none.one "Plugin" none nofun).one "Drawing" (some plugin)
      (latest plugin _)).one "Charting" (some drawing) (latest drawing _)).one "Plugin" none nofun
  have draws : charting.inherits drawing false = true := by decide
  have plugs : drawing.inherits plugin false = true := by decide
  obtain ⟨onLine, _, _, _, trans, _, total, loosely, below, named, identity, accepts⟩ :=
    inherits_orders events
  have charts := trans charting drawing plugin draws plugs
  have again := named charting plugin pluginAgain rfl
  have own : ∀ criterion ∈ [Criterion.instanceOf pluginAgain true],
      (criterion : Criterion Unit).isAboutClass = true := by
    simp [Criterion.isAboutClass]
  refine ⟨made, identity _ _ made charting (by simp) pluginAgain (by simp), draws, plugs, charts,
    (onLine charting plugin).mp charts, (total charting plugin drawing charts draws).symm, rfl, ?_,
    by decide, ?_⟩
  · rw [← again]
    exact below charting drawing plugin true draws (loosely drawing plugin plugs)
  · exact accepts _ body own rfl 1 .root (.new .strict) charting drawing [] [] draws
      ⟨some (.inst drawing []), rfl⟩

end Assay
