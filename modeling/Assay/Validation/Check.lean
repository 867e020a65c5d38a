import Assay.Schema.Basic
import Assay.Fault.Basic

/-!
# Checks

What each check demands of a value in its surroundings, and the reason it gives for refusing one. A
check that is about one category of values lets all other values pass, except that a check for
instances refuses whatever is none.
-/
namespace Assay

namespace Check

variable {κ : Type}

/-- A reason unless a condition holds. -/
def reasonUnless (condition : Bool) (reason : Reason) : Option Reason :=
  if condition then none else some reason

/-- Why a check refuses a value, if it does. -/
def objection? (host : Host κ) (check : Check κ) (value : Value) (path : Path) (scope : Scope) :
    Option Reason :=
  match check with
  | text rule => reasonUnless ((value.string?.map rule.holds).getD true) (.text rule)
  | number rule => reasonUnless ((value.number?.map rule.holds).getD true) (.number rule)
  | boolean expected =>
    reasonUnless ((value.bool?.map (· == expected)).getD true) (.boolean expected)
  | date rule => reasonUnless ((value.toInstant?.map rule.holds).getD true) (.date rule)
  | size container rule =>
    reasonUnless (((container.size? value).map rule.holds).getD true) (.size container rule)
  | instanceOf cls loose =>
    reasonUnless ((value.class?.map (·.inherits cls loose)).getD false) (.notInstance cls.name)
  | only allowed => reasonUnless (value == allowed) (.notDefault allowed)
  | presence rule keys =>
    let group := PresenceRule.group keys path
    let present := PresenceRule.presentCount group scope.current
    reasonUnless (rule.holds present group.length) (.presence rule group)
  | custom name => (host.callback name value scope).map .stated

/-- Run a check on a value at a place. -/
def run (host : Host κ) (check : Check κ) (value : Value) (path : Path) (scope : Scope) :
    Except Fault Unit :=
  match check.objection? host value path scope with
  | none => .ok ()
  | some reason => .error (.located path reason)

end Check

end Assay
