import JoinOrder.Text.Spelling
import JoinOrder.Value
/-!
Limits of JSON texts: how deep they nest, and how many digits their integers have.
-/

namespace JoinOrder.Json

structure Limits where
  levels : Nat
  digits : Nat

namespace Limits

/-- The limits of what comes from outside. -/
def ofMachine (machine : Machine) : Limits := ⟨machine.textLevels, Value.digitLimit⟩

/-- The limits one level further in, if that level may be entered. -/
def enter (limits : Limits) : Except Error Limits :=
  match limits.levels with
  | 0 => .error .tooDeep
  | n + 1 => .ok { limits with levels := n }

end Limits

end JoinOrder.Json
