import JoinOrder.Error
/-!
Writing a text bit by bit. What was written before something failed stays written.
-/

namespace JoinOrder

abbrev Writing := ExceptT Error (StateM String)

namespace Writing

def text (s : String) : Writing Unit := modify (· ++ s)

def ofExcept {α : Type} (result : Except Error α) : Writing α := ExceptT.mk (pure result)

/-- What was written, and whether all of it could be. -/
def output (writing : Writing Unit) : String × Except Error Unit :=
  let (result, written) := writing.run.run ""
  (written, result)

end Writing

end JoinOrder
