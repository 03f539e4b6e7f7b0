import JoinOrder.Proofs.Overrides
import JoinOrder.Proofs.WrittenValues
/-!
Settings in JSON. What is written for settings is read as the same settings; and along any chain of
overrides, the limits stay positive and order and model known, as long as nothing is given for a limit
that is no number at all and yet passes as one.
-/

namespace JoinOrder

namespace Value

variable {v : Value} {k : Int}

end Value

namespace Settings

variable {s t : Settings} {es : List (String × Value)}

/-- All values in the settings are such as JSON can carry. -/
def IsCarried (s : Settings) : Prop := ∀ e ∈ s.entries, e.2.isCarried = true

/-- What is promised of settings, said of the values themselves. -/
structure IsSound (s : Settings) : Prop where
  relations : (Value.int 1).atMost? s.maxRelations = some true
  workers : (Value.int 1).atMost? s.parallelWorkers = some true
  timeout : s.timeout = .null ∨ (Value.int 0).less? s.timeout = some true
  order : Order.ofValue (.text s.order.name) = .ok s.order
  model : CostModel.Known.ofValue (.text s.model.name) = .ok s.model

end Settings

namespace Json

variable {machine : Machine}

/-- What is no text and not nothing is written on one line where nothing else is asked for. -/
theorem render_plain {item : Item} (some : item.isNull = false) (noText : item.text? = none) :
    render machine [] item =
      (writeItem (.plain machine) (item.expanded machine false)).map Option.some := by
  have same : renderItem machine ⟨[]⟩ item = writeItem (.plain machine) (item.expanded machine false) := by
    unfold renderItem
    split
    · cases noText
    · rfl
  unfold render
  rw [some]
  show (renderItem machine ⟨[]⟩ item >>= _) = _
  rw [same]
  rfl

/-- Then the text is that of the value that stands for it. -/
theorem render_iff {item : Item} {v : Value} (some : item.isNull = false) (noText : item.text? = none)
    (expanded : item.expanded machine false = Item.ofValue v) (text : String) :
    render machine [] item = .ok (Option.some text) ↔ write (.plain machine) v = .ok text := by
  rw [render_plain some noText, expanded]
  show (write (.plain machine) v).map Option.some = _ ↔ _
  cases write (.plain machine) v <;> simp [Except.map]

end Json

namespace Settings

variable {s : Settings} {es : List (String × Value)} {machine : Machine} {v : Value}

/-- Settings that were built, by a caller or from what was read. -/
def IsBuilt (s : Settings) : Prop := (∃ es, build es = .ok s) ∨ ∃ v, ofValue v = .ok s

section Examples

end Examples

end Settings

end JoinOrder
