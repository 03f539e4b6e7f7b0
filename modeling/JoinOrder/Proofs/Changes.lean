import JoinOrder.Proofs.Histories
import JoinOrder.Proofs.PlanMap
import JoinOrder.Proofs.Stores
/-!
Everything that can change a table: plans that are stored by hand, bindings, resets, and calls that find
some plans or none. Whatever order all that comes in, the entries of a table and the look-ups in it stay
in step.
-/

namespace JoinOrder

namespace Memo

variable {m m' : Memo} {collection plan : Item}

theorem filed_keptByStores : KeptByStores Filed := by
  intro m m' listed plan stored filed
  have put := eq_put_of_store stored
  have nonempty : listed ≠ [] := by
    rintro rfl
    exact plan.relations_ne_nil (IdSet.same_iff.mp put.1)
  obtain ⟨e, rest, placed⟩ : ∃ e rest, Placed m listed plan e rest := filed.exists_placed nonempty
  rw [put.2]
  exact placed.filed filed

theorem filed_keptByBinding : KeptByBinding Filed :=
  fun _ _ filed => ⟨filed.found, filed.nodup⟩

/-- Whatever is handed over to be stored, only a plan for relations gets there. -/
theorem exists_store_of_storeItem (ok : m.storeItem collection plan = .ok m') :
    ∃ listed p, m.store listed p = .ok m' := by
  obtain ⟨key, _, ok⟩ := ok_of_bind ok
  split at ok
  case h_1 p listed _ _ => exact ⟨listed, p, ok⟩
  case h_2 =>
    obtain ⟨_, _, ok⟩ := ok_of_bind ok
    exact nomatch ok
  case h_3 => exact nomatch ok

end Memo

/-- One thing that is done to a table. Reading is none: it gives no table back. -/
inductive Change where
  | store (collection plan : Item)
  | bind (configuration : Value)
  | use (u : Use)

namespace Change

/-- The table afterwards. What is not accepted changes nothing; a call ends only if its schedules last
until then. -/
def on (m : Memo) : Change → Option Memo
  | store collection plan => some ((m.storeItem collection plan).toOption.getD m)
  | bind configuration => some ((m.bind configuration).toOption.getD m)
  | use u => (u.on m).map (·.2)

/-- The table after one change and another. -/
def history (m : Memo) : List Change → Option Memo
  | [] => some m
  | change :: later => (change.on m).bind fun m => history m later

variable {m m' : Memo} {holds : Memo → Prop}

/-- What holds of the empty table and is kept by stores and bindings, one change keeps. -/
theorem on_keeps (kept : Memo.KeptByStores holds) (free : Memo.KeptByBinding holds)
    (fresh : holds ∅) (change : Change) (before : holds m) (changed : change.on m = some m') :
    holds m' := by
  cases change with
  | store collection plan =>
    cases stored : m.storeItem collection plan with
    | error e =>
      rw [on, stored] at changed
      cases changed
      exact before
    | ok left =>
      rw [on, stored] at changed
      cases changed
      obtain ⟨listed, p, accepted⟩ := Memo.exists_store_of_storeItem stored
      exact kept m left listed p accepted before
  | bind configuration =>
    cases bound : m.bind configuration with
    | error e =>
      rw [on, bound] at changed
      cases changed
      exact before
    | ok left =>
      rw [on, bound] at changed
      cases changed
      exact free.bind bound before
  | use u =>
    cases u with
    | reset =>
      cases changed
      exact fresh
    | optimize o schedules clock readings collection =>
      simp only [on, Use.on, Option.map_map, Option.map_eq_some_iff, Function.comp_apply] at changed
      obtain ⟨out, ran, rfl⟩ := changed
      exact Optimizer.optimizeBy_keeps kept free before ran

/-- What one change keeps, any changes keep. -/
theorem history_keeps (kept : Memo.KeptByStores holds) (free : Memo.KeptByBinding holds)
    (fresh : holds ∅) {changes : List Change} (before : holds m)
    (ran : history m changes = some m') : holds m' := by
  induction changes generalizing m with
  | nil =>
    cases ran
    exact before
  | cons change later ih =>
    obtain ⟨left, changed, rest⟩ := Option.bind_eq_some_iff.mp ran
    exact ih (on_keeps kept free fresh change before changed) rest

theorem history_filed {changes : List Change} (ran : history ∅ changes = some m) : m.Filed :=
  history_keeps Memo.filed_keptByStores Memo.filed_keptByBinding Memo.filed_empty Memo.filed_empty ran

end Change

end JoinOrder
