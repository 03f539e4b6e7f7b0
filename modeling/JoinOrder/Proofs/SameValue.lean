import Mathlib
import JoinOrder.Value
/-!
Values that agree, name by name and in any order, agree with the same others. That needs what every
object has: distinct names.
-/

namespace JoinOrder

namespace Value

variable {x y z : Value} {xs ys zs : List Value} {es fs gs : List (String × Value)}

/-- All objects in a value have distinct names. -/
inductive IsTidy : Value → Prop
  | scalar (s : Scalar) : IsTidy (.scalar s)
  | array {items : List Value} (each : ∀ x ∈ items, IsTidy x) : IsTidy (.array items)
  | object {entries : List (String × Value)} (names : (entries.map (·.1)).Nodup)
      (each : ∀ e ∈ entries, IsTidy e.2) : IsTidy (.object entries)

theorem sameEntries_iff : sameEntries es fs = true ↔
    ∀ e ∈ es, ∃ v, fs.lookup e.1 = some v ∧ e.2.same v = true := by
  induction es with
  | nil => simp [sameEntries]
  | cons e es ih =>
    rw [sameEntries, Bool.and_eq_true, ih, List.forall_mem_cons]
    cases fs.lookup e.1 <;> simp

theorem mem_of_lookup {name : String} {v : Value} (found : es.lookup name = some v) :
    (name, v) ∈ es := by
  induction es with
  | nil => exact nomatch found
  | cons e es ih =>
    rw [List.lookup_cons] at found
    split at found
    case h_1 same =>
      cases found
      rw [beq_iff_eq.mp same]
      exact List.mem_cons_self
    case h_2 => exact List.mem_cons_of_mem e (ih found)

theorem lookup_of_mem {β : Type} {es : List (String × β)} (names : (es.map (·.1)).Nodup)
    {name : String} {v : β} (member : (name, v) ∈ es) : es.lookup name = some v := by
  induction es with
  | nil => exact nomatch member
  | cons e es ih =>
    obtain ⟨fresh, names⟩ := List.nodup_cons.mp names
    rw [List.lookup_cons]
    cases member with
    | head => simp
    | tail _ member =>
      have other : (name == e.1) = false := by
        rw [beq_eq_false_iff_ne]
        intro is
        exact fresh (List.mem_map.mpr ⟨(name, v), member, is⟩)
      rw [other]
      exact ih names member

/-- Objects that agree have the same names. -/
theorem names_perm (names : (es.map (·.1)).Nodup) (length : es.length = fs.length)
    (agree : sameEntries es fs = true) : (es.map (·.1)).Perm (fs.map (·.1)) := by
  have inside : es.map (·.1) ⊆ fs.map (·.1) := by
    intro name member
    obtain ⟨e, inEs, rfl⟩ := List.mem_map.mp member
    obtain ⟨v, found, _⟩ := sameEntries_iff.mp agree e inEs
    exact List.mem_map.mpr ⟨(e.1, v), mem_of_lookup found, rfl⟩
  exact (names.subperm inside).perm_of_length_le (by simp [length])

theorem sameItems_trans (each : ∀ x ∈ xs, ∀ y z : Value,
      x.same y = true → y.same z = true → x.same z = true)
    (first : sameItems xs ys = true) (second : sameItems ys zs = true) :
    sameItems xs zs = true := by
  induction xs generalizing ys zs with
  | nil => cases ys <;> simp_all [sameItems]
  | cons x xs ih =>
    cases ys with
    | nil => simp [sameItems] at first
    | cons y ys =>
      cases zs with
      | nil => simp [sameItems] at second
      | cons z zs =>
        simp only [sameItems, Bool.and_eq_true] at first second ⊢
        exact ⟨each x List.mem_cons_self y z first.1 second.1,
          ih (fun v member => each v (List.mem_cons_of_mem x member)) first.2 second.2⟩

theorem sameItems_euclid (each : ∀ x ∈ xs, ∀ y z : Value,
      x.same y = true → x.same z = true → y.same z = true)
    (first : sameItems xs ys = true) (second : sameItems xs zs = true) :
    sameItems ys zs = true := by
  induction xs generalizing ys zs with
  | nil => cases ys <;> cases zs <;> simp_all [sameItems]
  | cons x xs ih =>
    cases ys with
    | nil => simp [sameItems] at first
    | cons y ys =>
      cases zs with
      | nil => simp [sameItems] at second
      | cons z zs =>
        simp only [sameItems, Bool.and_eq_true] at first second ⊢
        exact ⟨each x List.mem_cons_self y z first.1 second.1,
          ih (fun v member => each v (List.mem_cons_of_mem x member)) first.2 second.2⟩

theorem sameEntries_trans (each : ∀ e ∈ es, ∀ y z : Value,
      e.2.same y = true → y.same z = true → e.2.same z = true)
    (first : sameEntries es fs = true) (second : sameEntries fs gs = true) :
    sameEntries es gs = true := by
  rw [sameEntries_iff] at first second ⊢
  intro e member
  obtain ⟨v, found, equal⟩ := first e member
  obtain ⟨v', found', equal'⟩ := second (e.1, v) (mem_of_lookup found)
  exact ⟨v', found', each e member v v' equal equal'⟩

/-- Every entry of the second object is reached from the first one, which has the same names. -/
theorem sameEntries_euclid (names : (es.map (·.1)).Nodup) (length : es.length = fs.length)
    (each : ∀ e ∈ es, ∀ y z : Value, e.2.same y = true → e.2.same z = true → y.same z = true)
    (first : sameEntries es fs = true) (second : sameEntries es gs = true) :
    sameEntries fs gs = true := by
  have perm := names_perm names length first
  rw [sameEntries_iff] at first second ⊢
  intro f member
  obtain ⟨e, inside, name⟩ := List.mem_map.mp (perm.symm.subset (List.mem_map_of_mem member))
  have own : fs.lookup e.1 = some f.2 := by
    rw [name]
    exact lookup_of_mem (perm.nodup_iff.mp names) member
  obtain ⟨v, found, equal⟩ := first e inside
  obtain ⟨v', found', equal'⟩ := second e inside
  rw [own] at found
  cases found
  exact ⟨v', name ▸ found', each e inside f.2 v' equal equal'⟩

theorem same_trans (tidy : x.IsTidy) (first : x.same y = true) (second : y.same z = true) :
    x.same z = true := by
  induction tidy generalizing y z with
  | scalar s =>
    cases y with
    | scalar t =>
      cases z with
      | scalar u => simp_all [same]
      | _ => simp [same] at second
    | _ => simp [same] at first
  | array each ih =>
    cases y with
    | array middle =>
      cases z with
      | array last =>
        rw [same] at first second ⊢
        exact sameItems_trans (fun x member y z => ih x member) first second
      | _ => simp [same] at second
    | _ => simp [same] at first
  | object names each ih =>
    cases y with
    | object middle =>
      cases z with
      | object last =>
        simp only [same, Bool.and_eq_true, beq_iff_eq] at first second ⊢
        exact ⟨first.1.trans second.1,
          sameEntries_trans (fun e member y z => ih e member) first.2 second.2⟩
      | _ => simp [same] at second
    | _ => simp [same] at first

theorem same_euclid (tidy : x.IsTidy) (first : x.same y = true) (second : x.same z = true) :
    y.same z = true := by
  induction tidy generalizing y z with
  | scalar s =>
    cases y with
    | scalar t =>
      cases z with
      | scalar u => simp_all [same]
      | _ => simp [same] at second
    | _ => simp [same] at first
  | array each ih =>
    cases y with
    | array middle =>
      cases z with
      | array last =>
        rw [same] at first second ⊢
        exact sameItems_euclid (fun x member y z => ih x member) first second
      | _ => simp [same] at second
    | _ => simp [same] at first
  | object names each ih =>
    cases y with
    | object middle =>
      cases z with
      | object last =>
        simp only [same, Bool.and_eq_true, beq_iff_eq] at first second ⊢
        exact ⟨first.1.symm.trans second.1,
          sameEntries_euclid names first.1 (fun e member y z => ih e member) first.2 second.2⟩
      | _ => simp [same] at second
    | _ => simp [same] at first

/-- Equal values are equal to the same others. -/
theorem same_congr (tidy : x.IsTidy) (equal : x.same y = true) (z : Value) :
    x.same z = y.same z := by
  apply Bool.eq_iff_iff.mpr
  exact ⟨same_euclid tidy equal, same_trans tidy equal⟩

end Value

end JoinOrder
