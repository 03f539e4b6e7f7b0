import JoinOrder.Atom
/-!
Tables whose keys are lists of atoms. Keys with a common beginning share it; every node holds one
atom, the value of the key that ends there, and what goes on below and beside it.

Only keys with at least one atom have values.
-/

namespace JoinOrder

inductive Trie (α : Type) where
  | leaf
  | node (label : Atom) (here : Option α) (below beside : Trie α)

namespace Trie

variable {α : Type}

instance : EmptyCollection (Trie α) := ⟨leaf⟩

instance : Inhabited (Trie α) := ⟨leaf⟩

def find? : Trie α → List Atom → Option α
  | leaf, _ => none
  | _, [] => none
  | node label here below beside, a :: rest =>
    if a = label then if rest.isEmpty then here else find? below rest else find? beside (a :: rest)

def single : List Atom → α → Trie α
  | [], _ => leaf
  | [a], v => node a (some v) leaf leaf
  | a :: rest, v => node a none (single rest v) leaf

/-- Gives a key a new value, which may depend on the old one. -/
def alter (f : Option α → α) : Trie α → List Atom → Trie α
  | leaf, key => single key (f none)
  | t, [] => t
  | node label here below beside, a :: rest =>
    if a = label then
      if rest.isEmpty then node label (some (f here)) below beside
      else node label here (alter f below rest) beside
    else node label here below (alter f beside (a :: rest))

def values : Trie α → List α
  | leaf => []
  | node _ here below beside => here.toList ++ below.values ++ beside.values

def size (t : Trie α) : Nat := t.values.length

theorem find?_leaf (key : List Atom) : (leaf : Trie α).find? key = none := by
  cases key <;> rfl

theorem find?_single {key k : List Atom} {v : α} (h : key ≠ []) :
    (single key v).find? k = if k = key then some v else none := by
  induction key generalizing k with
  | nil => exact absurd rfl h
  | cons a rest ih =>
    cases k with
    | nil => cases rest <;> rfl
    | cons b bs =>
      cases rest with
      | nil => by_cases e : b = a <;> cases bs <;> simp [single, find?, e]
      | cons c cs =>
        have := @ih bs (by simp)
        by_cases e : b = a <;> cases bs <;> simp_all [single, find?]

theorem find?_alter {t : Trie α} {key k : List Atom} {f : Option α → α} (h : key ≠ []) :
    (t.alter f key).find? k = if k = key then some (f (t.find? key)) else t.find? k := by
  induction t generalizing key k with
  | leaf => simp [alter, find?_single h, find?_leaf]
  | node label here below beside ihBelow ihBeside =>
    cases key with
    | nil => exact absurd rfl h
    | cons a rest =>
      cases k with
      | nil =>
        unfold alter
        split
        · split <;> simp [find?]
        · simp [find?]
      | cons b bs =>
        unfold alter
        split
        · rename_i ea
          subst ea
          cases rest with
          | nil => by_cases e : b = a <;> cases bs <;> simp_all [find?]
          | cons c cs =>
            have := @ihBelow (c :: cs) bs (by simp)
            by_cases e : b = a <;> cases bs <;> simp_all [find?]
        · rename_i ea
          have := @ihBeside (a :: rest) (b :: bs) (by simp)
          by_cases e : b = label
          · subst e
            have : ¬ b = a := fun h => ea h.symm
            simp [find?, this]
          · simp_all [find?]

end Trie

end JoinOrder
