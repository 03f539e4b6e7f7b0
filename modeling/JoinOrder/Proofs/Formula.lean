import JoinOrder.Proofs.BestPlan
/-!
Cost models whose estimates follow a formula in the tuples and the attributes of both inputs.

A formula is monotone if it does not matter which input is the left one, and if inputs with more
tuples never make a smaller join. This has to hold of some tuple counts only, as long as relations
have such counts and joins do not leave them.
-/

namespace JoinOrder

/-- How many tuples a join has, by the tuples and the attributes of its inputs. -/
def Formula := Int → Attributes → Int → Attributes → Int

namespace Formula

def estimate (f : Formula) (left right : Plan) : Int :=
  f left.estimate left.attributes right.estimate right.attributes

structure IsMonotone (f : Formula) (counts : Int → Prop) : Prop where
  relations : ∀ n, 0 ≤ n → counts n
  joins : ∀ m A n B, counts m → counts n → counts (f m A n B)
  symm : ∀ m A n B, counts m → counts n → f m A n B = f n B m A
  mono : ∀ m m' A n B, counts m → counts m' → counts n → m ≤ m' → f m A n B ≤ f m' A n B

/-- More tuples on either side never make a smaller join. It may matter which input is the left one. -/
structure IsRising (f : Formula) (counts : Int → Prop) : Prop where
  relations : ∀ n, 0 ≤ n → counts n
  joins : ∀ m A n B, counts m → counts n → counts (f m A n B)
  left : ∀ m m' A n B, counts m → counts m' → counts n → m ≤ m' → f m A n B ≤ f m' A n B
  right : ∀ m A n n' B, counts m → counts n → counts n' → n ≤ n' → f m A n B ≤ f m A n' B

theorem IsMonotone.le {f : Formula} {counts : Int → Prop} (h : f.IsMonotone counts)
    {m m' n n' : Int} {A B : Attributes} (hm : counts m) (hm' : counts m') (hn : counts n)
    (hn' : counts n') (left : m ≤ m') (right : n ≤ n') : f m A n B ≤ f m' A n' B :=
  calc f m A n B ≤ f m' A n B := h.mono m m' A n B hm hm' hn left
    _ = f n B m' A := h.symm m' A n B hm' hn
    _ ≤ f n' B m' A := h.mono n n' B m' A hn hn' hm' right
    _ = f m' A n' B := h.symm n' B m' A hn' hm'

theorem IsMonotone.rising {f : Formula} {counts : Int → Prop} (h : f.IsMonotone counts) :
    f.IsRising counts where
  relations := h.relations
  joins := h.joins
  left := h.mono
  right _ _ _ _ _ hm hn hn' le := h.le hm hm hn hn' le_rfl le

theorem IsRising.le {f : Formula} {counts : Int → Prop} (h : f.IsRising counts) {m m' n n' : Int}
    {A B : Attributes} (hm : counts m) (hm' : counts m') (hn : counts n) (hn' : counts n')
    (left : m ≤ m') (right : n ≤ n') : f m A n B ≤ f m' A n' B :=
  (h.left m m' A n B hm hm' hn left).trans (h.right m' A n n' B hm' hn hn' right)

end Formula

namespace CostModel.Known

def formula : Known → Formula
  | .sharedAttributes => fun m A n B => (m * n) >>> A.shared B
  | .crossProduct => fun m _ n _ => m * n

theorem estimates_formula {machine : Machine} (known : Known) :
    (known.model machine).Estimates known.formula.estimate := by
  cases known with
  | sharedAttributes => exact estimates_sharedAttributes
  | crossProduct => exact estimates_crossProduct

theorem shared_comm (A B : Attributes) : A.shared B = B.shared A := IdSet.size_inter_comm A B

/-- Rounded or not, counts that are not negative make larger products the larger they are. -/
theorem monotone_formula (known : Known) : known.formula.IsMonotone (0 ≤ ·) := by
  cases known with
  | sharedAttributes =>
    constructor
    · intro n low
      exact low
    · intro m A n B hm hn
      simp only [formula, Int.shiftRight_eq_div_pow]
      exact Int.ediv_nonneg (Int.mul_nonneg hm hn) (Int.natCast_nonneg _)
    · intro m A n B _ _
      simp only [formula, Int.mul_comm m n, shared_comm A B]
    · intro m m' A n B _ _ hn le
      simp only [formula, Int.shiftRight_eq_div_pow]
      exact Int.ediv_le_ediv (Int.natCast_pos.mpr (Nat.two_pow_pos _))
        (Int.mul_le_mul_of_nonneg_right le hn)
  | crossProduct =>
    constructor
    · intro n low
      exact low
    · intro m A n B hm hn
      exact Int.mul_nonneg hm hn
    · intro m A n B _ _
      exact Int.mul_comm m n
    · intro m m' A n B _ _ hn le
      exact Int.mul_le_mul_of_nonneg_right le hn

end CostModel.Known

end JoinOrder
