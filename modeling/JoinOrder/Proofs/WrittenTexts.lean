import JoinOrder.Json.Writer
import Mathlib
/-!
Texts in JSON. What is written between two quotes is read as the same text. Only two halves of a
character that stand in a row, the high one first, become that character.
-/

namespace JoinOrder

namespace Text

/-- Two halves in a row that would be read as one character. -/
def hasJoint : List Nat → Bool
  | high :: low :: rest => (isHighHalf high && isLowHalf low) || hasJoint (low :: rest)
  | _ => false

/-- Whether JSON can carry a text: it is spelled as code points are, and has no joint. -/
def isCarried (s : String) : Bool :=
  (codePoints s.toList).flatMap spell == s.toList && !hasJoint (codePoints s.toList)

/-- Two halves that make a character together. -/
def halves : String := String.ofList (spell 0xd800 ++ spell 0xdc00)

/-- The character that they make. -/
def joined : String := String.ofList (spell 0x10000)

theorem codePoints_lt (cs : List Char) : ∀ n ∈ codePoints cs, n < 0x110000 := by
  have bound (c : Char) : c.toNat < 0x110000 := by
    have valid : c.toNat.isValidChar := c.valid
    unfold Nat.isValidChar at valid
    omega
  fun_induction codePoints cs with
  | case1 => simp
  | case2 c => simpa using bound c
  | case3 d rest ih =>
    intro n member
    rcases List.mem_cons.mp member with same | member
    · have := bound d
      omega
    · exact ih n member
  | case4 c d rest _ ih =>
    intro n member
    rcases List.mem_cons.mp member with rfl | member
    · exact bound c
    · exact ih n member

theorem eq_toNat_of_ofNat {n : Nat} {c : Char} (same : Char.ofNat n = c) (some : c.toNat ≠ 0) :
    n = c.toNat := by
  by_cases valid : n.isValidChar
  · rw [← same, toNat_ofNat valid]
  · rw [Char.ofNat, dif_neg valid] at same
    exact absurd (same ▸ rfl) some

end Text

namespace Json

open Text

section Texts

variable {n fuel : Nat} {read more rest : List Char}

theorem hexDigit?_digitChar : ∀ k : Fin 16, hexDigit? (Nat.digitChar k) = some k.val := by decide

theorem unit?_hexDigits (small : n < 0x10000) : unit? (hexDigits 4 n ++ rest) = some (n, rest) := by
  have digit (k : Nat) : hexDigit? (Nat.digitChar (k % 16)) = some (k % 16) :=
    hexDigit?_digitChar ⟨k % 16, Nat.mod_lt _ (by decide)⟩
  simp only [hexDigits, List.nil_append, List.cons_append, unit?, digit, Option.bind_eq_bind,
    Option.bind_some, pure, Option.some.injEq, Prod.mk.injEq, and_true]
  omega

/-- What comes behind a high half does not complete it. -/
def Incomplete (more : List Char) : Prop :=
  ∀ beyond, more = '\\' :: 'u' :: beyond →
    ∃ unit after, unit? beyond = some (unit, after) ∧ isLowHalf unit = false

theorem unicode?_unit (small : n < 0x10000) (apart : isHighHalf n = true → Incomplete more) :
    unicode? (hexDigits 4 n ++ more) = some (n, more) := by
  rw [unicode?, unit?_hexDigits small]
  dsimp only [Option.bind_eq_bind, Option.bind_some]
  by_cases high : isHighHalf n = true
  · rw [if_neg (by simp [high])]
    split
    · next beyond =>
      obtain ⟨unit, after, read, notLow⟩ := apart high beyond rfl
      rw [read]
      simp [notLow]
    · rfl
  · rw [if_pos (by simpa using high)]
    rfl

theorem unicode?_pair {high low : Nat} (isHigh : isHighHalf high = true) (isLow : isLowHalf low = true) :
    unicode? (hexDigits 4 high ++ (unitEscape low ++ more)) = some (joinHalves high low, more) := by
  have bounds : high < 0x10000 ∧ low < 0x10000 := by
    simp only [isHighHalf, isLowHalf, Bool.and_eq_true, decide_eq_true_eq] at isHigh isLow
    omega
  rw [unicode?, unit?_hexDigits bounds.1]
  dsimp only [Option.bind_eq_bind, Option.bind_some]
  rw [if_neg (by simp [isHigh])]
  show (unit? (hexDigits 4 low ++ more)).bind _ = _
  rw [unit?_hexDigits bounds.2]
  simp [isLow]

theorem halves (large : 0x10000 ≤ n) (bound : n < 0x110000) :
    isHighHalf (0xd800 + (n - 0x10000) / 0x400) = true ∧
      isLowHalf (0xdc00 + (n - 0x10000) % 0x400) = true ∧
      joinHalves (0xd800 + (n - 0x10000) / 0x400) (0xdc00 + (n - 0x10000) % 0x400) = n := by
  refine ⟨?_, ?_, ?_⟩
  · simp only [isHighHalf, Bool.and_eq_true, decide_eq_true_eq]
    omega
  · simp only [isLowHalf, Bool.and_eq_true, decide_eq_true_eq]
    omega
  · have joined (a b c d h l : Nat) : c + (a + h - a) * d + (b + l - b) = c + (h * d + l) := by
      rw [Nat.add_sub_cancel_left, Nat.add_sub_cancel_left, Nat.add_assoc]
    unfold joinHalves
    rw [joined, Nat.div_add_mod', Nat.add_sub_cancel' large]

theorem spell_ne_nil (n : Nat) : spell n ≠ [] := by
  unfold spell
  split <;> exact List.cons_ne_nil _ _

theorem escapeCodePoint_length_pos (n : Nat) : 0 < (escapeCodePoint true n).length := by
  refine List.length_pos_iff.mpr ?_
  unfold escapeCodePoint unicodeEscape unitEscape
  split
  · exact List.cons_ne_nil _ _
  · split
    · split <;> exact List.cons_ne_nil _ _
    · exact spell_ne_nil n

/-- One code point is read in one step. -/
theorem string?_codePoint (bound : n < 0x110000) (apart : isHighHalf n = true → Incomplete more) :
    string? (fuel + 1) read (escapeCodePoint true n ++ more) =
      string? fuel ((spell n).reverse ++ read) more := by
  unfold escapeCodePoint
  split
  · next letter escaped =>
    unfold escapeLetter? at escaped
    split at escaped
    -- Each letter stands for one known character, so both sides can be worked out.
    all_goals first
      | cases escaped
        next same =>
          obtain rfl := eq_toNat_of_ofNat same (by decide)
          rfl
      | cases escaped
  · next plain =>
    split
    · unfold unicodeEscape
      split
      · next small =>
        show (unicode? (hexDigits 4 n ++ more)).bind _ = _
        rw [unicode?_unit small apart]
        rfl
      · next large =>
        obtain ⟨isHigh, isLow, joined⟩ := halves (Nat.le_of_not_lt large) bound
        generalize 0xd800 + (n - 0x10000) / 0x400 = high at isHigh joined ⊢
        generalize 0xdc00 + (n - 0x10000) % 0x400 = low at isLow joined ⊢
        rw [List.append_assoc]
        show (unicode? (hexDigits 4 high ++ (unitEscape low ++ more))).bind _ = _
        rw [unicode?_pair isHigh isLow, joined]
        rfl
    · next printable =>
      have valid : n.isValidChar := .inl (by simp at printable; omega)
      have number := toNat_ofNat valid
      have single : spell n = [Char.ofNat n] := by
        rw [spell, if_neg]
        simp only [isPaired, Bool.and_eq_true, decide_eq_true_eq]
        simp at printable
        omega
      rw [single, List.singleton_append]
      have quote : Char.ofNat n ≠ '"' := fun same => by simp [same, escapeLetter?] at plain
      have slash : Char.ofNat n ≠ '\\' := fun same => by simp [same, escapeLetter?] at plain
      -- What is neither a quote nor a backslash is taken as it is.
      rw [string?.eq_def]
      split <;> simp_all

/-- What is written for a code point that is no low half does not complete a high half. -/
theorem incomplete_codePoint (bound : n < 0x110000) (notLow : isLowHalf n = false) :
    Incomplete (escapeCodePoint true n ++ more) := by
  intro beyond written
  unfold escapeCodePoint at written
  split at written
  · next letter escaped =>
    obtain ⟨rfl, -⟩ : letter = 'u' ∧ more = beyond := by simpa using written
    unfold escapeLetter? at escaped
    split at escaped <;> simp at escaped
  · next plain =>
    split at written
    · unfold unicodeEscape at written
      split at written
      · next small =>
        obtain rfl : hexDigits 4 n ++ more = beyond := by simpa [unitEscape] using written
        exact ⟨n, more, unit?_hexDigits small, notLow⟩
      · next large =>
        obtain ⟨isHigh, -, -⟩ := halves (Nat.le_of_not_lt large) bound
        generalize 0xd800 + (n - 0x10000) / 0x400 = high at isHigh written
        generalize 0xdc00 + (n - 0x10000) % 0x400 = low at written
        simp only [isHighHalf, Bool.and_eq_true, decide_eq_true_eq] at isHigh
        obtain rfl : hexDigits 4 high ++ (unitEscape low ++ more) = beyond := by
          simpa [unitEscape] using written
        refine ⟨high, _, unit?_hexDigits (by omega), ?_⟩
        simp only [isLowHalf, Bool.and_eq_false_iff, decide_eq_false_iff_not]
        omega
    · next printable =>
      have low : n < 127 := by simp at printable; omega
      have slash : Char.ofNat n = '\\' := by
        have single : spell n = [Char.ofNat n] := by
          rw [spell, if_neg]
          simp only [isPaired, Bool.and_eq_true, decide_eq_true_eq]
          omega
        rw [single] at written
        exact (List.cons.inj written).1
      simp [slash, escapeLetter?] at plain

/-- All code points up to the quote are read one by one. -/
theorem string?_append {ns : List Nat} (bound : ∀ n ∈ ns, n < 0x110000) (apart : hasJoint ns = false)
    (enough : (ns.flatMap (escapeCodePoint true)).length < fuel) :
    string? fuel read (ns.flatMap (escapeCodePoint true) ++ '"' :: rest) =
      some (String.ofList (read.reverse ++ ns.flatMap spell), rest) := by
  induction ns generalizing fuel read with
  | nil =>
    obtain ⟨fuel, rfl⟩ := Nat.exists_eq_add_one.mpr enough
    rw [List.flatMap_nil, List.flatMap_nil, List.append_nil]
    rfl
  | cons n ns ih =>
    have here := bound n List.mem_cons_self
    have there := fun m member => bound m (List.mem_cons_of_mem n member)
    have some := escapeCodePoint_length_pos n
    obtain ⟨fuel, rfl⟩ := Nat.exists_eq_add_one.mpr (show 0 < fuel by omega)
    rw [List.flatMap_cons, List.length_append] at enough
    -- Only the next code point could complete a high half, and then there would be a joint.
    have behind : isHighHalf n = true →
        Incomplete (ns.flatMap (escapeCodePoint true) ++ '"' :: rest) := fun high => by
      cases ns with
      | nil => exact fun beyond written => by simp at written
      | cons m ns =>
        rw [List.flatMap_cons, List.append_assoc]
        refine incomplete_codePoint (there m List.mem_cons_self) ?_
        have none := (Bool.or_eq_false_iff.mp apart).1
        simpa [high] using none
    have others : hasJoint ns = false := by
      cases ns with
      | nil => rfl
      | cons m ns => exact (Bool.or_eq_false_iff.mp apart).2
    rw [List.flatMap_cons, List.append_assoc, string?_codePoint here behind, ih there others (by omega),
      List.reverse_append, List.reverse_reverse, List.append_assoc, List.flatMap_cons]

theorem toList_writeText (s : String) : (writeText true s).toList =
    '"' :: ((codePoints s.toList).flatMap (escapeCodePoint true) ++ ['"']) := String.toList_ofList

/-- What is written for a text is read as that text. -/
theorem string?_writeText {s : String} (carried : isCarried s = true)
    (enough : ((codePoints s.toList).flatMap (escapeCodePoint true)).length < fuel) :
    string? fuel [] ((codePoints s.toList).flatMap (escapeCodePoint true) ++ '"' :: rest) =
      some (s, rest) := by
  obtain ⟨spelled, apart⟩ := Bool.and_eq_true_iff.mp carried
  rw [string?_append (codePoints_lt _) (by simpa using apart) enough, List.reverse_nil,
    List.nil_append, beq_iff_eq.mp spelled, String.ofList_toList]

end Texts

end Json

end JoinOrder
