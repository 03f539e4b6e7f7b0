import JoinOrder.Proofs.Frames
import JoinOrder.Proofs.Halvings
import JoinOrder.Proofs.Messages
import JoinOrder.Proofs.Places
import JoinOrder.Proofs.WrittenScalars
import JoinOrder.Text.Blank
/-!
The text of a plan over several lines. It has one line for each place, in the order of nodes, and says
of a plan all that can be seen of it: only the line of a relation has a bracket in it, so the lines of a
subtree are never those of another one with something behind them.
-/

namespace JoinOrder

open List (Forall₂)

namespace Text

variable {c : Char} {cs line : List Char} {others : List (List Char)}

theorem isBreak_of_isAlphanum (plain : c.isAlphanum = true) : isBreak c = false := by
  simp only [Char.isAlphanum, Char.isAlpha, Char.isUpper, Char.isLower, Char.isDigit, Bool.or_eq_true,
    Bool.and_eq_true, decide_eq_true_eq, UInt32.le_iff_toNat_le, ge_iff_le] at plain
  change ((65 ≤ c.toNat ∧ c.toNat ≤ 90) ∨ (97 ≤ c.toNat ∧ c.toNat ≤ 122)) ∨
    (48 ≤ c.toNat ∧ c.toNat ≤ 57) at plain
  simp only [isBreak, breaks, List.contains_eq_mem, decide_eq_false_iff_not, List.mem_cons,
    List.not_mem_nil, or_false]
  omega

theorem isBreak_of_all (s : String) (none : s.toList.all (!isBreak ·) = true) :
    ∀ c ∈ s.toList, isBreak c = false := fun c member =>
  (Bool.not_eq_true' _).mp (List.all_eq_true.mp none c member)

theorem not_return (inside : isBreak c = false) : c ≠ '\r' := by
  rintro rfl
  exact absurd inside (by decide)

theorem lines_singleton (inside : isBreak c = false) : lines [c] = [[c]] := by
  rw [lines.eq_4 c [] (fun _ is => absurd is (not_return inside)) nofun, if_neg (by simp [inside])]
  rfl

/-- A character that is no break belongs to the line that goes on behind it. -/
theorem lines_cons (inside : isBreak c = false) (below : lines cs = line :: others) :
    lines (c :: cs) = (c :: line) :: others := by
  cases cs with
  | nil => exact nomatch below
  | cons head tail =>
    rw [lines.eq_3 c head tail line others (fun _ is => absurd is (not_return inside)) below,
      if_neg (by simp [inside])]

theorem lines_append_newline (inside : ∀ c ∈ cs, isBreak c = false) (rest : List Char) :
    lines (cs ++ '\n' :: rest) = (cs ++ ['\n']) :: lines rest := by
  induction cs with
  | nil => rfl
  | cons c cs ih =>
    exact lines_cons (inside c List.mem_cons_self)
      (ih fun d member => inside d (List.mem_cons_of_mem c member))

theorem lines_of_no_break (inside : ∀ c ∈ cs, isBreak c = false) (some : cs ≠ []) :
    lines cs = [cs] := by
  induction cs with
  | nil => exact absurd rfl some
  | cons c cs ih =>
    have first := inside c List.mem_cons_self
    cases cs with
    | nil => exact lines_singleton first
    | cons d cs =>
      exact lines_cons first (ih (fun e member => inside e (List.mem_cons_of_mem c member)) (by simp))

/-- Lines that are put together with newlines are the lines of the whole. -/
theorem splitLines_intercalate {ls : List String} (inside : ∀ l ∈ ls, ∀ c ∈ l.toList, isBreak c = false)
    (some : ∀ l ∈ ls, l.toList ≠ []) : splitLines ("\n".intercalate ls) = ls := by
  have kept (l : String) (member : l ∈ ls) : l.toList.filter (!isBreak ·) = l.toList :=
    List.filter_eq_self.mpr fun c here => by rw [inside l member c here]; rfl
  rw [splitLines, String.toList_intercalate, show "\n".toList = ['\n'] from rfl]
  induction ls with
  | nil => rfl
  | cons l ls ih =>
    rw [List.forall_mem_cons] at inside some kept
    have below := ih inside.2 some.2 kept.2
    cases ls with
    | nil =>
      rw [List.map_singleton, List.intercalate_singleton, lines_of_no_break inside.1 some.1,
        List.map_singleton, kept.1, String.ofList_toList]
    | cons m ls =>
      rw [List.map_cons, List.intercalate_cons_of_ne_nil (by simp), List.append_assoc,
        List.singleton_append, lines_append_newline inside.1, List.map_cons, below, List.filter_append,
        kept.1, show List.filter (!isBreak ·) ['\n'] = [] from rfl, List.append_nil,
        String.ofList_toList]

end Text

namespace Value

variable {a b v : Value} {m n : Int}

theorem isDigit_of_mem_repr (k : Nat) : ∀ c ∈ k.repr.toList, c.isDigit = true := fun c member => by
  rw [Nat.toList_repr] at member
  exact Nat.isDigit_of_mem_toDigits (by decide) (by decide) member

theorem digits_toString (n : Int) : ∀ c ∈ (toString n).toList, c = '-' ∨ c.isDigit = true := by
  intro c member
  change c ∈ n.repr.toList at member
  rw [Int.repr_eq_if] at member
  split at member
  · exact .inr (isDigit_of_mem_repr _ c member)
  · rw [String.toList_append] at member
    exact (List.mem_cons.mp member).imp id (isDigit_of_mem_repr _ c)

theorem eq_of_int? (is : v.int? = some n) : v = .int n ∨ ∃ b, v = .bool b := by
  rcases v with (_ | b | k | _ | _) | _ | _
  case scalar.bool => exact .inr ⟨b, rfl⟩
  case scalar.int => exact .inl (congrArg int (Option.some.inj is))
  all_goals exact nomatch is

/-- Integers are written in digits, and truth values in letters. -/
theorem plain_of_int? (is : v.int? = some n) : ∀ c ∈ v.shown.toList, c = '-' ∨ c.isAlphanum = true := by
  rcases eq_of_int? is with rfl | ⟨_ | _, rfl⟩
  · intro c member
    exact (digits_toString n c member).imp id fun digit => by rw [Char.isAlphanum, digit, Bool.or_true]
  · change ∀ c ∈ "False".toList, _
    simp
  · change ∀ c ∈ "True".toList, _
    simp

theorem shown_bool_ne_int (b : Bool) (n : Int) : (bool b).shown ≠ (int n).shown := by
  intro same
  have letter : 'e' ∈ (bool b).shown.toList := by cases b <;> decide
  rw [same] at letter
  rcases digits_toString n 'e' letter with minus | digit
  · exact absurd minus (by decide)
  · exact absurd digit (by decide)

/-- What is written for an integer tells which it is. -/
theorem eq_of_shown_eq (ha : a.int? = some m) (hb : b.int? = some n) (same : a.shown = b.shown) :
    a = b := by
  rcases eq_of_int? ha with rfl | ⟨a, rfl⟩ <;> rcases eq_of_int? hb with rfl | ⟨b, rfl⟩
  · exact congrArg int (Int.repr_inj.mp same)
  · exact absurd same.symm (shown_bool_ne_int b m)
  · exact absurd same (shown_bool_ne_int a n)
  · have apart : (bool false).shown ≠ (bool true).shown := by decide
    cases a <;> cases b
    · rfl
    · exact absurd same apart
    · exact absurd same.symm apart
    · rfl

end Value

namespace Plan

variable {p q left right : Plan} {r : Relation} {tuples : Value} {indentation : Nat} {place : Place}
  {ls ms : List String} {text : String}

/-- What the line of a node says behind its margin. -/
def caption : Plan → Except Error String
  | .scan r _ => r.shown
  | .join _ _ tuples => do return "⨝ (" ++ (← tuples.written) ++ ")"

/-- A line shows the node at a place: behind two spaces for each step down and an arrow, unless it is the
root. -/
def HasLine (p : Plan) (place : Place) (line : String) : Prop :=
  ∃ node text, p.at? place = some node ∧ node.caption = .ok text ∧
    line.toList = (if place = [] then [] else List.replicate (2 * place.length) ' ' ++ "<- ".toList) ++
      text.toList

/-- Two plans of one shape, with the same text for the relations at each leaf and the same tuples at each
join. -/
inductive Alike : Plan → Plan → Prop where
  | scan {r s : Relation} {m n : Value} : r.shown = s.shown → Alike (.scan r m) (.scan s n)
  | join {l l' r r' : Plan} {tuples : Value} : Alike l l' → Alike r r' →
      Alike (.join l r tuples) (.join l' r' tuples)

/-- Every join has an integer or a truth value for its tuples. -/
def HasIntegers (p : Plan) : Prop := ∀ join ∈ p.joins, ∃ n, join.tuples.int? = some n

/-- No character of some kind stands in the texts of relations. -/
def IsFree (p : Plan) (kind : Char → Bool) : Prop :=
  ∀ r ∈ p.leaves, ∀ text, r.shown = .ok text → ∀ c ∈ text.toList, kind c = false

instance : Decidable p.HasIntegers :=
  decidable_of_iff (∀ join ∈ p.joins, join.tuples.int?.isSome = true)
    (forall₂_congr fun _ _ => Option.isSome_iff_exists)

instance (kind : Char → Bool) : Decidable (p.IsFree kind) :=
  decidable_of_iff (∀ r ∈ p.leaves, r.shown.toOption.all (·.toList.all (!kind ·)) = true)
    (forall₂_congr fun r _ => by cases r.shown <;> simp [Except.toOption])

theorem hasIntegers_join : (join left right tuples).HasIntegers ↔
    left.HasIntegers ∧ right.HasIntegers ∧ ∃ n, tuples.int? = some n := by
  unfold HasIntegers
  rw [joins, List.forall_mem_append, List.forall_mem_append, List.forall_mem_singleton, and_assoc]
  rfl

/-! ### One line for each place -/

theorem toList_margin (n : Nat) : (margin n).toList =
    if n = 0 then [] else List.replicate n ' ' ++ "<- ".toList := by
  rw [margin, String.toList_append, Json.toList_pushn]
  split
  case isTrue zero => rw [zero]; rfl
  case isFalse => rfl

theorem lines_scan_eq_ok (ok : (scan r tuples).lines indentation = .ok ls) :
    ∃ text, r.shown = .ok text ∧ ls = [margin indentation ++ text] := by
  obtain ⟨text, shown, same⟩ := ok_of_bind ok
  exact ⟨text, shown, (Except.ok.inj same).symm⟩

theorem lines_join_eq_ok (ok : (join left right tuples).lines indentation = .ok ls) :
    ∃ number lefts rights, tuples.written = .ok number ∧ left.lines (indentation + 2) = .ok lefts ∧
      right.lines (indentation + 2) = .ok rights ∧
      ls = (margin indentation ++ ("⨝ (" ++ number ++ ")")) :: (lefts ++ rights) := by
  obtain ⟨number, written, ok⟩ := ok_of_bind ok
  obtain ⟨lefts, fromLeft, ok⟩ := ok_of_bind ok
  obtain ⟨rights, fromRight, same⟩ := ok_of_bind ok
  refine ⟨number, lefts, rights, written, fromLeft, fromRight, ?_⟩
  rw [← Except.ok.inj same, String.append_assoc, String.append_assoc, String.append_assoc]

/-- Every line is at a place, further in for each step down. -/
theorem lines_places (ok : p.lines indentation = .ok ls) :
    Forall₂ (fun place line => ∃ node text, p.at? place = some node ∧ node.caption = .ok text ∧
      line = margin (indentation + 2 * place.length) ++ text) p.placesDown ls := by
  induction p generalizing indentation ls with
  | scan r tuples =>
    obtain ⟨text, shown, rfl⟩ := lines_scan_eq_ok ok
    exact .cons ⟨.scan r tuples, text, rfl, shown, rfl⟩ .nil
  | join left right tuples ihl ihr =>
    obtain ⟨number, lefts, rights, written, fromLeft, fromRight, rfl⟩ := lines_join_eq_ok ok
    have own : (join left right tuples).caption = .ok ("⨝ (" ++ number ++ ")") := by
      rw [caption, written]
      rfl
    have further (line : String) (length : Nat) (text : String)
        (is : line = margin (indentation + 2 + 2 * length) ++ text) :
        line = margin (indentation + 2 * (length + 1)) ++ text := by
      rw [is, Nat.mul_add, Nat.mul_one, Nat.add_assoc, Nat.add_comm 2]
    refine .cons ⟨_, _, rfl, own, rfl⟩ (List.rel_append ?_ ?_)
    · refine List.forall₂_map_left_iff.mpr ((ihl fromLeft).imp ?_)
      rintro place line ⟨node, text, here, captioned, is⟩
      exact ⟨node, text, here, captioned, further line place.length text is⟩
    · refine List.forall₂_map_left_iff.mpr ((ihr fromRight).imp ?_)
      rintro place line ⟨node, text, here, captioned, is⟩
      exact ⟨node, text, here, captioned, further line place.length text is⟩

theorem lines_hasLine (ok : p.lines 0 = .ok ls) : Forall₂ p.HasLine p.placesDown ls := by
  refine (lines_places ok).imp ?_
  rintro place line ⟨node, text, here, captioned, rfl⟩
  refine ⟨node, text, here, captioned, ?_⟩
  rw [String.toList_append, Nat.zero_add, toList_margin]
  simp only [Nat.mul_eq_zero, List.length_eq_zero_iff, OfNat.ofNat_ne_zero, false_or]

/-- There are lines if there is a text for every relation and every number of tuples. -/
theorem lines_isOk_iff : (∃ ls, p.lines indentation = .ok ls) ↔
    (∀ r ∈ p.leaves, ∃ text, r.shown = .ok text) ∧ ∀ join ∈ p.joins, join.tuples.isWritable = true := by
  induction p generalizing indentation with
  | scan r tuples =>
    rw [leaves, joins, List.forall_mem_singleton, lines]
    cases r.shown with
    | error e => exact iff_of_false (by rintro ⟨_, ⟨⟩⟩) (by rintro ⟨⟨_, ⟨⟩⟩, _⟩)
    | ok text => exact iff_of_true ⟨_, rfl⟩ ⟨⟨text, rfl⟩, fun _ none => absurd none List.not_mem_nil⟩
  | join left right tuples ihl ihr =>
    have parts : (∃ ls, (join left right tuples).lines indentation = .ok ls) ↔
        (∃ number, tuples.written = .ok number) ∧ (∃ ls, left.lines (indentation + 2) = .ok ls) ∧
          ∃ ls, right.lines (indentation + 2) = .ok ls := by
      constructor
      · rintro ⟨ls, ok⟩
        obtain ⟨number, lefts, rights, written, fromLeft, fromRight, -⟩ := lines_join_eq_ok ok
        exact ⟨⟨number, written⟩, ⟨lefts, fromLeft⟩, rights, fromRight⟩
      · rintro ⟨⟨number, written⟩, ⟨lefts, fromLeft⟩, rights, fromRight⟩
        refine ⟨(margin indentation ++ "⨝ (" ++ number ++ ")") :: (lefts ++ rights), ?_⟩
        simp only [lines, written, fromLeft, fromRight, bind, Except.bind]
        rfl
    rw [parts, ihl, ihr, Value.written_isOk_iff, leaves, joins, List.forall_mem_append,
      List.forall_mem_append, List.forall_mem_append, List.forall_mem_singleton]
    change tuples.isWritable = true ∧ _ ↔ _ ∧ _ ∧ tuples.isWritable = true
    tauto

/-! ### Back from the lines -/

/-- The line of a join has no bracket and no break in it. -/
theorem plain_join {v : Value} {n : Int} {number : String} (written : v.written = .ok number)
    (is : v.int? = some n) :
    ∀ c ∈ ("⨝ (" ++ number ++ ")").toList, c ≠ '[' ∧ Text.isBreak c = false := by
  intro c member
  rw [Value.eq_shown_of_written written, String.toList_append, String.toList_append] at member
  rcases List.mem_append.mp member with front | closing
  · rcases List.mem_append.mp front with opening | inside
    · refine ⟨?_, Text.isBreak_of_all "⨝ (" (by decide) c opening⟩
      rintro rfl
      exact absurd opening (by decide)
    · rcases Value.plain_of_int? is c inside with rfl | plain
      · decide
      · refine ⟨?_, Text.isBreak_of_isAlphanum plain⟩
        rintro rfl
        exact absurd plain (by decide)
  · rw [List.mem_singleton.mp closing]
    decide

theorem shown_ne_join {v : Value} {n : Int} {number : String} (shown : r.shown = .ok text)
    (written : v.written = .ok number) (is : v.int? = some n) : text ≠ "⨝ (" ++ number ++ ")" := by
  rintro rfl
  exact (plain_join written is '[' (Relation.bracket_mem_shown shown)).1 rfl

/-- The lines of a plan are no beginning of the lines of another one: whatever comes behind, they tell
where they end and all that the plan shows. -/
theorem alike_of_lines_append (integers : p.HasIntegers) (others : q.HasIntegers)
    (ok : p.lines indentation = .ok ls) (ok' : q.lines indentation = .ok ms) {rest rest' : List String}
    (same : ls ++ rest = ms ++ rest') : Alike p q ∧ rest = rest' := by
  induction p generalizing q indentation ls ms rest rest' with
  | scan r tuples =>
    obtain ⟨text, shown, rfl⟩ := lines_scan_eq_ok ok
    cases q with
    | scan s tuples' =>
      obtain ⟨text', shown', rfl⟩ := lines_scan_eq_ok ok'
      obtain ⟨first, behind⟩ := List.cons.inj same
      obtain rfl := (String.append_right_inj _).mp first
      exact ⟨.scan (shown.trans shown'.symm), behind⟩
    | join left' right' tuples' =>
      obtain ⟨number, _, _, written, -, -, rfl⟩ := lines_join_eq_ok ok'
      obtain ⟨-, -, n, is⟩ := hasIntegers_join.mp others
      have first := (String.append_right_inj _).mp (List.cons.inj same).1
      exact absurd first (shown_ne_join shown written is)
  | join left right tuples ihl ihr =>
    obtain ⟨number, lefts, rights, written, fromLeft, fromRight, rfl⟩ := lines_join_eq_ok ok
    obtain ⟨integersLeft, integersRight, n, is⟩ := hasIntegers_join.mp integers
    cases q with
    | scan s tuples' =>
      obtain ⟨text, shown, rfl⟩ := lines_scan_eq_ok ok'
      have first := (String.append_right_inj _).mp (List.cons.inj same).1
      exact absurd first.symm (shown_ne_join shown written is)
    | join left' right' tuples' =>
      obtain ⟨number', lefts', rights', written', fromLeft', fromRight', rfl⟩ := lines_join_eq_ok ok'
      obtain ⟨othersLeft, othersRight, n', is'⟩ := hasIntegers_join.mp others
      rw [List.cons_append, List.cons_append, List.append_assoc, List.append_assoc] at same
      obtain ⟨first, behind⟩ := List.cons.inj same
      have number_eq : number = number' := by
        have inner := (String.append_right_inj _).mp first
        exact (String.append_right_inj _).mp ((String.append_left_inj _).mp inner)
      rw [Value.eq_shown_of_written written, Value.eq_shown_of_written written'] at number_eq
      obtain rfl := Value.eq_of_shown_eq is is' number_eq
      obtain ⟨alikeLeft, behind⟩ := ihl integersLeft othersLeft fromLeft fromLeft' behind
      obtain ⟨alikeRight, behind⟩ := ihr integersRight othersRight fromRight fromRight' behind
      exact ⟨.join alikeLeft alikeRight, behind⟩

theorem Alike.lines_eq (alike : Alike p q) : p.lines indentation = q.lines indentation := by
  induction alike generalizing indentation with
  | scan shown => rw [lines, lines, shown]
  | join _ _ ihl ihr => rw [lines, lines, ihl, ihr]

/-! ### Lines of the whole text -/

/-- Of all that stands in a line, only the text of a relation may have breaks in it. -/
theorem mem_caption {node : Plan} (integers : p.HasIntegers) (here : p.at? place = some node)
    (captioned : node.caption = .ok text) :
    (∃ r ∈ p.leaves, r.shown = .ok text) ∨ ∀ c ∈ text.toList, Text.isBreak c = false := by
  induction p generalizing place with
  | scan r tuples =>
    cases place with
    | nil =>
      cases here
      exact .inl ⟨r, List.mem_singleton_self r, captioned⟩
    | cons side rest => exact nomatch here
  | join left right tuples ihl ihr =>
    obtain ⟨integersLeft, integersRight, n, is⟩ := hasIntegers_join.mp integers
    cases place with
    | nil =>
      cases here
      obtain ⟨number, written, same⟩ := ok_of_bind captioned
      cases same
      exact .inr fun c member => (plain_join written is c member).2
    | cons side rest =>
      cases side with
      | left =>
        exact (ihl integersLeft here).imp (fun ⟨r, member, shown⟩ =>
          ⟨r, List.mem_append_left _ member, shown⟩) id
      | right =>
        exact (ihr integersRight here).imp (fun ⟨r, member, shown⟩ =>
          ⟨r, List.mem_append_right _ member, shown⟩) id

theorem caption_ne_nil {node : Plan} (captioned : node.caption = .ok text) : text.toList ≠ [] := by
  cases node with
  | scan r tuples => exact List.ne_nil_of_mem (Relation.bracket_mem_shown captioned)
  | join left right tuples =>
    obtain ⟨number, -, same⟩ := ok_of_bind captioned
    cases same
    rw [String.toList_append, String.toList_append]
    simp

theorem mem_line {line : String} (integers : p.HasIntegers) (shows : p.HasLine place line) :
    ∀ c ∈ line.toList, (∃ r ∈ p.leaves, ∃ text, r.shown = .ok text ∧ c ∈ text.toList) ∨
      Text.isBreak c = false := by
  obtain ⟨node, text, here, captioned, is⟩ := shows
  intro c member
  rw [is] at member
  rcases List.mem_append.mp member with front | inside
  · right
    split at front
    case isTrue => exact absurd front List.not_mem_nil
    case isFalse =>
      rcases List.mem_append.mp front with space | arrow
      · rw [List.eq_of_mem_replicate space]
        rfl
      · exact Text.isBreak_of_all "<- " (by decide) c arrow
  · refine (mem_caption integers here captioned).imp ?_ fun none => none c inside
    exact fun ⟨r, leaf, shown⟩ => ⟨r, leaf, text, shown, inside⟩

theorem inspect_eq_ok (ok : p.inspect = .ok text) :
    ∃ ls, p.lines 0 = .ok ls ∧ text = "\n".intercalate ls := by
  obtain ⟨ls, lines, same⟩ := ok_of_bind ok
  exact ⟨ls, lines, (Except.ok.inj same).symm⟩

theorem ne_nil_of_lines (ok : p.lines indentation = .ok ls) : ls ≠ [] := by
  cases p with
  | scan r tuples =>
    obtain ⟨text, -, rfl⟩ := lines_scan_eq_ok ok
    exact List.cons_ne_nil _ _
  | join left right tuples =>
    obtain ⟨number, lefts, rights, -, -, -, rfl⟩ := lines_join_eq_ok ok
    exact List.cons_ne_nil _ _

/-- The lines of a text that no relation breaks are those of the plan. -/
theorem splitOn_inspect (integers : p.HasIntegers) (free : p.IsFree (· == '\n'))
    (ok : p.lines 0 = .ok ls) : ("\n".intercalate ls).toList.splitOn '\n' = ls.map String.toList := by
  rw [String.toList_intercalate]
  refine List.splitOn_intercalate '\n' ?_ (by simp [ne_nil_of_lines ok])
  intro characters member
  obtain ⟨line, inside, rfl⟩ := List.mem_map.mp member
  obtain ⟨place, -, shows⟩ := exists_of_forall₂ (lines_hasLine ok) line inside
  intro newline
  rcases mem_line integers shows '\n' newline with ⟨r, leaf, text, shown, inside⟩ | none
  · exact absurd (free r leaf text shown '\n' inside) (by decide)
  · exact absurd none (by decide)

theorem splitLines_inspect (integers : p.HasIntegers) (free : p.IsFree Text.isBreak)
    (ok : p.lines 0 = .ok ls) : Text.splitLines ("\n".intercalate ls) = ls := by
  refine Text.splitLines_intercalate (fun line member c inside => ?_) fun line member => ?_
  · obtain ⟨place, -, shows⟩ := exists_of_forall₂ (lines_hasLine ok) line member
    rcases mem_line integers shows c inside with ⟨r, leaf, text, shown, inside⟩ | none
    · exact free r leaf text shown c inside
    · exact none
  · obtain ⟨place, -, node, text, -, captioned, is⟩ := exists_of_forall₂ (lines_hasLine ok) line member
    rw [is]
    exact List.append_ne_nil_of_right_ne_nil _ (caption_ne_nil captioned)

theorem inspect_isOk_iff (integers : p.HasIntegers) : (∃ text, p.inspect = .ok text) ↔
    (∀ r ∈ p.leaves, ∃ text, r.shown = .ok text) ∧
      ∀ join ∈ p.joins, ∀ n, join.tuples.int? = some n → n.natAbs < Value.digitEnd := by
  have listed : (∃ text, p.inspect = .ok text) ↔ ∃ ls, p.lines 0 = .ok ls := by
    refine ⟨fun ⟨text, ok⟩ => ?_, fun ⟨ls, ok⟩ => ⟨"\n".intercalate ls, by rw [inspect, ok]; rfl⟩⟩
    obtain ⟨ls, ok, -⟩ := inspect_eq_ok ok
    exact ⟨ls, ok⟩
  rw [listed, lines_isOk_iff]
  refine and_congr_right fun _ => forall₂_congr fun join member => ?_
  obtain ⟨n, is⟩ := integers join member
  simp [Value.isWritable, is]

/-- The text of a plan tells all that it shows. There is one if no number has too many digits, and then
two plans have the same one just if they are alike; its lines are those of the nodes in their order. -/
theorem inspect_lossless (integers : p.HasIntegers) (others : q.HasIntegers)
    (free : p.IsFree (· == '\n')) (freeOthers : q.IsFree (· == '\n')) :
    ((∃ text, p.inspect = .ok text) ↔ (∀ r ∈ p.leaves, ∃ text, r.shown = .ok text) ∧
      ∀ join ∈ p.joins, ∀ n, join.tuples.int? = some n → n.natAbs < Value.digitEnd) ∧
    ∀ text, p.inspect = .ok text →
      (q.inspect = .ok text ↔ Alike p q) ∧
      ∃ ls places, text.toList.splitOn '\n' = ls.map String.toList ∧
        (p.IsFree Text.isBreak → Text.splitLines text = ls) ∧
        p.ListsAt (fun _ => true) p.nodes places ∧ Forall₂ p.HasLine places ls := by
  refine ⟨inspect_isOk_iff integers, fun text ok => ?_⟩
  obtain ⟨ls, listed, rfl⟩ := inspect_eq_ok ok
  refine ⟨⟨fun same => ?_, fun alike => ?_⟩, ls, p.placesDown, splitOn_inspect integers free listed,
    fun none => splitLines_inspect integers none listed, p.listsAt_nodes, lines_hasLine listed⟩
  · obtain ⟨ms, listed', is⟩ := inspect_eq_ok same
    have split := splitOn_inspect integers free listed
    rw [is, splitOn_inspect others freeOthers listed'] at split
    have same : ls = ms := List.map_injective_iff.mpr (fun _ _ => String.toList_injective) split.symm
    exact (alike_of_lines_append integers others listed listed' (congrArg (· ++ []) same)).1
  · rw [← ok, inspect, inspect, alike.lines_eq]

section Examples

open Problem (relationWith)

/-- Names that look like the beginning of a line. -/
def arrows (first : Int) : Plan :=
  .join (.join (.ofRelation (relationWith first "  <- ⨝ (6)" 3 []))
      (.ofRelation (relationWith (first + 1) "B" 2 ["x"])) (.int 6))
    (.ofRelation (relationWith (first + 2) "⨝ (12)" 2 [])) (.int 12)

theorem inspect_arrows : (arrows 1).HasIntegers ∧ (arrows 4).HasIntegers ∧
    (arrows 1).IsFree (· == '\n') ∧ (arrows 4).IsFree (· == '\n') ∧ ∃ text,
      text = "⨝ (12)\n  <- ⨝ (6)\n    <-   <- ⨝ (6)[]: 3\n    <- B[x]: 2\n  <- ⨝ (12)[]: 2" ∧
      (arrows 1).inspect = .ok text ∧ (arrows 4).inspect = .ok text ∧ Alike (arrows 1) (arrows 4) := by
  have integers : (arrows 1).HasIntegers := by decide +kernel
  have others : (arrows 4).HasIntegers := by decide +kernel
  have free : (arrows 1).IsFree (· == '\n') := by decide +kernel
  have freeOthers : (arrows 4).IsFree (· == '\n') := by decide +kernel
  have text : (arrows 1).inspect =
      .ok "⨝ (12)\n  <- ⨝ (6)\n    <-   <- ⨝ (6)[]: 3\n    <- B[x]: 2\n  <- ⨝ (12)[]: 2" := by
    decide +kernel
  have same : (arrows 4).inspect = (arrows 1).inspect := by decide +kernel
  have alike := ((inspect_lossless integers others free freeOthers).2 _ text).1.mp (same.trans text)
  exact ⟨integers, others, free, freeOthers, _, rfl, text, same.trans text, alike⟩

/-- A join of two relations, of which one may have any number of tuples. -/
def doubled (n : Int) : Plan :=
  .join (.ofRelation (relationWith 1 "A" n [])) (.ofRelation (relationWith 2 "B" 2 [])) (.int (n * 2))

theorem joinWith_doubled (n : Int) : joinWith (.sharedAttributes .small) 0
    (.ofRelation (relationWith 1 "A" n [])) (.ofRelation (relationWith 2 "B" 2 [])) =
      .ok (doubled n) := by
  have estimated : (CostModel.sharedAttributes .small).estimate 0
      (.ofRelation (relationWith 1 "A" n [])) (.ofRelation (relationWith 2 "B" 2 [])) =
        .ok (.int (n * 2)) :=
    congrArg (fun k => Except.ok (Value.int k)) (Int.shiftRight_zero (n * 2))
  rw [joinWith, estimated]
  rfl

theorem newline_not_mem_shown {id n : Int} {name : String} (inName : '\n' ∉ name.toList)
    (shown : (relationWith id name n []).shown = .ok text) : '\n' ∉ text.toList := by
  obtain ⟨attributes, listed, shown⟩ := ok_of_bind shown
  obtain ⟨number, written, same⟩ := ok_of_bind shown
  have none : Attributes.shown (.ofList []) = .ok "" := by decide +kernel
  obtain rfl : attributes = "" := Except.ok.inj (listed.symm.trans none)
  have digits := Value.plain_of_int? (show (Value.int n).int? = some n from rfl) '\n'
  cases same
  rw [Value.eq_shown_of_written written]
  simp only [String.toList_append, List.mem_append, not_or]
  exact ⟨⟨⟨⟨inName, by decide⟩, by decide⟩, by decide⟩, fun member => absurd (digits member) (by decide)⟩

theorem isFree_doubled (n : Int) : (doubled n).IsFree (· == '\n') := by
  have apart {text : String} (free : '\n' ∉ text.toList) : ∀ c ∈ text.toList, (c == '\n') = false :=
    fun c member => by
      rw [beq_eq_false_iff_ne]
      rintro rfl
      exact free member
  intro r leaf text shown
  rcases List.mem_pair.mp leaf with rfl | rfl
  · exact apart (newline_not_mem_shown (by decide) shown)
  · exact apart (newline_not_mem_shown (by decide) shown)

/-- Two numbers that can be written may make one that has too many digits. -/
theorem inspect_not_always :
    joinWith (.sharedAttributes .small) 0 (.ofRelation (relationWith 1 "A" (Value.digitEnd - 1) []))
      (.ofRelation (relationWith 2 "B" 2 [])) = .ok (doubled (Value.digitEnd - 1)) ∧
    (doubled (Value.digitEnd - 1)).HasIntegers ∧ (doubled (Value.digitEnd - 1)).IsFree (· == '\n') ∧
    (∀ r ∈ (doubled (Value.digitEnd - 1)).leaves, ∃ text, r.shown = .ok text) ∧
    ∀ text, (doubled (Value.digitEnd - 1)).inspect ≠ .ok text := by
  have large := Value.ten_le_digitEnd
  have long : (Value.digitEnd : Int) - 1 < Value.digitEnd ∧
      Value.digitEnd ≤ ((Value.digitEnd : Int) - 1) * 2 := by omega
  have nonneg : (0 : Int) ≤ Value.digitEnd - 1 := by omega
  generalize (Value.digitEnd : Int) - 1 = n at long nonneg ⊢
  have integers : (doubled n).HasIntegers :=
    hasIntegers_join.mpr ⟨nofun, nofun, n * 2, rfl⟩
  have texts : ∀ s ∈ (IdSet.ofList ([] : List Scalar)).toList, s.isText = true := by decide +kernel
  refine ⟨joinWith_doubled n, integers, isFree_doubled n, ?_, ?_⟩
  · intro r leaf
    rcases List.mem_pair.mp leaf with rfl | rfl
    · exact (Relation.shown_isOk_iff texts).mpr ((Value.isWritable_int n).mpr (by omega))
    · exact (Relation.shown_isOk_iff texts).mpr ((Value.isWritable_int 2).mpr (by omega))
  · intro text ok
    have short := ((inspect_isOk_iff integers).mp ⟨text, ok⟩).2 _ List.mem_cons_self (n * 2) rfl
    omega

end Examples

end Plan

end JoinOrder
