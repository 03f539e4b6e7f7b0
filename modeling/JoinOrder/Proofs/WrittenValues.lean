import JoinOrder.Proofs.Admission
import JoinOrder.Proofs.WrittenScalars
/-!
Values in JSON. A value is written exactly if it does not nest too deeply and its integers are not too
long, and what is written for it is read as that value.
-/

namespace JoinOrder

namespace Value

mutual

/-- Whether JSON can carry a value. The names in an object have to be distinct. -/
def isCarried : Value → Bool
  | .scalar s => s.isCarried
  | .array items => areCarried items
  | .object entries => decide (entries.map (·.1)).Nodup && entriesCarried entries

def areCarried : List Value → Bool
  | [] => true
  | v :: vs => isCarried v && areCarried vs

def entriesCarried : List (String × Value) → Bool
  | [] => true
  | (name, v) :: rest => Text.isCarried name && isCarried v && entriesCarried rest

end

mutual

/-- Whether a value nests no deeper than so many levels, and all its integers can be written. -/
def fits : Nat → Value → Bool
  | _, .scalar (.int n) => (Value.int n).isWritable
  | _, .scalar _ => true
  | 0, _ => false
  | n + 1, .array items => allFit n items
  | n + 1, .object entries => entriesFit n entries

def allFit : Nat → List Value → Bool
  | _, [] => true
  | n, v :: vs => fits n v && allFit n vs

def entriesFit : Nat → List (String × Value) → Bool
  | _, [] => true
  | n, (_, v) :: rest => fits n v && entriesFit n rest

end

theorem allFit_iff (n : Nat) (vs : List Value) : allFit n vs = true ↔ ∀ v ∈ vs, v.fits n = true := by
  induction vs with
  | nil => exact iff_of_true rfl nofun
  | cons v vs ih => rw [allFit, Bool.and_eq_true, ih, List.forall_mem_cons]

theorem areCarried_iff (vs : List Value) : areCarried vs = true ↔ ∀ v ∈ vs, v.isCarried = true := by
  induction vs with
  | nil => exact iff_of_true rfl nofun
  | cons v vs ih => rw [areCarried, Bool.and_eq_true, ih, List.forall_mem_cons]

end Value

namespace Json

section Composites

variable {machine : Machine} {rest : List Char} {limits : Limits} {depth fuel : Nat} {text : String}

theorem skipSpace_of_begins {cs : List Char} (rest : List Char) (begins : Begins cs) :
    skipSpace (cs ++ rest) = cs ++ rest := by
  obtain ⟨c, tail, rfl, space, -⟩ := begins
  exact List.dropWhile_cons_of_neg (by simp [space])

/-- What stands between the brackets of an array or an object, element by element. -/
def inside (parts : List String) : List Char := [',', ' '].intercalate (parts.map String.toList)

theorem toList_enclose (first last : String) (parts : List String) :
    ((Layout.plain machine).enclose depth first last parts).toList =
      first.toList ++ inside parts ++ last.toList := by
  cases parts with
  | nil =>
    show (first ++ last).toList = _
    simp [inside]
  | cons part parts =>
    show (first ++ "" ++ ((", " : String) ++ "").intercalate (part :: parts) ++ "" ++ last).toList = _
    simp [inside]

theorem inside_cons_cons (part next : String) (parts : List String) :
    inside (part :: next :: parts) = part.toList ++ ',' :: ' ' :: inside (next :: parts) := by
  simp [inside, List.intercalate_cons_cons]

theorem inside_singleton (part : String) : inside [part] = part.toList := by simp [inside]

/-- Nothing but the depth can keep a list from being opened. -/
theorem enter_plain {isEmpty : Bool} (entered : (Layout.plain machine).enter depth isEmpty = .ok ()) :
    depth < machine.textLevels := by
  unfold Layout.enter at entered
  split at entered
  · cases entered
  · next shallow => exact Nat.not_le.mp shallow

theorem enter_limits (shallow : depth < machine.textLevels)
    (deep : machine.textLevels ≤ depth + limits.levels) :
    ∃ n, limits.enter = .ok { limits with levels := n } ∧ machine.textLevels ≤ depth + 1 + n := by
  obtain ⟨levels, digits⟩ := limits
  cases levels with
  | zero => exact absurd deep (Nat.not_le.mpr shallow)
  | succ n =>
    have deep : machine.textLevels ≤ depth + (n + 1) := deep
    exact ⟨n, rfl, by omega⟩

theorem writeAt_array {vs : List Value}
    (wrote : writeAt (.plain machine) depth (.ofValue (.array vs)) = .ok text) :
    depth < machine.textLevels ∧ ∃ parts,
      writeMembers (.plain machine) (depth + 1) (Item.ofValues vs) = .ok parts ∧
        text.toList = '[' :: (inside parts ++ [']']) := by
  rw [Item.ofValue, writeAt] at wrote
  obtain ⟨_, entered, wrote⟩ := ok_of_bind wrote
  obtain ⟨parts, members, same⟩ := ok_of_bind wrote
  obtain rfl := Except.ok.inj same
  exact ⟨enter_plain entered, parts, members, toList_enclose "[" "]" parts⟩

theorem value_open {inner : Limits} {cs : List Char} (entered : limits.enter = .ok inner)
    (begins : Begins cs) :
    value limits (fuel + 1) ('[' :: (cs ++ rest)) = do
      let (read, rest) ← items inner fuel (cs ++ rest)
      return (.array read, rest) := by
  have spaceless := skipSpace_of_begins rest begins
  obtain ⟨c, tail, rfl, -, notClosed⟩ := begins
  rw [value, entered, spaceless]
  dsimp only [Bind.bind, Except.bind]
  split
  · next same => exact absurd (List.cons.inj same).1 notClosed
  · rfl

theorem items_last {cs : List Char} {v : Value}
    (read : value limits fuel (skipSpace cs) = .ok (v, ']' :: rest)) :
    items limits (fuel + 1) cs = .ok ([v], rest) := by
  rw [items, read]
  rfl

theorem items_next {cs more : List Char} {v : Value} {vs : List Value}
    (read : value limits fuel (skipSpace cs) = .ok (v, ',' :: more))
    (others : items limits fuel more = .ok (vs, rest)) :
    items limits (fuel + 1) cs = .ok (v :: vs, rest) := by
  rw [items, read]
  show (items limits fuel more >>= _) = _
  rw [others]
  rfl

theorem writeAt_object {es : List (String × Value)}
    (wrote : writeAt (.plain machine) depth (.ofValue (.object es)) = .ok text) :
    depth < machine.textLevels ∧ ∃ parts,
      (writeEntries (.plain machine) (depth + 1) (Item.ofEntries es)).mapM (·.2) = .ok parts ∧
        text.toList = '\x7b' :: (inside parts ++ ['\x7d']) := by
  rw [Item.ofValue, writeAt] at wrote
  obtain ⟨_, entered, wrote⟩ := ok_of_bind wrote
  obtain ⟨parts, members, same⟩ := ok_of_bind wrote
  obtain rfl := Except.ok.inj same
  exact ⟨enter_plain entered, parts, members, toList_enclose "\x7b" "\x7d" parts⟩

theorem setEntry_fresh {name : String} {v : Value} {read : List (String × Value)}
    (fresh : name ∉ read.map (·.1)) : setEntry name v read = read ++ [(name, v)] := by
  induction read with
  | nil => rfl
  | cons entry read ih =>
    rw [List.map_cons, List.mem_cons, not_or] at fresh
    rw [setEntry, if_neg (Ne.symm fresh.1), ih fresh.2, List.cons_append]

theorem value_open_object {inner : Limits} {cs : List Char} (entered : limits.enter = .ok inner) :
    value limits (fuel + 1) ('\x7b' :: '"' :: cs) = do
      let (read, rest) ← entries inner fuel [] ('"' :: cs)
      return (.object read, rest) := by
  rw [value, entered]
  rfl

/-- One entry is read, and then it is looked at what comes behind. -/
theorem entries_entry {name : String} {v : Value} {read : List (String × Value)}
    {cs written more : List Char} (carried : Text.isCarried name = true)
    (start : skipSpace cs = (writeText true name).toList ++ ':' :: ' ' :: (written ++ more))
    (begins : Begins written) (readValue : value limits fuel (written ++ more) = .ok (v, more))
    (enough : (writeText true name).toList.length ≤ fuel + 1) :
    entries limits (fuel + 1) read cs =
      match skipSpace more with
      | ',' :: rest => entries limits fuel (setEntry name v read) rest
      | '\x7d' :: rest => .ok (setEntry name v read, rest)
      | _ => .error .malformedText := by
  rw [toList_writeText] at start enough
  rw [List.length_cons, List.length_append] at enough
  rw [entries, start, List.cons_append, List.append_assoc, List.singleton_append]
  show (wellFormed (string? (fuel + 1) [] _) >>= _) = _
  rw [string?_writeText carried (by omega)]
  show (value limits fuel (skipSpace (written ++ more)) >>= _) = _
  rw [skipSpace_of_begins _ begins, readValue]
  rfl

theorem writeEntries_cons {name : String} {v : Value} {es : List (String × Value)} {parts : List String}
    (wrote : (writeEntries (.plain machine) depth (Item.ofEntries ((name, v) :: es))).mapM (·.2) =
      .ok parts) :
    ∃ text part others, writeAt (.plain machine) depth (.ofValue v) = .ok text ∧
      part.toList = (writeText true name).toList ++ ':' :: ' ' :: text.toList ∧
      (writeEntries (.plain machine) depth (Item.ofEntries es)).mapM (·.2) = .ok others ∧
      parts = part :: others := by
  rw [Item.ofEntries, writeEntries, List.mapM_cons] at wrote
  obtain ⟨part, first, wrote⟩ := ok_of_bind wrote
  obtain ⟨others, rest, same⟩ := ok_of_bind wrote
  obtain rfl := Except.ok.inj same
  cases here : writeAt (.plain machine) depth (.ofValue v) with
  | error e =>
    rw [here] at first
    cases first
  | ok text =>
    rw [here] at first
    obtain rfl := Except.ok.inj first
    refine ⟨text, _, others, rfl, ?_, rest, rfl⟩
    show (writeText true name ++ ": " ++ text).toList = _
    rw [String.toList_append, String.toList_append, List.append_assoc]
    rfl

mutual

theorem value_append (v : Value) (carried : v.isCarried = true) {depth : Nat} {text : String}
    (wrote : writeAt (.plain machine) depth (.ofValue v) = .ok text) (limits : Limits)
    (deep : machine.textLevels ≤ depth + limits.levels)
    (wide : Value.digitLimit ≤ limits.digits) (fuel : Nat) (enough : text.toList.length ≤ fuel)
    (rest : List Char) (stops : Stops rest) :
    value limits fuel (text.toList ++ rest) = .ok (v, rest) ∧ Begins text.toList := by
  cases v with
  | scalar s => exact value_scalar carried wrote wide enough stops
  | array vs =>
    obtain ⟨shallow, parts, members, shown⟩ := writeAt_array wrote
    -- The reader has a level left whenever the writer had one.
    obtain ⟨n, entered, deeper⟩ := enter_limits shallow deep
    rw [shown] at enough ⊢
    rw [List.length_cons, List.length_append, List.length_singleton] at enough
    obtain ⟨fuel, rfl⟩ := Nat.exists_eq_add_one.mpr (show 0 < fuel by omega)
    refine ⟨?_, '[', _, rfl, rfl, by decide⟩
    rw [List.cons_append, List.append_assoc, List.singleton_append]
    cases vs with
    | nil =>
      obtain rfl := Except.ok.inj members
      show (limits.enter >>= _) = _
      rw [entered]
      rfl
    | cons v vs =>
      obtain ⟨read, begins⟩ := items_append (v :: vs) (List.cons_ne_nil v vs) carried members
        { limits with levels := n } deeper wide fuel (by omega) (inside parts ++ ']' :: rest) rest rfl
      rw [value_open entered begins, read]
      rfl
  | object es =>
    obtain ⟨shallow, parts, members, shown⟩ := writeAt_object wrote
    obtain ⟨n, entered, deeper⟩ := enter_limits shallow deep
    obtain ⟨distinct, carried⟩ := Bool.and_eq_true_iff.mp carried
    rw [shown] at enough ⊢
    rw [List.length_cons, List.length_append, List.length_singleton] at enough
    obtain ⟨fuel, rfl⟩ := Nat.exists_eq_add_one.mpr (show 0 < fuel by omega)
    refine ⟨?_, '\x7b', _, rfl, rfl, by decide⟩
    rw [List.cons_append, List.append_assoc, List.singleton_append]
    cases es with
    | nil =>
      obtain rfl := Except.ok.inj members
      show (limits.enter >>= _) = _
      rw [entered]
      rfl
    | cons e es =>
      obtain ⟨read, tail, quote⟩ := entries_append (e :: es) (List.cons_ne_nil e es) carried members
        { limits with levels := n } deeper wide fuel (by omega) []
        (of_decide_eq_true distinct) (inside parts ++ '\x7d' :: rest) rest rfl
      rw [quote] at read ⊢
      rw [List.cons_append] at read ⊢
      rw [value_open_object entered, read]
      rfl

theorem items_append (vs : List Value) (some : vs ≠ []) (carried : Value.areCarried vs = true)
    {depth : Nat} {parts : List String}
    (wrote : writeMembers (.plain machine) depth (Item.ofValues vs) = .ok parts) (limits : Limits)
    (deep : machine.textLevels ≤ depth + limits.levels) (wide : Value.digitLimit ≤ limits.digits)
    (fuel : Nat) (enough : (inside parts).length < fuel) (cs rest : List Char)
    (start : skipSpace cs = skipSpace (inside parts ++ ']' :: rest)) :
    items limits fuel cs = .ok (vs, rest) ∧ Begins (inside parts) := by
  cases vs with
  | nil => exact absurd rfl some
  | cons v vs =>
    obtain ⟨here, there⟩ := Bool.and_eq_true_iff.mp carried
    obtain ⟨text, first, wrote⟩ := ok_of_bind wrote
    obtain ⟨texts, others, same⟩ := ok_of_bind wrote
    obtain rfl := Except.ok.inj same
    obtain ⟨fuel, rfl⟩ := Nat.exists_eq_add_one.mpr (show 0 < fuel by omega)
    cases vs with
    | nil =>
      obtain rfl := Except.ok.inj others
      rw [inside_singleton] at enough start ⊢
      obtain ⟨read, begins⟩ := value_append v here first limits deep wide fuel (by omega)
        (']' :: rest) (stops_cons (.inr (.inl rfl)))
      rw [skipSpace_of_begins _ begins] at start
      exact ⟨items_last (start ▸ read), begins⟩
    | cons w ws =>
      obtain ⟨next, nextWrote, wrote⟩ := ok_of_bind others
      obtain ⟨more, _, same⟩ := ok_of_bind wrote
      obtain rfl := Except.ok.inj same
      -- The others are read behind the comma, where a blank is skipped before the first of them.
      rw [inside_cons_cons] at enough start ⊢
      rw [List.length_append, List.length_cons, List.length_cons] at enough
      obtain ⟨readThere, _⟩ := items_append (w :: ws) (List.cons_ne_nil w ws) there others limits deep
        wide fuel (by omega) (' ' :: (inside (next :: more) ++ ']' :: rest)) rest rfl
      obtain ⟨read, begins⟩ := value_append v here first limits deep wide fuel (by omega)
        (',' :: ' ' :: (inside (next :: more) ++ ']' :: rest)) (stops_cons (.inl rfl))
      rw [List.append_assoc, skipSpace_of_begins _ begins] at start
      refine ⟨items_next (start ▸ read) readThere, ?_⟩
      obtain ⟨c, tail, same, space, notClosed⟩ := begins
      exact ⟨c, _, by rw [same]; rfl, space, notClosed⟩

theorem entries_append (es : List (String × Value)) (some : es ≠ [])
    (carried : Value.entriesCarried es = true) {depth : Nat} {parts : List String}
    (wrote : (writeEntries (.plain machine) depth (Item.ofEntries es)).mapM (·.2) = .ok parts)
    (limits : Limits)
    (deep : machine.textLevels ≤ depth + limits.levels) (wide : Value.digitLimit ≤ limits.digits)
    (fuel : Nat) (enough : (inside parts).length < fuel) (read : List (String × Value))
    (distinct : ((read ++ es).map (·.1)).Nodup) (cs rest : List Char)
    (start : skipSpace cs = skipSpace (inside parts ++ '\x7d' :: rest)) :
    entries limits fuel read cs = .ok (read ++ es, rest) ∧ ∃ tail, inside parts = '"' :: tail := by
  cases es with
  | nil => exact absurd rfl some
  | cons e es =>
    obtain ⟨name, v⟩ := e
    obtain ⟨both, there⟩ := Bool.and_eq_true_iff.mp carried
    obtain ⟨named, here⟩ := Bool.and_eq_true_iff.mp both
    obtain ⟨text, part, others, first, shown, members, rfl⟩ := writeEntries_cons wrote
    -- A name that was read before would have its value replaced where it stands.
    have fresh : name ∉ read.map (·.1) := fun member => by
      rw [List.map_append] at distinct
      exact List.disjoint_of_nodup_append distinct member List.mem_cons_self
    obtain ⟨tail, quote⟩ : ∃ tail, part.toList = '"' :: tail :=
      ⟨_, by rw [shown, toList_writeText, List.cons_append]⟩
    have opens : Begins part.toList := ⟨'"', tail, quote, rfl, by decide⟩
    have long := congrArg List.length shown
    rw [List.length_append, List.length_cons, List.length_cons] at long
    obtain ⟨fuel, rfl⟩ := Nat.exists_eq_add_one.mpr (show 0 < fuel by omega)
    cases es with
    | nil =>
      obtain rfl : others = [] := (Except.ok.inj members).symm
      rw [inside_singleton] at enough start ⊢
      obtain ⟨value, begins⟩ := value_append v here first limits deep wide fuel (by omega)
        ('\x7d' :: rest) (stops_cons (.inr (.inr rfl)))
      rw [skipSpace_of_begins _ opens, shown, List.append_assoc] at start
      refine ⟨?_, tail, quote⟩
      rw [entries_entry named start begins value (by omega), setEntry_fresh fresh]
      rfl
    | cons e es =>
      obtain ⟨next, more, same⟩ : ∃ next more, others = next :: more := by
        obtain ⟨nextName, w⟩ := e
        obtain ⟨_, next, more, -, -, -, same⟩ := writeEntries_cons members
        exact ⟨next, more, same⟩
      rw [same, inside_cons_cons] at enough start ⊢
      rw [List.length_append, List.length_cons, List.length_cons] at enough
      obtain ⟨there, -⟩ := entries_append (e :: es) (List.cons_ne_nil e es) there members limits deep
        wide fuel (by rw [same]; omega) (read ++ [(name, v)])
        (by rwa [List.append_assoc, List.singleton_append])
        (' ' :: (inside others ++ '\x7d' :: rest)) rest rfl
      obtain ⟨value, begins⟩ := value_append v here first limits deep wide fuel (by omega)
        (',' :: ' ' :: (inside others ++ '\x7d' :: rest)) (stops_cons (.inl rfl))
      rw [List.append_assoc, skipSpace_of_begins _ opens, shown, List.append_assoc] at start
      rw [quote]
      refine ⟨?_, _, rfl⟩
      rw [same] at value there
      rw [entries_entry named start begins value (by omega), setEntry_fresh fresh]
      show entries limits fuel (read ++ [(name, v)]) (' ' :: (inside (next :: more) ++ '\x7d' :: rest)) = _
      rw [there, List.append_assoc, List.singleton_append]

end

/-- What is written for a value is read as that value. -/
theorem read_write {v : Value} (carried : v.isCarried = true)
    (wrote : write (.plain machine) v = .ok text) :
    Json.read machine text = .ok v := by
  obtain ⟨written, inside, same⟩ := ok_of_bind wrote
  obtain rfl : written = text := Except.ok.inj same
  obtain ⟨read, begins⟩ := value_append v carried inside (.ofMachine machine) (Nat.le_add_left ..)
    (Nat.le_refl _) (written.toList.length + 1) (Nat.le_succ _) [] stops_nil
  have start := skipSpace_of_begins [] begins
  rw [List.append_nil] at read start
  show (value (.ofMachine machine) (written.toList.length + 1) (skipSpace written.toList) >>= _) = _
  rw [start, read]
  rfl

end Composites

/-! ### Which values are written -/

section Extent

variable {machine : Machine} {depth n : Nat}

theorem enter_of_lt {isEmpty : Bool} (shallow : depth < machine.textLevels) :
    (Layout.plain machine).enter depth isEmpty = .ok () := by
  have notDeep : ¬ (Layout.plain machine).levels ≤ depth := Nat.not_le.mpr shallow
  rw [Layout.enter, if_neg notDeep, if_neg]
  simp [Layout.plain]

theorem written_scalar {s : Scalar} :
    (∃ text, (Layout.plain machine).writeScalar s = .ok text) ↔ Value.fits n (.scalar s) = true := by
  cases s with
  | int k =>
    rw [Value.fits]
    show (∃ text, (Value.int k).written = .ok text) ↔ _
    unfold Value.written
    split
    · next writable => simp [writable]
    · next tooLong => simp [tooLong]
  | real x =>
    refine iff_of_true ?_ rfl
    show ∃ text, writeReal false x = .ok text
    unfold writeReal
    split
    · exact ⟨_, rfl⟩
    · exact ⟨_, rfl⟩
    · exact ⟨_, rfl⟩
  | _ => exact iff_of_true ⟨_, rfl⟩ rfl

mutual

/-- A value is written if it fits into the levels that are left. -/
theorem written_iff (v : Value) {depth n : Nat} (left : depth + n = machine.textLevels) :
    (∃ text, writeAt (.plain machine) depth (.ofValue v) = .ok text) ↔ v.fits n = true := by
  cases v with
  | scalar s => exact written_scalar
  | array vs =>
    cases n with
    | zero =>
      refine iff_of_false ?_ (Bool.eq_false_iff.mp rfl)
      rintro ⟨text, wrote⟩
      have := (writeAt_array wrote).1
      omega
    | succ n =>
      rw [Value.fits, ← membersWritten_iff vs (by omega : depth + 1 + n = _)]
      constructor
      · rintro ⟨text, wrote⟩
        obtain ⟨-, parts, members, -⟩ := writeAt_array wrote
        exact ⟨parts, members⟩
      · rintro ⟨parts, members⟩
        refine ⟨(Layout.plain machine).enclose depth "[" "]" parts, ?_⟩
        rw [Item.ofValue, writeAt, enter_of_lt (by omega), members]
        rfl
  | object es =>
    cases n with
    | zero =>
      refine iff_of_false ?_ (Bool.eq_false_iff.mp rfl)
      rintro ⟨text, wrote⟩
      have := (writeAt_object wrote).1
      omega
    | succ n =>
      rw [Value.fits, ← entriesWritten_iff es (by omega : depth + 1 + n = _)]
      constructor
      · rintro ⟨text, wrote⟩
        obtain ⟨-, parts, members, -⟩ := writeAt_object wrote
        exact ⟨parts, members⟩
      · rintro ⟨parts, members⟩
        refine ⟨(Layout.plain machine).enclose depth "\x7b" "\x7d" parts, ?_⟩
        rw [Item.ofValue, writeAt, enter_of_lt (by omega)]
        show ((writeEntries (.plain machine) (depth + 1) (Item.ofEntries es)).mapM (·.2) >>= _) = _
        rw [members]
        rfl

theorem membersWritten_iff (vs : List Value) {depth n : Nat} (left : depth + n = machine.textLevels) :
    (∃ parts, writeMembers (.plain machine) depth (Item.ofValues vs) = .ok parts) ↔
      Value.allFit n vs = true := by
  cases vs with
  | nil => exact iff_of_true ⟨[], rfl⟩ rfl
  | cons v vs =>
    rw [Value.allFit, Bool.and_eq_true, ← written_iff v left, ← membersWritten_iff vs left]
    constructor
    · rintro ⟨parts, wrote⟩
      obtain ⟨text, first, wrote⟩ := ok_of_bind wrote
      obtain ⟨texts, others, -⟩ := ok_of_bind wrote
      exact ⟨⟨text, first⟩, texts, others⟩
    · rintro ⟨⟨text, first⟩, texts, others⟩
      refine ⟨text :: texts, ?_⟩
      rw [Item.ofValues, writeMembers, first, others]
      rfl

theorem entriesWritten_iff (es : List (String × Value)) {depth n : Nat}
    (left : depth + n = machine.textLevels) :
    (∃ parts, (writeEntries (.plain machine) depth (Item.ofEntries es)).mapM (·.2) = .ok parts) ↔
      Value.entriesFit n es = true := by
  cases es with
  | nil => exact iff_of_true ⟨[], rfl⟩ rfl
  | cons e es =>
    obtain ⟨name, v⟩ := e
    rw [Value.entriesFit, Bool.and_eq_true, ← written_iff v left, ← entriesWritten_iff es left]
    constructor
    · rintro ⟨parts, wrote⟩
      obtain ⟨text, _, others, first, -, rest, -⟩ := writeEntries_cons wrote
      exact ⟨⟨text, first⟩, others, rest⟩
    · rintro ⟨⟨text, first⟩, others, rest⟩
      refine ⟨(writeText true name ++ ": " ++ text) :: others, ?_⟩
      rw [Item.ofEntries, writeEntries, List.mapM_cons, first, rest]
      rfl

end

theorem write_iff (v : Value) :
    (∃ text, write (.plain machine) v = .ok text) ↔ v.fits machine.textLevels = true := by
  rw [← written_iff v (Nat.zero_add _)]
  constructor
  · rintro ⟨text, wrote⟩
    obtain ⟨text, wrote, -⟩ := ok_of_bind wrote
    exact ⟨text, wrote⟩
  · rintro ⟨text, wrote⟩
    refine ⟨text, ?_⟩
    rw [write, writeItem, wrote]
    rfl

end Extent

end Json

end JoinOrder
