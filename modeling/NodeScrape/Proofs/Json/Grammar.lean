import NodeScrape.Json.Read
import NodeScrape.Proofs.Json.Tokens

/-!
# Reading follows the grammar

A text that can be taken apart into a phrase is read as the tree of that phrase, so readers may be
followed on phrases.
-/

namespace NodeScrape.Json

variable {b : UInt8} {bytes rest : List UInt8} {fuel : Nat}

/-! ## Blanks and commas -/

theorem skipBlanks_blanks (gap : Blanks) (bytes : List UInt8) :
    skipBlanks (gap.bytes ++ bytes) = skipBlanks bytes :=
  List.dropWhile_append_of_pos gap.blank

/-- Blanks before a value are of no account. -/
theorem value_blanks (gap : Blanks) (fuel : Nat) (bytes : List UInt8) :
    value (fuel + 1) (gap.bytes ++ bytes) = value (fuel + 1) bytes := by
  rw [value, skipBlanks_blanks, value]

theorem continuation_blanks (gap : Blanks) (close : UInt8) (bytes : List UInt8) :
    continuation close (gap.bytes ++ bytes) = continuation close bytes := by
  rw [continuation, skipBlanks_blanks, continuation]

/-- A number does not go on with a blank. -/
theorem endsNumber_blanks (gap : Blanks) (hrest : EndsNumber rest) :
    EndsNumber (gap.bytes ++ rest) := by
  obtain ⟨bytes, hblank⟩ := gap
  cases bytes with
  | nil => exact hrest
  | cons b bytes =>
    have hb := hblank b List.mem_cons_self
    simp only [isBlank, Bool.or_eq_true, decide_eq_true_iff] at hb
    refine endsNumber_cons ?_
    rcases hb with ((rfl | rfl) | rfl) | rfl <;> decide

theorem commaSeparated_cons_cons (text next : List UInt8) (more : List (List UInt8)) :
    commaSeparated (text :: next :: more) = text ++ 0x2c :: commaSeparated (next :: more) := rfl

@[simp] theorem commaSeparated_singleton (text : List UInt8) : commaSeparated [text] = text := by
  simp [commaSeparated, List.intercalate]

/-! ## Tokens -/

/-- A string is a value. -/
theorem value_string (s : StringText) (rest : List UInt8) :
    value (fuel + 1) (s.bytes ++ rest) = (.text s.token, rest) := by
  have hread := textToken_spelled s rest
  have hbytes : s.bytes ++ rest = 0x22 :: (s.letters.flatMap Letter.bytes ++ 0x22 :: rest) := by
    simp [StringText.bytes]
  rw [hbytes, value, skipBlanks_cons (by decide)]
  simp only [if_true, hread]

/-- What a number begins with is neither blank nor the beginning of another value. -/
private theorem ne_of_beginsNumber (hb : b = 0x2d ∨ (digit? b).isSome = true) {c : UInt8}
    (hc : c.toNat < 48 ∨ 57 < c.toNat) (hminus : c ≠ 0x2d) : b ≠ c := by
  rcases hb with rfl | hb
  · exact hminus.symm
  · obtain ⟨d, hd⟩ := Option.isSome_iff_exists.mp hb
    exact digit_ne hd hc

theorem beginsValue_of_beginsNumber (hb : b = 0x2d ∨ (digit? b).isSome = true) :
    BeginsValue b := by
  have hblank : isBlank b = false := by
    simp only [isBlank, ne_of_beginsNumber hb (c := 0x20) (by decide) (by decide),
      ne_of_beginsNumber hb (c := 0x0a) (by decide) (by decide),
      ne_of_beginsNumber hb (c := 0x0d) (by decide) (by decide),
      ne_of_beginsNumber hb (c := 0x09) (by decide) (by decide)]
    rfl
  exact ⟨hblank, ne_of_beginsNumber hb (by decide) (by decide),
    ne_of_beginsNumber hb (by decide) (by decide)⟩

/-- A value that begins with a sign or a digit is a number. -/
theorem value_beginsNumber (hb : b = 0x2d ∨ (digit? b).isSome = true) :
    value (fuel + 1) (b :: rest) =
      match numberToken (b = 0x2d) (if b = 0x2d then rest else b :: rest) with
      | .ok (token, rest) => (.number token, rest)
      | .error atEnd => (.badNumber atEnd, []) := by
  have hor : (decide (b = 0x2d) || (digit? b).isSome) = true := by simpa using hb
  rw [value, skipBlanks_cons (beginsValue_of_beginsNumber hb).1]
  cases hnumber : numberToken (b = 0x2d) (if b = 0x2d then rest else b :: rest) <;>
    simp only [if_neg (ne_of_beginsNumber hb (c := 0x22) (by decide) (by decide)),
      if_neg (ne_of_beginsNumber hb (c := 0x5b) (by decide) (by decide)),
      if_neg (ne_of_beginsNumber hb (c := 0x7b) (by decide) (by decide)),
      if_neg (ne_of_beginsNumber hb (c := 0x6e) (by decide) (by decide)),
      if_neg (ne_of_beginsNumber hb (c := 0x74) (by decide) (by decide)),
      if_neg (ne_of_beginsNumber hb (c := 0x66) (by decide) (by decide)), hor, if_true, hnumber]

/-- The whole digits of a number come first. -/
theorem NumberText.magnitude_head (n : NumberText) :
    ∃ d tail, n.magnitude = digitByte d :: tail := by
  obtain ⟨negative, whole, fraction, exponent, hwhole⟩ := n
  rcases hwhole with rfl | ⟨d, ds, rfl, -⟩
  · exact ⟨0, _, rfl⟩
  · exact ⟨d, _, rfl⟩

/-- A number begins with its sign or a digit. -/
theorem NumberText.bytes_head (n : NumberText) :
    ∃ b tail, n.bytes = b :: tail ∧ (b = 0x2d ∨ (digit? b).isSome = true) := by
  obtain ⟨d, tail, hhead⟩ := n.magnitude_head
  rw [NumberText.bytes, hhead]
  cases n.negative with
  | true => exact ⟨_, _, rfl, .inl rfl⟩
  | false => exact ⟨_, _, rfl, .inr (by rw [digit?_digitByte]; rfl)⟩

/-- A number is a value, up to where it cannot go on. -/
theorem value_number (n : NumberText) (hrest : EndsNumber rest) :
    value (fuel + 1) (n.bytes ++ rest) = (.number n.token, rest) := by
  have hread := numberToken_spelled n hrest
  obtain ⟨d, tail, hhead⟩ := n.magnitude_head
  have hminus := digitByte_ne d (c := 0x2d) (by decide)
  rw [NumberText.bytes]
  rw [hhead] at hread ⊢
  cases hn : n.negative with
  | true =>
    rw [hn] at hread
    rw [if_pos rfl, List.singleton_append, List.cons_append, value_beginsNumber (.inl rfl)]
    simp only [decide_true, if_true, hread]
  | false =>
    rw [hn] at hread
    rw [if_neg nofun, List.nil_append, List.cons_append,
      value_beginsNumber (.inr (by rw [digit?_digitByte]; rfl))]
    simp only [hminus, decide_false, if_false, ← List.cons_append, hread]

/-! ## Phrases -/

/-- A phrase begins a value. -/
theorem Phrase.bytes_head (p : Phrase) : ∃ b tail, p.bytes = b :: tail ∧ BeginsValue b := by
  cases p with
  | null => exact ⟨_, _, rfl, by decide⟩
  | boolean value =>
    cases value with
    | false => exact ⟨_, _, rfl, by decide⟩
    | true => exact ⟨_, _, rfl, by decide⟩
  | number n =>
    obtain ⟨b, tail, hhead, hb⟩ := n.bytes_head
    exact ⟨b, tail, hhead, beginsValue_of_beginsNumber hb⟩
  | text s => exact ⟨_, _, rfl, by decide⟩
  | array gap items => exact ⟨_, _, rfl, by decide⟩
  | object gap members => exact ⟨_, _, rfl, by decide⟩

theorem exists_commaSeparated (text : List UInt8) (more : List (List UInt8)) :
    ∃ after, commaSeparated (text :: more) = text ++ after := by
  cases more with
  | nil => exact ⟨[], by simp⟩
  | cons next more => exact ⟨_, commaSeparated_cons_cons text next more⟩

/-- The items of a list begin with a value. -/
private theorem skipBlanks_items (gap : Blanks) (item : Margin × Phrase)
    (more : List (Margin × Phrase)) (rest : List UInt8) :
    ∃ b tail, skipBlanks (gap.bytes ++ (commaSeparated (itemTexts (item :: more)) ++ rest)) =
      b :: tail ∧ BeginsValue b := by
  obtain ⟨m, p⟩ := item
  obtain ⟨b, tail, hhead, hb⟩ := p.bytes_head
  obtain ⟨after, hafter⟩ :=
    exists_commaSeparated (m.before.bytes ++ p.bytes ++ m.after.bytes) (itemTexts more)
  refine ⟨b, tail ++ (m.after.bytes ++ (after ++ rest)), ?_, hb⟩
  rw [itemTexts, hafter, skipBlanks_blanks, List.append_assoc, List.append_assoc, List.append_assoc,
    skipBlanks_blanks, hhead, List.cons_append, skipBlanks_cons hb.1]

/-- The members of an object begin with a string. -/
private theorem skipBlanks_members (gap : Blanks) (member : Label × Phrase)
    (more : List (Label × Phrase)) (rest : List UInt8) :
    ∃ tail, skipBlanks (gap.bytes ++ (commaSeparated (memberTexts (member :: more)) ++ rest)) =
      0x22 :: tail := by
  obtain ⟨l, p⟩ := member
  obtain ⟨after, hafter⟩ :=
    exists_commaSeparated (l.bytes ++ p.bytes ++ l.margin.after.bytes) (memberTexts more)
  rw [memberTexts, hafter]
  simp only [Label.bytes, StringText.bytes, List.append_assoc, List.cons_append, skipBlanks_blanks]
  exact ⟨_, skipBlanks_cons (by decide)⟩

/-- A list that is not closed at once is read item by item. -/
theorem value_items {tail : List UInt8} (hbytes : skipBlanks bytes = b :: tail)
    (hclose : b ≠ 0x5d) :
    value (fuel + 1) (0x5b :: bytes) =
      (.array (items fuel bytes).1 (items fuel bytes).2.1, (items fuel bytes).2.2) := by
  rw [value, skipBlanks_cons (by decide)]
  simp only [hbytes, if_neg hclose]
  rfl

/-- An object that is not closed at once is read member by member. -/
theorem value_members {tail : List UInt8} (hbytes : skipBlanks bytes = b :: tail)
    (hclose : b ≠ 0x7d) :
    value (fuel + 1) (0x7b :: bytes) =
      (.object (members fuel bytes).1 (members fuel bytes).2.1, (members fuel bytes).2.2) := by
  rw [value, skipBlanks_cons (by decide)]
  simp only [hbytes, if_neg hclose]
  rfl

/-- A list or object without a value is closed at once. -/
theorem value_empty (gap : Blanks) (rest : List UInt8) :
    value (fuel + 1) (0x5b :: (gap.bytes ++ 0x5d :: rest)) = (.array [] none, rest) ∧
      value (fuel + 1) (0x7b :: (gap.bytes ++ 0x7d :: rest)) = (.object [] none, rest) := by
  constructor
  · rw [value, skipBlanks_cons (by decide)]
    simp only [skipBlanks_blanks, skipBlanks_cons (b := 0x5d) (by decide), if_true]
    rfl
  · rw [value, skipBlanks_cons (by decide)]
    simp only [skipBlanks_blanks, skipBlanks_cons (b := 0x7d) (by decide), if_true]
    rfl

/-- An item, its comma, and the items behind it. -/
theorem items_succ (fuel : Nat) (bytes : List UInt8) :
    items (fuel + 1) bytes = match continuation 0x5d (value fuel bytes).2 with
      | .more rest => ((value fuel bytes).1 :: (items fuel rest).1, (items fuel rest).2)
      | .stop fault rest => ([(value fuel bytes).1], fault, rest) := rfl

/-- What a member's value is read as, from what follows the name. -/
def memberValue (fuel : Nat) (bytes : List UInt8) : Value × List UInt8 :=
  match skipBlanks bytes with
  | [] => (.broken .truncated, [])
  | b :: rest => if b = 0x3a then value fuel rest else (.broken .malformed, rest)

/-- A member, its comma, and the members behind it. -/
theorem members_succ (fuel : Nat) (bytes : List UInt8) :
    members (fuel + 1) bytes =
      match continuation 0x7d (memberValue fuel (value fuel bytes).2).2 with
      | .more rest => (((value fuel bytes).1, (memberValue fuel (value fuel bytes).2).1) ::
          (members fuel rest).1, (members fuel rest).2)
      | .stop fault rest =>
        ([((value fuel bytes).1, (memberValue fuel (value fuel bytes).2).1)], fault, rest) := rfl

theorem items_blanks (gap : Blanks) (fuel : Nat) (bytes : List UInt8) :
    items (fuel + 2) (gap.bytes ++ bytes) = items (fuel + 2) bytes := by
  rw [items, value_blanks, items]

theorem members_blanks (gap : Blanks) (fuel : Nat) (bytes : List UInt8) :
    members (fuel + 2) (gap.bytes ++ bytes) = members (fuel + 2) bytes := by
  rw [members, value_blanks, members]

/-- An item, and what follows it. -/
private theorem items_step {m : Margin} {p : Phrase}
    (hread : value (fuel + 1) (p.bytes ++ (m.after.bytes ++ rest)) =
      (p.tree, m.after.bytes ++ rest)) :
    items (fuel + 2) (m.before.bytes ++ p.bytes ++ m.after.bytes ++ rest) =
      match continuation 0x5d rest with
      | .more rest => (p.tree :: (items (fuel + 1) rest).1, (items (fuel + 1) rest).2)
      | .stop fault rest => ([p.tree], fault, rest) := by
  rw [List.append_assoc, List.append_assoc, items_blanks, items_succ, hread, continuation_blanks]

/-- A member, and what follows it. -/
private theorem members_step {l : Label} {p : Phrase}
    (hread : value (fuel + 1) (p.bytes ++ (l.margin.after.bytes ++ rest)) =
      (p.tree, l.margin.after.bytes ++ rest)) :
    members (fuel + 2) (l.bytes ++ p.bytes ++ l.margin.after.bytes ++ rest) =
      match continuation 0x7d rest with
      | .more rest => ((.text l.name.token, p.tree) :: (members (fuel + 1) rest).1,
          (members (fuel + 1) rest).2)
      | .stop fault rest => ([(.text l.name.token, p.tree)], fault, rest) := by
  have hbytes : l.bytes ++ p.bytes ++ l.margin.after.bytes ++ rest = l.before.bytes ++
      (l.name.bytes ++ (l.after.bytes ++ 0x3a :: (l.margin.before.bytes ++
        (p.bytes ++ (l.margin.after.bytes ++ rest))))) := by
    simp [Label.bytes]
  have hitem : memberValue (fuel + 1) (l.after.bytes ++ 0x3a :: (l.margin.before.bytes ++
      (p.bytes ++ (l.margin.after.bytes ++ rest)))) = (p.tree, l.margin.after.bytes ++ rest) := by
    rw [memberValue, skipBlanks_blanks, skipBlanks_cons (by decide)]
    simp only [if_true, value_blanks, hread]
  rw [hbytes, members_blanks, members_succ, value_string, hitem, continuation_blanks]

mutual

/-- A phrase is read as its tree, up to where it ends. -/
theorem value_phrase (p : Phrase) (fuel : Nat) (rest : List UInt8)
    (hfuel : 2 * p.bytes.length ≤ fuel) (hrest : EndsNumber rest) :
    value fuel (p.bytes ++ rest) = (p.tree, rest) := by
  obtain ⟨b, tail, hhead, -⟩ := p.bytes_head
  have hpos : 0 < p.bytes.length := by simp [hhead]
  obtain ⟨fuel, rfl⟩ : ∃ f, fuel = f + 1 := ⟨fuel - 1, by omega⟩
  match p with
  | .null => exact literal_append .null [0x75, 0x6c, 0x6c] rest
  | .boolean false => exact literal_append (.boolean false) [0x61, 0x6c, 0x73, 0x65] rest
  | .boolean true => exact literal_append (.boolean true) [0x72, 0x75, 0x65] rest
  | .number n => exact value_number n hrest
  | .text s => exact value_string s rest
  | .array gap [] =>
    rw [Phrase.bytes, itemTexts, List.cons_append, List.append_assoc, List.append_assoc]
    exact (value_empty gap rest).1
  | .array gap (item :: more) =>
    simp only [Phrase.bytes, List.length_cons, List.length_append] at hfuel
    obtain ⟨fuel, rfl⟩ : ∃ f, fuel = f + 2 := ⟨fuel - 2, by omega⟩
    have hread := items_phrases (item :: more) nofun (fuel + 2) rest (by omega)
    obtain ⟨b, tail, hbegins, hb⟩ := skipBlanks_items gap item more (0x5d :: rest)
    rw [Phrase.bytes, List.cons_append, List.append_assoc, List.append_assoc,
      List.singleton_append, value_items hbegins hb.2.1, items_blanks, hread]
    rfl
  | .object gap [] =>
    rw [Phrase.bytes, memberTexts, List.cons_append, List.append_assoc, List.append_assoc]
    exact (value_empty gap rest).2
  | .object gap (member :: more) =>
    simp only [Phrase.bytes, List.length_cons, List.length_append] at hfuel
    obtain ⟨fuel, rfl⟩ : ∃ f, fuel = f + 2 := ⟨fuel - 2, by omega⟩
    have hread := members_phrases (member :: more) nofun (fuel + 2) rest (by omega)
    obtain ⟨tail, hbegins⟩ := skipBlanks_members gap member more (0x7d :: rest)
    rw [Phrase.bytes, List.cons_append, List.append_assoc, List.append_assoc,
      List.singleton_append, value_members hbegins (by decide), members_blanks, hread]
    rfl

/-- Items are read as their trees, up to the end of their list. -/
theorem items_phrases (list : List (Margin × Phrase)) (hne : list ≠ []) (fuel : Nat)
    (rest : List UInt8) (hfuel : 2 * (commaSeparated (itemTexts list)).length + 2 ≤ fuel) :
    items fuel (commaSeparated (itemTexts list) ++ 0x5d :: rest) = (itemTrees list, none, rest) := by
  match list with
  | [] => exact absurd rfl hne
  | [(m, p)] =>
    simp only [itemTexts, commaSeparated_singleton, List.length_append] at hfuel
    obtain ⟨fuel, rfl⟩ : ∃ f, fuel = f + 2 := ⟨fuel - 2, by omega⟩
    have hitem := value_phrase p (fuel + 1) (m.after.bytes ++ 0x5d :: rest) (by omega)
      (endsNumber_blanks _ (endsNumber_cons (by decide)))
    rw [itemTexts, itemTexts, commaSeparated_singleton, items_step hitem,
      continuation_close (c := 0x5d) (by decide) (by decide)]
    rfl
  | (m, p) :: next :: more =>
    simp only [itemTexts, commaSeparated_cons_cons, List.length_append, List.length_cons] at hfuel
    obtain ⟨fuel, rfl⟩ : ∃ f, fuel = f + 2 := ⟨fuel - 2, by omega⟩
    have hitem := value_phrase p (fuel + 1)
      (m.after.bytes ++ 0x2c :: (commaSeparated (itemTexts (next :: more)) ++ 0x5d :: rest))
      (by omega) (endsNumber_blanks _ (endsNumber_cons (by decide)))
    have hmore := items_phrases (next :: more) nofun (fuel + 1) rest (by
      simp only [itemTexts]
      omega)
    rw [itemTexts, itemTexts, commaSeparated_cons_cons, List.append_assoc, List.cons_append,
      ← itemTexts, items_step hitem, continuation_comma]
    simp only [hmore]
    rfl

/-- Members are read as their trees, up to the end of their object. -/
theorem members_phrases (list : List (Label × Phrase)) (hne : list ≠ []) (fuel : Nat)
    (rest : List UInt8) (hfuel : 2 * (commaSeparated (memberTexts list)).length + 2 ≤ fuel) :
    members fuel (commaSeparated (memberTexts list) ++ 0x7d :: rest) =
      (memberTrees list, none, rest) := by
  match list with
  | [] => exact absurd rfl hne
  | [(l, p)] =>
    simp only [memberTexts, commaSeparated_singleton, List.length_append] at hfuel
    obtain ⟨fuel, rfl⟩ : ∃ f, fuel = f + 2 := ⟨fuel - 2, by omega⟩
    have hitem := value_phrase p (fuel + 1) (l.margin.after.bytes ++ 0x7d :: rest) (by omega)
      (endsNumber_blanks _ (endsNumber_cons (by decide)))
    rw [memberTexts, memberTexts, commaSeparated_singleton, members_step hitem,
      continuation_close (c := 0x7d) (by decide) (by decide)]
    rfl
  | (l, p) :: next :: more =>
    simp only [memberTexts, commaSeparated_cons_cons, List.length_append, List.length_cons]
      at hfuel
    obtain ⟨fuel, rfl⟩ : ∃ f, fuel = f + 2 := ⟨fuel - 2, by omega⟩
    have hitem := value_phrase p (fuel + 1)
      (l.margin.after.bytes ++
        0x2c :: (commaSeparated (memberTexts (next :: more)) ++ 0x7d :: rest))
      (by omega) (endsNumber_blanks _ (endsNumber_cons (by decide)))
    have hmore := members_phrases (next :: more) nofun (fuel + 1) rest (by
      simp only [memberTexts]
      omega)
    rw [memberTexts, memberTexts, commaSeparated_cons_cons, List.append_assoc, List.cons_append,
      ← memberTexts, members_step hitem, continuation_comma]
    simp only [hmore]
    rfl

end

/-! ## Whole texts -/

/-- The reader meets the phrase of a text, and nothing behind it. -/
theorem document_script (s : Script) : document s.bytes = ⟨s.phrase.tree, false⟩ := by
  have hblanks : skipBlanks s.margin.after.bytes = [] := by
    have hall := skipBlanks_blanks s.margin.after []
    rwa [List.append_nil] at hall
  have hvalue : value (2 * s.bytes.length + 2) s.bytes = (s.phrase.tree, s.margin.after.bytes) := by
    have hends := endsNumber_blanks s.margin.after endsNumber_nil
    rw [List.append_nil] at hends
    conv => lhs; arg 2; rw [Script.bytes, List.append_assoc]
    rw [value_blanks]
    refine value_phrase s.phrase _ _ ?_ hends
    simp only [Script.bytes, List.length_append]
    omega
  rw [document, hvalue]
  simp [hblanks]

/-- A text decodes to what its phrase is read as. -/
theorem decode_script {α : Type} (read : Reader α) (s : Script) :
    decode read s.bytes = read s.phrase.tree := by
  rw [decode, document_script]
  cases read s.phrase.tree <;> rfl

end NodeScrape.Json
