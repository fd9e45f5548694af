import NodeScrape.Proofs.Json.Number
import NodeScrape.Proofs.Json.Spelling

/-!
# JSON data read back from its text

Written data is read as a tree without a fault: its strings and numbers as their tokens, its items
and members in their order, and nothing of what follows it.
-/

namespace NodeScrape.Json

mutual

/-- The tree as which written data is read. -/
def Data.toValue : Data → Value
  | .null => .null
  | .boolean b => .boolean b
  | .number n => .number (.ofNat n)
  | .text s => .text (.ofString s)
  | .array items => .array (valuesOf items) none
  | .object members => .object (membersOf members) none

/-- The trees of items. -/
def valuesOf : List Data → List Value
  | [] => []
  | item :: rest => item.toValue :: valuesOf rest

/-- The trees of members, under the tokens of their names. -/
def membersOf : List (String × Data) → List (Value × Value)
  | [] => []
  | (name, item) :: rest => (.text (.ofString name), item.toValue) :: membersOf rest

end

variable {b : UInt8} {rest : List UInt8}

/-! ## The first byte of a value -/

theorem skipBlanks_cons (hb : isBlank b = false) : skipBlanks (b :: rest) = b :: rest :=
  List.dropWhile_cons_of_neg (by simp [hb])

/-- A byte with which a value begins: no blank, and none that ends a list or object. -/
def BeginsValue (b : UInt8) : Prop := isBlank b = false ∧ b ≠ 0x5d ∧ b ≠ 0x7d

instance (b : UInt8) : Decidable (BeginsValue b) := by
  unfold BeginsValue
  infer_instance

/-- The decimal digits among the bytes. -/
theorem le_of_digit? {d : Nat} (hb : digit? b = some d) : 48 ≤ b.toNat ∧ b.toNat ≤ 57 := by
  unfold digit? at hb
  split at hb
  next hrange => simpa [UInt8.le_iff_toNat_le] using hrange
  next => cases hb

/-- A digit is none of the other bytes that begin a value. -/
theorem digit_ne {d : Nat} (hb : digit? b = some d) {c : UInt8}
    (hc : c.toNat < 48 ∨ 57 < c.toNat) : b ≠ c := by
  rintro rfl
  have hrange := le_of_digit? hb
  omega

/-- A number begins with a digit. -/
theorem writtenNat_head (n : Nat) : ∃ b tail d, writtenNat n = b :: tail ∧ digit? b = some d := by
  obtain ⟨c, digits, hc⟩ := List.exists_cons_of_ne_nil (Nat.toDigits_ne_nil (n := n) (b := 10))
  have hdigit : c.isDigit = true :=
    Nat.isDigit_of_mem_toDigits (by decide) (by decide) (hc ▸ List.mem_cons_self)
  have hhead : writtenNat n = UInt8.ofNat c.toNat :: digits.map fun c => UInt8.ofNat c.toNat := by
    rw [writtenNat, hc, List.map_cons]
  exact ⟨_, _, _, hhead, digit?_of_isDigit hdigit⟩

/-- Written data begins a value. -/
theorem render_head (data : Data) : ∃ b tail, data.render = b :: tail ∧ BeginsValue b := by
  cases data with
  | null => exact ⟨_, _, rfl, by decide⟩
  | boolean value =>
    cases value with
    | false => exact ⟨_, _, rfl, by decide⟩
    | true => exact ⟨_, _, rfl, by decide⟩
  | number n =>
    obtain ⟨b, tail, d, hhead, hdigit⟩ := writtenNat_head n
    have hrange := le_of_digit? hdigit
    have hblank : isBlank b = false := by
      simp only [isBlank, digit_ne hdigit (c := 0x20) (by decide),
        digit_ne hdigit (c := 0x0a) (by decide), digit_ne hdigit (c := 0x0d) (by decide),
        digit_ne hdigit (c := 0x09) (by decide)]
      rfl
    exact ⟨b, tail, hhead, hblank, digit_ne hdigit (by decide), digit_ne hdigit (by decide)⟩
  | text s => exact ⟨_, _, rfl, by decide⟩
  | array items => exact ⟨_, _, rfl, by decide⟩
  | object members => exact ⟨_, _, rfl, by decide⟩

/-! ## Reading what is written -/

variable {fuel : Nat}

/-- A literal is read to its last letter. -/
theorem literal_append (v : Value) (word rest : List UInt8) :
    literal v word (word ++ rest) = (v, rest) := by
  induction word with
  | nil => cases rest <;> rfl
  | cons w word ih => rw [List.cons_append, literal, if_pos rfl, ih]

/-- A written string is read as its token. -/
theorem value_writtenText (text : String) (rest : List UInt8) :
    value (fuel + 1) (writtenText text ++ rest) = (.text (.ofString text), rest) := by
  rw [writtenText_append, value, skipBlanks_cons (by decide)]
  simp only [textToken_flatMap_writtenByte, if_true]
  rfl

/-- A written number is read as its token. -/
theorem value_writtenNat (n : Nat) (hrest : EndsNumber rest) :
    value (fuel + 1) (writtenNat n ++ rest) = (.number (.ofNat n), rest) := by
  obtain ⟨b, tail, d, hhead, hdigit⟩ := writtenNat_head n
  have hread := numberToken_writtenNat (n := n) hrest
  obtain ⟨b', tail', hhead', hblank, -⟩ := render_head (.number n)
  obtain rfl : b = b' := (List.cons.inj (hhead.symm.trans hhead')).1
  rw [hhead, List.cons_append] at hread ⊢
  have hsome : (digit? b).isSome = true := by simp [hdigit]
  rw [value, skipBlanks_cons hblank]
  simp only [if_neg (digit_ne hdigit (c := 0x22) (by decide)),
    if_neg (digit_ne hdigit (c := 0x5b) (by decide)),
    if_neg (digit_ne hdigit (c := 0x7b) (by decide)),
    if_neg (digit_ne hdigit (c := 0x6e) (by decide)),
    if_neg (digit_ne hdigit (c := 0x74) (by decide)),
    if_neg (digit_ne hdigit (c := 0x66) (by decide)),
    digit_ne hdigit (c := 0x2d) (by decide), hsome, decide_false, Bool.false_or, if_true,
    if_false, hread]

/-- What follows an item of a list: a comma or the end. -/
theorem continuation_comma (close : UInt8) (rest : List UInt8) :
    continuation close (0x2c :: rest) = .more rest := rfl

theorem continuation_close {c : UInt8} (hblank : isBlank c = false) (hcomma : c ≠ 0x2c)
    (rest : List UInt8) : continuation c (c :: rest) = .stop none rest := by
  rw [continuation, skipBlanks_cons hblank]
  simp only [if_neg hcomma, if_true]

theorem renderItems_cons_cons (item next : Data) (more : List Data) :
    renderItems (item :: next :: more) = item.render ++ 0x2c :: renderItems (next :: more) := by
  rw [renderItems]
  exact nofun

theorem renderMembers_cons_cons (name : String) (item : Data) (next : String × Data)
    (more : List (String × Data)) :
    renderMembers ((name, item) :: next :: more) =
      writtenText name ++ 0x3a :: item.render ++ 0x2c :: renderMembers (next :: more) := by
  rw [renderMembers]
  exact nofun

/-- The items of a written list begin with a value. -/
theorem renderItems_head (item : Data) (more : List Data) :
    ∃ b tail, renderItems (item :: more) = b :: tail ∧ BeginsValue b := by
  obtain ⟨b, tail, hhead, hb⟩ := render_head item
  cases more with
  | nil => exact ⟨b, tail ++ [0x5d], by rw [renderItems, hhead, List.cons_append], hb⟩
  | cons next more =>
    exact ⟨b, tail ++ 0x2c :: renderItems (next :: more),
      by rw [renderItems_cons_cons, hhead, List.cons_append], hb⟩

/-- A list that is not empty is read item by item. -/
theorem value_array {b : UInt8} {tail : List UInt8} (hb : BeginsValue b) :
    value (fuel + 1) (0x5b :: b :: tail) =
      (.array (items fuel (b :: tail)).1 (items fuel (b :: tail)).2.1,
        (items fuel (b :: tail)).2.2) := by
  obtain ⟨hblank, hclose, -⟩ := hb
  rw [value, skipBlanks_cons (by decide)]
  simp only [skipBlanks_cons hblank, if_neg hclose]
  rfl

/-- An object that is not empty is read member by member. -/
theorem value_object {b : UInt8} {tail : List UInt8} (hb : BeginsValue b) :
    value (fuel + 1) (0x7b :: b :: tail) =
      (.object (members fuel (b :: tail)).1 (members fuel (b :: tail)).2.1,
        (members fuel (b :: tail)).2.2) := by
  obtain ⟨hblank, -, hclose⟩ := hb
  rw [value, skipBlanks_cons (by decide)]
  simp only [skipBlanks_cons hblank, if_neg hclose]
  rfl

/-- A member's name, a colon, and its value. -/
theorem members_cons {name : String} {bytes after : List UInt8} {item : Value}
    (hitem : value (fuel + 1) bytes = (item, after)) :
    members (fuel + 2) (writtenText name ++ 0x3a :: bytes) =
      match continuation 0x7d after with
      | .more rest =>
        ((.text (.ofString name), item) :: (members (fuel + 1) rest).1,
          (members (fuel + 1) rest).2)
      | .stop fault rest => ([(.text (.ofString name), item)], fault, rest) := by
  rw [members, value_writtenText]
  cases hnext : continuation 0x7d after <;>
    simp only [skipBlanks_cons (b := 0x3a) (by decide), if_true, hitem, hnext]

mutual

/-- Written data is read as its tree, where no number goes on behind it. -/
theorem value_render (data : Data) (fuel : Nat) (rest : List UInt8)
    (hfuel : 2 * data.render.length ≤ fuel) (hrest : EndsNumber rest) :
    value fuel (data.render ++ rest) = (data.toValue, rest) := by
  obtain ⟨b, tail, hhead, -⟩ := render_head data
  have hpos : 0 < data.render.length := by simp [hhead]
  obtain ⟨fuel, rfl⟩ : ∃ f, fuel = f + 1 := ⟨fuel - 1, by omega⟩
  match data with
  | .null => exact literal_append .null [0x75, 0x6c, 0x6c] rest
  | .boolean false => exact literal_append (.boolean false) [0x61, 0x6c, 0x73, 0x65] rest
  | .boolean true => exact literal_append (.boolean true) [0x72, 0x75, 0x65] rest
  | .number n => exact value_writtenNat n hrest
  | .text s => exact value_writtenText s rest
  | .array [] => rfl
  | .array (item :: more) =>
    obtain ⟨b, tail, hhead, hb⟩ := renderItems_head item more
    have hread := items_renderItems (item :: more) nofun fuel rest (by
      simp only [Data.render, List.length_cons] at hfuel
      omega)
    rw [Data.render, List.cons_append, hhead, List.cons_append, value_array hb,
      ← List.cons_append, ← hhead, hread]
    rfl
  | .object [] => rfl
  | .object ((name, item) :: more) =>
    have hread := members_renderMembers ((name, item) :: more) nofun fuel rest (by
      simp only [Data.render, List.length_cons] at hfuel
      omega)
    obtain ⟨tail, hhead⟩ : ∃ tail, renderMembers ((name, item) :: more) = 0x22 :: tail := by
      cases more with
      | nil => exact ⟨_, rfl⟩
      | cons next more => exact ⟨_, rfl⟩
    rw [Data.render, List.cons_append, hhead, List.cons_append, value_object (by decide),
      ← List.cons_append, ← hhead, hread]
    rfl

/-- Written items are read as their trees, up to the end of their list. -/
theorem items_renderItems (list : List Data) (hne : list ≠ []) (fuel : Nat) (rest : List UInt8)
    (hfuel : 2 * (renderItems list).length ≤ fuel) :
    items fuel (renderItems list ++ rest) = (valuesOf list, none, rest) := by
  match list with
  | [] => exact absurd rfl hne
  | [item] =>
    simp only [renderItems, List.length_append, List.length_singleton] at hfuel
    obtain ⟨fuel, rfl⟩ : ∃ f, fuel = f + 1 := ⟨fuel - 1, by omega⟩
    have hitem := value_render item fuel (0x5d :: rest) (by omega) (endsNumber_cons (by decide))
    rw [renderItems, List.append_assoc, List.singleton_append, items, hitem]
    simp only [continuation_close (c := 0x5d) (by decide) (by decide)]
    rfl
  | item :: next :: more =>
    simp only [renderItems_cons_cons, List.length_append, List.length_cons] at hfuel
    obtain ⟨fuel, rfl⟩ : ∃ f, fuel = f + 1 := ⟨fuel - 1, by omega⟩
    have hitem := value_render item fuel (0x2c :: (renderItems (next :: more) ++ rest)) (by omega)
      (endsNumber_cons (by decide))
    have hmore := items_renderItems (next :: more) nofun fuel rest (by omega)
    rw [renderItems_cons_cons, List.append_assoc, List.cons_append, items, hitem]
    simp only [continuation_comma, hmore]
    rfl

/-- Written members are read as their trees, up to the end of their object. -/
theorem members_renderMembers (list : List (String × Data)) (hne : list ≠ []) (fuel : Nat)
    (rest : List UInt8) (hfuel : 2 * (renderMembers list).length ≤ fuel) :
    members fuel (renderMembers list ++ rest) = (membersOf list, none, rest) := by
  match list with
  | [] => exact absurd rfl hne
  | [(name, item)] =>
    simp only [renderMembers, List.length_append, List.length_cons, List.length_nil] at hfuel
    obtain ⟨fuel, rfl⟩ : ∃ f, fuel = f + 2 := ⟨fuel - 2, by omega⟩
    have hitem := value_render item (fuel + 1) (0x7d :: rest) (by omega)
      (endsNumber_cons (by decide))
    rw [renderMembers, List.append_assoc, List.append_assoc, List.cons_append,
      List.singleton_append, members_cons hitem,
      continuation_close (c := 0x7d) (by decide) (by decide)]
    rfl
  | (name, item) :: next :: more =>
    simp only [renderMembers_cons_cons, List.length_append, List.length_cons] at hfuel
    obtain ⟨fuel, rfl⟩ : ∃ f, fuel = f + 2 := ⟨fuel - 2, by omega⟩
    have hitem := value_render item (fuel + 1) (0x2c :: (renderMembers (next :: more) ++ rest))
      (by omega) (endsNumber_cons (by decide))
    have hmore := members_renderMembers (next :: more) nofun (fuel + 1) rest (by omega)
    rw [renderMembers_cons_cons, List.append_assoc, List.append_assoc, List.cons_append,
      List.cons_append,
      members_cons hitem, continuation_comma]
    simp only [hmore]
    rfl

end

/-- Written data is a whole text, with nothing behind it. -/
theorem document_render (data : Data) : document data.render = ⟨data.toValue, false⟩ := by
  have hread := value_render data (2 * data.render.length + 2) [] (by omega) endsNumber_nil
  rw [List.append_nil] at hread
  rw [document, hread]
  rfl

end NodeScrape.Json
