import NodeScrape.Proofs.Json.Grammar

/-!
# Texts taken apart

A text whose tree has no fault can be taken apart into a phrase. So the texts that are read without a
fault are exactly those of the grammar.
-/

namespace NodeScrape.Json

variable {b : UInt8} {bytes rest : List UInt8} {fuel : Nat}

/-! ## What separates values -/

/-- Blanks at the start of a text. -/
theorem exists_blanks (bytes : List UInt8) :
    ∃ gap : Blanks, bytes = gap.bytes ++ skipBlanks bytes :=
  ⟨⟨bytes.takeWhile isBlank, List.all_eq_true.mp List.all_takeWhile⟩,
    List.takeWhile_append_dropWhile.symm⟩

/-- A list goes on behind a comma. -/
theorem exists_of_continuation_more {close : UInt8} (h : continuation close bytes = .more rest) :
    ∃ gap : Blanks, bytes = gap.bytes ++ 0x2c :: rest := by
  obtain ⟨gap, hgap⟩ := exists_blanks bytes
  refine ⟨gap, ?_⟩
  unfold continuation at h
  cases hskip : skipBlanks bytes with
  | nil =>
    rw [hskip] at h
    cases h
  | cons b after =>
    simp only [hskip] at h
    split at h
    next hb =>
      rw [hgap, hskip, hb, Continuation.more.inj h]
    split at h <;> cases h

/-- A list ends well at its end. -/
theorem exists_of_continuation_stop {close : UInt8} (h : continuation close bytes = .stop none rest) :
    ∃ gap : Blanks, bytes = gap.bytes ++ close :: rest := by
  obtain ⟨gap, hgap⟩ := exists_blanks bytes
  refine ⟨gap, ?_⟩
  unfold continuation at h
  cases hskip : skipBlanks bytes with
  | nil =>
    rw [hskip] at h
    cases h
  | cons b after =>
    simp only [hskip] at h
    split at h
    next => cases h
    split at h
    next hb => rw [hgap, hskip, hb, (Continuation.stop.inj h).2]
    next => cases h

/-- Two places without a fault. -/
private theorem orElse_eq_none {a b : Option Fault} (h : (a <|> b) = none) : a = none ∧ b = none := by
  cases a with
  | none => exact ⟨rfl, h⟩
  | some fault => cases h

/-- A literal without a fault stands there to its last letter. -/
theorem eq_of_literal {v : Value} {word : List UInt8}
    (h : (literal v word bytes).1.skip = none) :
    (literal v word bytes).1 = v ∧ bytes = word ++ (literal v word bytes).2 := by
  induction word generalizing bytes with
  | nil => cases bytes <;> exact ⟨rfl, rfl⟩
  | cons w word ih =>
    cases bytes with
    | nil => cases h
    | cons b bytes =>
      rw [literal] at h ⊢
      split at h
      next hb =>
        rw [if_pos hb]
        obtain ⟨hv, hbytes⟩ := ih h
        exact ⟨hv, by rw [hb, List.cons_append, ← hbytes]⟩
      next => cases h

/-- What was read from the start of a text is a phrase. -/
def IsPhrase (bytes : List UInt8) (r : Value × List UInt8) : Prop :=
  ∃ p : Phrase, p.tree = r.1 ∧ bytes = p.bytes ++ r.2

/-- What was read from the start of a text are items, up to the end of their list. -/
def AreItems (bytes : List UInt8) (r : List Value × Option Fault × List UInt8) : Prop :=
  ∃ list : List (Margin × Phrase), list ≠ [] ∧ itemTrees list = r.1 ∧
    bytes = commaSeparated (itemTexts list) ++ 0x5d :: r.2.2

/-- What was read from the start of a text are members, up to the end of their object. -/
def AreMembers (bytes : List UInt8) (r : List (Value × Value) × Option Fault × List UInt8) : Prop :=
  ∃ list : List (Label × Phrase), list ≠ [] ∧ memberTrees list = r.1 ∧
    bytes = commaSeparated (memberTexts list) ++ 0x7d :: r.2.2

private theorem isPhrase_string (h : (value (fuel + 1) (0x22 :: rest)).1.skip = none) :
    IsPhrase (0x22 :: rest) (value (fuel + 1) (0x22 :: rest)) := by
  have hvalue : value (fuel + 1) (0x22 :: rest) =
      (.text (textToken rest).1, (textToken rest).2) := by
    rw [value, skipBlanks_cons (by decide)]
    rfl
  rw [hvalue] at h ⊢
  obtain ⟨s, hs, hrest⟩ := spelled_of_textToken rest h
  refine ⟨.text s, congrArg Value.text hs, ?_⟩
  conv => lhs; rw [hrest]
  simp [Phrase.bytes, StringText.bytes]

private theorem isPhrase_list
    (hitems : ∀ bytes, skipItems (items fuel bytes).1 = none → (items fuel bytes).2.1 = none →
      AreItems bytes (items fuel bytes))
    (h : (value (fuel + 1) (0x5b :: rest)).1.skip = none) :
    IsPhrase (0x5b :: rest) (value (fuel + 1) (0x5b :: rest)) := by
  obtain ⟨gap, hgap⟩ := exists_blanks rest
  cases hskip : skipBlanks rest with
  | nil =>
    have hvalue : value (fuel + 1) (0x5b :: rest) = (.array [] (some .truncated), []) := by
      rw [value, skipBlanks_cons (by decide)]
      simp only [hskip]
      rfl
    rw [hvalue] at h
    cases h
  | cons c after =>
    by_cases hc : c = 0x5d
    · rw [hgap, hskip, hc, (value_empty gap after).1]
      exact ⟨.array gap [], rfl, by simp [Phrase.bytes, itemTexts, commaSeparated]⟩
    · rw [value_items hskip hc] at h ⊢
      obtain ⟨hskipped, hfault⟩ := orElse_eq_none h
      obtain ⟨list, -, htrees, hbytes⟩ := hitems rest hskipped hfault
      refine ⟨.array .none list, ?_, ?_⟩
      · rw [Phrase.tree, htrees, hfault]
      · conv => lhs; rw [hbytes]
        simp [Phrase.bytes, Blanks.none]

private theorem isPhrase_object
    (hmembers : ∀ bytes, skipMembers (members fuel bytes).1 = none →
      (members fuel bytes).2.1 = none → AreMembers bytes (members fuel bytes))
    (h : (value (fuel + 1) (0x7b :: rest)).1.skip = none) :
    IsPhrase (0x7b :: rest) (value (fuel + 1) (0x7b :: rest)) := by
  obtain ⟨gap, hgap⟩ := exists_blanks rest
  cases hskip : skipBlanks rest with
  | nil =>
    have hvalue : value (fuel + 1) (0x7b :: rest) = (.object [] (some .truncated), []) := by
      rw [value, skipBlanks_cons (by decide)]
      simp only [hskip]
      rfl
    rw [hvalue] at h
    cases h
  | cons c after =>
    by_cases hc : c = 0x7d
    · rw [hgap, hskip, hc, (value_empty gap after).2]
      exact ⟨.object gap [], rfl, by simp [Phrase.bytes, memberTexts, commaSeparated]⟩
    · rw [value_members hskip hc] at h ⊢
      obtain ⟨hskipped, hfault⟩ := orElse_eq_none h
      obtain ⟨list, -, htrees, hbytes⟩ := hmembers rest hskipped hfault
      refine ⟨.object .none list, ?_, ?_⟩
      · rw [Phrase.tree, htrees, hfault]
      · conv => lhs; rw [hbytes]
        simp [Phrase.bytes, Blanks.none]

private theorem isPhrase_number (hb : b = 0x2d ∨ (digit? b).isSome = true)
    (h : (value (fuel + 1) (b :: rest)).1.skip = none) :
    IsPhrase (b :: rest) (value (fuel + 1) (b :: rest)) := by
  rw [value_beginsNumber hb] at h ⊢
  cases hread : numberToken (b = 0x2d) (if b = 0x2d then rest else b :: rest) with
  | error atEnd =>
    rw [hread] at h
    cases h
  | ok r =>
    obtain ⟨token, after⟩ := r
    obtain ⟨n, hnegative, htoken, hbytes⟩ := spelled_of_numberToken hread
    refine ⟨.number n, congrArg Value.number htoken, ?_⟩
    rw [Phrase.bytes, NumberText.bytes, hnegative, List.append_assoc, ← hbytes]
    by_cases hminus : b = 0x2d
    · simp [hminus]
    · simp [hminus]

/-- A literal without a fault is the phrase whose text it completes. -/
private theorem isPhrase_literal {p : Phrase} {word : List UInt8} (hp : p.bytes = b :: word)
    (h : (literal p.tree word rest).1.skip = none) :
    IsPhrase (b :: rest) (literal p.tree word rest) := by
  obtain ⟨hv, hrest⟩ := eq_of_literal h
  refine ⟨p, hv.symm, ?_⟩
  rw [hp, List.cons_append, ← hrest]

/-- A value without a fault is a phrase, if so are the items and members of lists and objects. -/
private theorem isPhrase_value
    (hitems : ∀ bytes, skipItems (items fuel bytes).1 = none → (items fuel bytes).2.1 = none →
      AreItems bytes (items fuel bytes))
    (hmembers : ∀ bytes, skipMembers (members fuel bytes).1 = none →
      (members fuel bytes).2.1 = none → AreMembers bytes (members fuel bytes))
    (hb : isBlank b = false) (h : (value (fuel + 1) (b :: rest)).1.skip = none) :
    IsPhrase (b :: rest) (value (fuel + 1) (b :: rest)) := by
  by_cases hquote : b = 0x22
  · subst hquote
    exact isPhrase_string h
  by_cases hbracket : b = 0x5b
  · subst hbracket
    exact isPhrase_list hitems h
  by_cases hbrace : b = 0x7b
  · subst hbrace
    exact isPhrase_object hmembers h
  by_cases hnumber : b = 0x2d ∨ (digit? b).isSome = true
  · exact isPhrase_number hnumber h
  have hother : (decide (b = 0x2d) || (digit? b).isSome) = false := by simpa using hnumber
  rw [value, skipBlanks_cons hb] at h ⊢
  simp only [if_neg hquote, if_neg hbracket, if_neg hbrace, hother] at h ⊢
  by_cases hnull : b = 0x6e
  · rw [if_pos hnull] at h ⊢
    exact isPhrase_literal (p := .null) (by rw [hnull]; rfl) h
  rw [if_neg hnull] at h ⊢
  by_cases htrue : b = 0x74
  · rw [if_pos htrue] at h ⊢
    exact isPhrase_literal (p := .boolean true) (by rw [htrue]; rfl) h
  rw [if_neg htrue] at h ⊢
  by_cases hfalse : b = 0x66
  · rw [if_pos hfalse] at h ⊢
    exact isPhrase_literal (p := .boolean false) (by rw [hfalse]; rfl) h
  rw [if_neg hfalse] at h
  cases h

/-- A value behind blanks. -/
def IsBehind (bytes : List UInt8) (r : Value × List UInt8) : Prop :=
  ∃ gap : Blanks, ∃ p : Phrase, p.tree = r.1 ∧ bytes = gap.bytes ++ (p.bytes ++ r.2)

/-- One more item in front of a list. -/
private theorem areItems_step
    (hvalue : ∀ bytes, (value fuel bytes).1.skip = none → IsBehind bytes (value fuel bytes))
    (hitems : ∀ bytes, skipItems (items fuel bytes).1 = none → (items fuel bytes).2.1 = none →
      AreItems bytes (items fuel bytes))
    (hskip : skipItems (items (fuel + 1) bytes).1 = none)
    (hfault : (items (fuel + 1) bytes).2.1 = none) :
    AreItems bytes (items (fuel + 1) bytes) := by
  rw [items_succ] at hskip hfault ⊢
  cases hnext : continuation 0x5d (value fuel bytes).2 with
  | more rest =>
    simp only [hnext] at hskip hfault ⊢
    obtain ⟨hitem, hmore⟩ := orElse_eq_none hskip
    obtain ⟨before, p, hp, hbytes⟩ := hvalue bytes hitem
    obtain ⟨after, hafter⟩ := exists_of_continuation_more hnext
    obtain ⟨list, hne, htrees, hrest⟩ := hitems rest hmore hfault
    obtain ⟨next, more, rfl⟩ := List.exists_cons_of_ne_nil hne
    refine ⟨(⟨before, after⟩, p) :: next :: more, List.cons_ne_nil _ _,
      by rw [itemTrees, hp, htrees], ?_⟩
    conv => lhs; rw [hbytes, hafter, hrest]
    simp only [itemTexts, commaSeparated_cons_cons, List.append_assoc, List.cons_append]
  | stop fault rest =>
    simp only [hnext] at hskip hfault ⊢
    obtain ⟨before, p, hp, hbytes⟩ := hvalue bytes (orElse_eq_none hskip).1
    obtain ⟨after, hafter⟩ := exists_of_continuation_stop (hfault ▸ hnext)
    refine ⟨[(⟨before, after⟩, p)], List.cons_ne_nil _ _, by rw [itemTrees, hp]; rfl, ?_⟩
    conv => lhs; rw [hbytes, hafter]
    simp only [itemTexts, commaSeparated_singleton, List.append_assoc]

/-- The value of a member without a fault follows its colon. -/
private theorem exists_of_memberValue
    (hvalue : ∀ bytes, (value fuel bytes).1.skip = none → IsBehind bytes (value fuel bytes))
    (hskip : (memberValue fuel bytes).1.skip = none) :
    ∃ after before : Blanks, ∃ p : Phrase, p.tree = (memberValue fuel bytes).1 ∧
      bytes = after.bytes ++ 0x3a :: (before.bytes ++ (p.bytes ++ (memberValue fuel bytes).2)) := by
  obtain ⟨after, hafter⟩ := exists_blanks bytes
  unfold memberValue at hskip ⊢
  cases hcolon : skipBlanks bytes with
  | nil =>
    rw [hcolon] at hskip
    cases hskip
  | cons b rest =>
    simp only [hcolon] at hskip ⊢
    by_cases hb : b = 0x3a
    · rw [if_pos hb] at hskip ⊢
      obtain ⟨before, p, hp, hrest⟩ := hvalue rest hskip
      refine ⟨after, before, p, hp, ?_⟩
      rw [← hrest, ← hb, ← hcolon, ← hafter]
    · rw [if_neg hb] at hskip
      cases hskip

/-- Only a string is the name of a member without a fault. -/
private theorem eq_text_of_skipMembers {name v : Value} {more : List (Value × Value)}
    (h : skipMembers ((name, v) :: more) = none) :
    (∃ token, name = .text token) ∧ name.skip = none ∧ v.skip = none ∧ skipMembers more = none := by
  cases name with
  | text token =>
    obtain ⟨hname, hrest⟩ := orElse_eq_none h
    exact ⟨⟨token, rfl⟩, hname, orElse_eq_none hrest⟩
  | _ => cases h

/-- A phrase that is read as a string is one. -/
private theorem eq_text_of_tree {p : Phrase} {token : TextToken} (h : p.tree = .text token) :
    ∃ s : StringText, p = .text s ∧ s.token = token := by
  cases p with
  | text s => exact ⟨s, rfl, Value.text.inj h⟩
  | _ => cases h

/-- One more member in front of an object's. -/
private theorem areMembers_step
    (hvalue : ∀ bytes, (value fuel bytes).1.skip = none → IsBehind bytes (value fuel bytes))
    (hmembers : ∀ bytes, skipMembers (members fuel bytes).1 = none →
      (members fuel bytes).2.1 = none → AreMembers bytes (members fuel bytes))
    (hskip : skipMembers (members (fuel + 1) bytes).1 = none)
    (hfault : (members (fuel + 1) bytes).2.1 = none) :
    AreMembers bytes (members (fuel + 1) bytes) := by
  rw [members_succ] at hskip hfault ⊢
  cases hnext : continuation 0x7d (memberValue fuel (value fuel bytes).2).2 with
  | more rest =>
    simp only [hnext] at hskip hfault ⊢
    obtain ⟨⟨token, htoken⟩, hname, hitem, hmore⟩ := eq_text_of_skipMembers hskip
    obtain ⟨gap, q, hq, hbytes⟩ := hvalue bytes hname
    obtain ⟨name, rfl, hspelled⟩ := eq_text_of_tree (hq.trans htoken)
    obtain ⟨colon, before, p, hp, hcolon⟩ := exists_of_memberValue hvalue hitem
    obtain ⟨after, hafter⟩ := exists_of_continuation_more hnext
    obtain ⟨list, hne, htrees, hrest⟩ := hmembers rest hmore hfault
    obtain ⟨next, more, rfl⟩ := List.exists_cons_of_ne_nil hne
    refine ⟨(⟨gap, name, colon, before, after⟩, p) :: next :: more, List.cons_ne_nil _ _,
      by rw [memberTrees, hp, htrees, htoken, hspelled], ?_⟩
    conv => lhs; rw [hbytes, hcolon, hafter, hrest]
    simp only [memberTexts, Label.bytes, Phrase.bytes, commaSeparated_cons_cons, List.append_assoc,
      List.cons_append]
  | stop fault rest =>
    simp only [hnext] at hskip hfault ⊢
    obtain ⟨⟨token, htoken⟩, hname, hitem, -⟩ := eq_text_of_skipMembers hskip
    obtain ⟨gap, q, hq, hbytes⟩ := hvalue bytes hname
    obtain ⟨name, rfl, hspelled⟩ := eq_text_of_tree (hq.trans htoken)
    obtain ⟨colon, before, p, hp, hcolon⟩ := exists_of_memberValue hvalue hitem
    obtain ⟨after, hafter⟩ := exists_of_continuation_stop (hfault ▸ hnext)
    refine ⟨[(⟨gap, name, colon, before, after⟩, p)], List.cons_ne_nil _ _,
      by rw [memberTrees, hp, htoken, hspelled]; rfl, ?_⟩
    conv => lhs; rw [hbytes, hcolon, hafter]
    simp only [memberTexts, Label.bytes, Phrase.bytes, commaSeparated_singleton, List.append_assoc,
      List.cons_append]

/-- What is read without a fault are phrases, items and members. -/
private theorem phrases_of_read (fuel : Nat) :
    (∀ bytes, (value fuel bytes).1.skip = none → IsBehind bytes (value fuel bytes)) ∧
    (∀ bytes, skipItems (items fuel bytes).1 = none → (items fuel bytes).2.1 = none →
      AreItems bytes (items fuel bytes)) ∧
    (∀ bytes, skipMembers (members fuel bytes).1 = none → (members fuel bytes).2.1 = none →
      AreMembers bytes (members fuel bytes)) := by
  induction fuel with
  | zero =>
    refine ⟨fun bytes h => ?_, fun bytes _ h => ?_, fun bytes _ h => ?_⟩
    · rw [value] at h
      cases h
    · rw [items] at h
      cases h
    · rw [members] at h
      cases h
  | succ fuel ih =>
    obtain ⟨hvalue, hitems, hmembers⟩ := ih
    refine ⟨fun bytes h => ?_, fun bytes => areItems_step hvalue hitems,
      fun bytes => areMembers_step hvalue hmembers⟩
    obtain ⟨gap, hgap⟩ := exists_blanks bytes
    cases hskip : skipBlanks bytes with
    | nil =>
      rw [value, hskip] at h
      cases h
    | cons b rest =>
      have hb : isBlank b = false := by
        have hhead := List.head?_dropWhile_not isBlank bytes
        rw [← skipBlanks, hskip] at hhead
        simpa using hhead
      rw [hgap, value_blanks, hskip] at h ⊢
      obtain ⟨p, hp, hbytes⟩ := isPhrase_value hitems hmembers hb h
      exact ⟨gap, p, hp, congrArg (gap.bytes ++ ·) hbytes⟩

/-! ## Whole texts -/

/-- A document without a fault, and with nothing behind its value, is a text. -/
theorem exists_script (hskip : (document bytes).value.skip = none)
    (htrailing : (document bytes).trailing = false) : ∃ s : Script, s.bytes = bytes := by
  obtain ⟨before, p, -, hbytes⟩ := (phrases_of_read (2 * bytes.length + 2)).1 bytes hskip
  obtain ⟨after, hafter⟩ := exists_blanks (value (2 * bytes.length + 2) bytes).2
  have hend : skipBlanks (value (2 * bytes.length + 2) bytes).2 = [] := by
    simpa [document] using htrailing
  refine ⟨⟨⟨before, after⟩, p⟩, ?_⟩
  rw [hend, List.append_nil] at hafter
  rw [Script.bytes, ← hafter, List.append_assoc, ← hbytes]

/-- What a reader that notices every fault can decode is a text. -/
theorem exists_script_of_decode {α : Type} {read : Reader α} {a : α}
    (hread : ∀ v a, read v = .ok a → v.skip = none) (h : decode read bytes = .ok a) :
    ∃ s : Script, s.bytes = bytes := by
  dsimp only [decode] at h
  cases hvalue : read (document bytes).value with
  | error e =>
    rw [hvalue] at h
    cases h
  | ok a' =>
    rw [hvalue] at h
    refine exists_script (hread _ _ hvalue) ?_
    cases htrailing : (document bytes).trailing with
    | false => rfl
    | true =>
      rw [htrailing] at h
      cases h

end NodeScrape.Json
