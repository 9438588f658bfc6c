import BlastRadius.Json.Decode
import BlastRadius.Json.Value
import Mathlib.Tactic.SplitIfs

/-!
Reading a value in its compact form gives the draft of the value and leaves what follows it.
-/

namespace BlastRadius.Json

open Draft (Piece readEscape? readPieces? assemble? readText? skipBlank readValue readItems
  readMembers)

/-- The piece that the escaped form of a character is read as. -/
def pieceOf (c : Char) : Piece :=
  if c.toNat < 32 ∧ c ∉ ['\x08', '\x0c', '\n', '\r', '\t'] then .unit c.toNat else .char c

theorem hexValue_hexDigit (n : Nat) : Text.hexValue? (Text.hexDigit n) = some (n % 16) := by
  have digits : ∀ d < 16, Text.hexValue? ((Nat.toDigits 16 d).headD '0') = some d := by decide
  exact digits _ (Nat.mod_lt n (by decide))

theorem readPieces_escaped (c : Char) (fuel : Nat) (rest : List Char) :
    readPieces? (fuel + 1) (escaped c ++ rest) =
      (readPieces? fuel rest).map fun read => (pieceOf c :: read.1, read.2) := by
  by_cases quote : c = '"'
  · subst quote
    cases h : readPieces? fuel rest <;> simp [escaped, readPieces?, readEscape?, pieceOf, h]
  by_cases slash : c = '\\'
  · subst slash
    cases h : readPieces? fuel rest <;> simp [escaped, readPieces?, readEscape?, pieceOf, h]
  by_cases named : c ∈ ['\x08', '\x0c', '\n', '\r', '\t']
  · simp only [List.mem_cons, List.not_mem_nil, or_false] at named
    rcases named with rfl | rfl | rfl | rfl | rfl <;>
      cases h : readPieces? fuel rest <;> simp [escaped, readPieces?, readEscape?, pieceOf, h]
  · have unnamed := named
    simp only [List.mem_cons, List.not_mem_nil, or_false, not_or] at unnamed
    obtain ⟨hb, hf, hn, hr, ht⟩ := unnamed
    by_cases control : c.toNat < 32
    · have value : c.toNat / 16 % 16 * 16 + c.toNat % 16 = c.toNat := by omega
      have zero : Text.hexValue? '0' = some 0 := rfl
      cases h : readPieces? fuel rest <;>
        simp [escaped, quote, slash, hb, hf, hn, hr, ht, control, readPieces?, readEscape?, pieceOf,
          hexValue_hexDigit, zero, value, h]
    · have kept : pieceOf c = .char c := if_neg fun h => control h.1
      have plain : escaped c = [c] := by simp [escaped, quote, slash, hb, hf, hn, hr, ht, control]
      rw [plain, kept, List.singleton_append, readPieces?]
      · rw [if_neg control]
        cases readPieces? fuel rest <;> simp
      · exact quote
      · exact slash

theorem readPieces_quoted {text : List Char} {fuel : Nat} (enough : text.length < fuel)
    (rest : List Char) :
    readPieces? fuel (text.flatMap escaped ++ '"' :: rest) = some (text.map pieceOf, rest) := by
  induction text generalizing fuel with
  | nil =>
      obtain ⟨fuel, rfl⟩ := Nat.exists_eq_add_of_lt enough
      simp [readPieces?]
  | cons c text ih =>
      obtain _ | fuel := fuel
      · simp at enough
      · rw [List.flatMap_cons, List.append_assoc, readPieces_escaped,
          ih (Nat.lt_of_succ_lt_succ enough)]
        rfl

theorem assemble_pieceOf (text : List Char) : assemble? (text.map pieceOf) = some text := by
  induction text with
  | nil => rfl
  | cons c text ih =>
      rw [List.map_cons, pieceOf]
      split
      · rename_i control
        have noTrail : Draft.isTrail c.toNat = false := by
          simp only [Draft.isTrail, Bool.and_eq_false_iff, decide_eq_false_iff_not]
          omega
        have noLead : Draft.isLead c.toNat = false := by
          simp only [Draft.isLead, Bool.and_eq_false_iff, decide_eq_false_iff_not]
          omega
        unfold assemble?
        simp [noTrail, noLead, ih, Char.ofNat_toNat]
      · rw [assemble?, ih]
        rfl

theorem length_le_flatMap_escaped (text : List Char) :
    text.length ≤ (text.flatMap escaped).length := by
  induction text with
  | nil => exact Nat.le_refl 0
  | cons c text ih =>
      have one : 1 ≤ (escaped c).length := by
        unfold escaped
        split_ifs <;> simp
      rw [List.flatMap_cons, List.length_append, List.length_cons]
      omega

theorem readText_quoted (text : String) (rest : List Char) :
    readText? (text.toList.flatMap escaped ++ '"' :: rest) = some (some text, rest) := by
  have enough : text.toList.length < (text.toList.flatMap escaped ++ '"' :: rest).length + 1 := by
    have le := length_le_flatMap_escaped text.toList
    rw [List.length_append]
    omega
  rw [readText?, readPieces_quoted enough]
  simp [assemble_pieceOf]

theorem quoted_append (text : String) (rest : List Char) :
    quoted text ++ rest = '"' :: (text.toList.flatMap escaped ++ '"' :: rest) := by
  simp [quoted]

def numeralOf (n : Nat) : Numeral := ⟨false, decimal n, none, none⟩

/-- What follows a value: the end of the text, or the next part of an array or object. -/
def Follows (rest : List Char) : Prop := ∀ c ∈ rest.head?, c = ',' ∨ c = ']' ∨ c = '}'

theorem Follows.cons {c : Char} (h : c = ',' ∨ c = ']' ∨ c = '}') (rest : List Char) :
    Follows (c :: rest) := by
  intro d mem
  obtain rfl : c = d := by simpa using mem
  exact h

theorem isDigit_of_mem_decimal {n : Nat} {c : Char} (mem : c ∈ decimal n) : c.isDigit = true :=
  Nat.isDigit_of_mem_toDigits (by decide) (by decide) mem

theorem decimal_zero_of_head {n : Nat} {rest : List Char} (h : decimal n = '0' :: rest) :
    n = 0 := by
  have leading (n : Nat) : 0 < n → (decimal n).head? ≠ some '0' := by
    induction n using Nat.strongRecOn with
    | ind n ih =>
        intro positive
        rw [decimal, Nat.toDigits_eq_if (by decide)]
        split
        · rename_i small
          have digits : ∀ d < 10, 0 < d → [Nat.digitChar d].head? ≠ some '0' := by decide
          exact digits n small positive
        · rename_i large
          have quotient : 0 < n / 10 := by omega
          have inner := ih (n / 10) (by omega) quotient
          have nonempty : Nat.toDigits 10 (n / 10) ≠ [] := Nat.toDigits_ne_nil
          obtain ⟨d, ds, digits⟩ := List.exists_cons_of_ne_nil nonempty
          rw [decimal, digits] at inner
          rw [digits]
          exact inner
  rcases Nat.eq_zero_or_pos n with zero | positive
  · exact zero
  · exact absurd (congrArg List.head? h) (leading n positive)

theorem digits_decimal (n : Nat) {rest : List Char} (follows : Follows rest) :
    Numeral.digits (decimal n ++ rest) = (decimal n, rest) := by
  have stops : rest.takeWhile Char.isDigit = [] ∧ rest.dropWhile Char.isDigit = rest := by
    obtain _ | ⟨c, rest⟩ := rest
    · exact ⟨rfl, rfl⟩
    · have notDigit : c.isDigit = false := by
        rcases follows c rfl with rfl | rfl | rfl <;> decide
      simp [notDigit]
  rw [Numeral.digits, List.takeWhile_append_of_pos fun _ => isDigit_of_mem_decimal,
    List.dropWhile_append_of_pos fun _ => isDigit_of_mem_decimal, stops.1, stops.2, List.append_nil]

theorem readWhole_decimal (n : Nat) {rest : List Char} (follows : Follows rest) :
    Numeral.readWhole? (decimal n ++ rest) = some (decimal n, rest) := by
  have nonempty : decimal n ≠ [] := Nat.toDigits_ne_nil
  obtain ⟨d, ds, digits⟩ := List.exists_cons_of_ne_nil nonempty
  by_cases zero : d = '0'
  · subst zero
    obtain rfl := decimal_zero_of_head digits
    have one : decimal 0 = ['0'] := Nat.toDigits_zero 10
    have notDigit : (rest.headD ' ').isDigit = false := by
      obtain _ | ⟨c, rest⟩ := rest
      · decide
      · rcases follows c rfl with rfl | rfl | rfl <;> rfl
    rw [one, List.singleton_append, Numeral.readWhole?, notDigit]
    rfl
  · have whole := digits_decimal n follows
    rw [digits, List.cons_append] at whole ⊢
    rw [Numeral.readWhole?, whole]
    · simp
    · exact fun _ h => zero (List.cons.inj h).1

theorem readNumeral_decimal (n : Nat) {rest : List Char} (follows : Follows rest) :
    Numeral.read? (decimal n ++ rest) = some (numeralOf n, rest) := by
  have unsigned : Numeral.readUnsigned? false (decimal n ++ rest) = some (numeralOf n, rest) := by
    rw [Numeral.readUnsigned?, readWhole_decimal n follows]
    obtain _ | ⟨c, rest⟩ := rest
    · rfl
    · rcases follows c rfl with rfl | rfl | rfl <;>
        simp [Numeral.readFraction?, Numeral.readExponent?, numeralOf]
  have nonempty : decimal n ≠ [] := Nat.toDigits_ne_nil
  obtain ⟨d, ds, digits⟩ := List.exists_cons_of_ne_nil nonempty
  have digit : d.isDigit = true := isDigit_of_mem_decimal (digits ▸ List.mem_cons_self)
  rw [digits, List.cons_append] at unsigned ⊢
  rw [Numeral.read?]
  · exact unsigned
  · rintro _ h
    rw [(List.cons.inj h).1] at digit
    exact absurd digit (by decide)

theorem natural_numeralOf (n : Nat) : (numeralOf n).natural? = some n := by
  have value : Text.ofDigits (decimal n) = n :=
    Nat.ofDigitChars_eq_foldl.symm.trans Nat.ofDigitChars_ten_toDigits
  rw [numeralOf, Numeral.natural?, value]

theorem appendDigits_of_lt {digits : List Char} {significand : Nat}
    (fits : Nat.ofDigitChars 10 digits significand < UInt64.size) :
    Numeral.appendDigits significand digits = (Nat.ofDigitChars 10 digits significand, []) := by
  induction digits generalizing significand with
  | nil => rw [Numeral.appendDigits, Nat.ofDigitChars_nil]
  | cons c digits ih =>
      have grows (digits : List Char) (n : Nat) : n ≤ Nat.ofDigitChars 10 digits n := by
        induction digits generalizing n with
        | nil => exact Nat.le_of_eq Nat.ofDigitChars_nil.symm
        | cons c digits ih =>
            rw [Nat.ofDigitChars_cons]
            exact Nat.le_trans (by omega) (ih _)
      rw [Nat.ofDigitChars_cons] at fits ⊢
      rw [Numeral.appendDigits, if_pos (Nat.lt_of_le_of_lt (grows digits _) fits), ih fits]

theorem inRange_numeralOf {n : Nat} (word : n < UInt64.size) : (numeralOf n).inRange = true := by
  have digits : Nat.ofDigitChars 10 (decimal n) 0 = n := Nat.ofDigitChars_ten_toDigits
  have whole : Numeral.appendDigits 0 (decimal n) = (n, []) := by
    rw [appendDigits_of_lt (by rw [digits]; exact word), digits]
  have scaled : (numeralOf n).scaled = (n, 0) := by
    simp [Numeral.scaled, numeralOf, whole, Numeral.appendDigits, Numeral.power]
  rw [Numeral.inRange, scaled]
  simp

mutual

/-- The draft of a value that is read to its end. -/
def draft : Json → Draft
  | null => .null
  | bool b => .bool b
  | num n => .number (numeralOf n)
  | str s => .text (some s)
  | arr items => .array (itemsDraft items) true
  | obj members => .object (membersDraft members) true

def itemsDraft : List Json → List Draft
  | [] => []
  | item :: rest => draft item :: itemsDraft rest

def membersDraft : List (String × Json) → List (Option String × Draft)
  | [] => []
  | member :: rest => memberDraft member :: membersDraft rest

def memberDraft : String × Json → Option String × Draft
  | (name, value) => (some name, draft value)

end

theorem exists_chars (value : Json) :
    ∃ c cs, value.chars = c :: cs ∧ Draft.isBlank c = false ∧ c ≠ ']' := by
  cases value with
  | null => exact ⟨_, _, chars.eq_1, rfl, by decide⟩
  | bool b =>
      rw [chars.eq_2]
      cases b <;> exact ⟨_, _, rfl, rfl, by decide⟩
  | num n =>
      rw [chars.eq_3]
      have nonempty : decimal n ≠ [] := Nat.toDigits_ne_nil
      obtain ⟨d, ds, digits⟩ := List.exists_cons_of_ne_nil nonempty
      have digit : d.isDigit = true := isDigit_of_mem_decimal (digits ▸ List.mem_cons_self)
      refine ⟨d, ds, digits, ?_, ?_⟩
      · simp only [Draft.isBlank, decide_eq_false_iff_not]
        rintro (rfl | rfl | rfl | rfl) <;> exact absurd digit (by decide)
      · rintro rfl
        exact absurd digit (by decide)
  | str s => exact ⟨_, _, by rw [chars.eq_4, quoted, List.cons_append], rfl, by decide⟩
  | arr items => exact ⟨_, _, by rw [chars.eq_5, List.cons_append], rfl, by decide⟩
  | obj members => exact ⟨_, _, by rw [chars.eq_6, List.cons_append], rfl, by decide⟩

theorem skipBlank_cons {c : Char} (notBlank : Draft.isBlank c = false) (rest : List Char) :
    skipBlank (c :: rest) = c :: rest := by
  rw [skipBlank, List.dropWhile_cons_of_neg (by simp [notBlank])]

theorem readValue_num (n fuel : Nat) {rest : List Char} (follows : Follows rest) :
    readValue (fuel + 1) (decimal n ++ rest) = (.number (numeralOf n), some rest) := by
  obtain ⟨c, cs, first, notBlank, _⟩ := exists_chars (num n)
  rw [chars.eq_3] at first
  have digit : c.isDigit = true := isDigit_of_mem_decimal (first ▸ List.mem_cons_self)
  have numeral := readNumeral_decimal n follows
  rw [first, List.cons_append] at numeral ⊢
  rw [readValue, skipBlank_cons notBlank]
  split
  all_goals
    first
    | (rename_i h
       rw [(List.cons.inj h).1] at digit
       exact absurd digit (by decide))
    | simp only [numeral]

/-- The draft of a text that was read. -/
def ofText : Option (Option String × List Char) → Draft × Option (List Char)
  | some (content, rest) => (.text content, some rest)
  | none => (.broken, none)

theorem readValue_quoted (text : String) (fuel : Nat) (rest : List Char) :
    readValue (fuel + 1) (quoted text ++ rest) = (.text (some text), some rest) := by
  rw [quoted_append]
  exact congrArg ofText (readText_quoted text rest)

/-- The draft of an array from the first character after its bracket. -/
def ofBracket (fuel : Nat) : List Char → Draft × Option (List Char)
  | ']' :: rest => (.array [] true, some rest)
  | cs => (.array (readItems fuel cs).1 (readItems fuel cs).2.isSome, (readItems fuel cs).2)

theorem readValue_bracket {c : Char} (notBlank : Draft.isBlank c = false) (open' : c ≠ ']')
    (cs : List Char) (fuel : Nat) : readValue (fuel + 1) ('[' :: c :: cs) =
      (.array (readItems fuel (c :: cs)).1 (readItems fuel (c :: cs)).2.isSome,
        (readItems fuel (c :: cs)).2) := by
  have read : readValue (fuel + 1) ('[' :: c :: cs) = ofBracket fuel (skipBlank (c :: cs)) := rfl
  rw [read, skipBlank_cons notBlank, ofBracket]
  rintro rest ⟨⟩
  exact open' rfl

theorem readValue_brace (cs : List Char) (fuel : Nat) : readValue (fuel + 1) ('{' :: '"' :: cs) =
    (.object (readMembers fuel ('"' :: cs)).1 (readMembers fuel ('"' :: cs)).2.isSome,
      (readMembers fuel ('"' :: cs)).2) := rfl

/-- The items of an array from one that was read. -/
def itemsFrom (fuel : Nat) : Draft × Option (List Char) → List Draft × Option (List Char)
  | (item, none) => ([item], none)
  | (item, some rest) =>
      match skipBlank rest with
      | ']' :: rest => ([item], some rest)
      | ',' :: rest => (item :: (readItems fuel rest).1, (readItems fuel rest).2)
      | _ => ([item], none)

theorem readItems_of_value {fuel : Nat} {cs rest : List Char} {item : Draft}
    (read : readValue fuel cs = (item, some rest)) :
    readItems (fuel + 1) cs = itemsFrom fuel (item, some rest) :=
  congrArg (itemsFrom fuel) read

/-- The members of an object from one whose value was read. -/
def membersFrom (fuel : Nat) (name : Option String) :
    Draft × Option (List Char) → List (Option String × Draft) × Option (List Char)
  | (value, none) => ([(name, value)], none)
  | (value, some rest) =>
      match skipBlank rest with
      | '}' :: rest => ([(name, value)], some rest)
      | ',' :: rest => ((name, value) :: (readMembers fuel rest).1, (readMembers fuel rest).2)
      | _ => ([(name, value)], none)

/-- The members of an object from one whose name was read. -/
def membersFromName (fuel : Nat) :
    Option (Option String × List Char) → List (Option String × Draft) × Option (List Char)
  | none => ([], none)
  | some (name, rest) =>
      match skipBlank rest with
      | ':' :: rest => membersFrom fuel name (readValue fuel rest)
      | _ => ([(name, .broken)], none)

theorem readMembers_of_value {fuel : Nat} {name : String} {cs rest : List Char} {value : Draft}
    (read : readValue fuel cs = (value, some rest)) :
    readMembers (fuel + 1) (quoted name ++ ':' :: cs) =
      membersFrom fuel (some name) (value, some rest) := by
  rw [quoted_append, ← read]
  exact congrArg (membersFromName fuel) (readText_quoted name (':' :: cs))

theorem length_quoted_append (text : String) (rest : List Char) :
    rest.length < (quoted text ++ rest).length := by
  rw [quoted_append, List.length_cons, List.length_append, List.length_cons]
  omega

/-- With this fuel every value that is short enough is read to its end, and no further. -/
def ReadsValues (fuel : Nat) : Prop := ∀ (value : Json) (rest : List Char),
  2 * value.chars.length ≤ fuel → Follows rest →
    readValue fuel (value.chars ++ rest) = (draft value, some rest)

/-- With this fuel the values of every array that is short enough are read. -/
def ReadsItems (fuel : Nat) : Prop := ∀ (item : Json) (items : List Json) (rest : List Char),
  2 * (itemsChars (item :: items)).length + 1 ≤ fuel →
    readItems fuel (itemsChars (item :: items) ++ ']' :: rest) =
      (itemsDraft (item :: items), some rest)

/-- With this fuel the members of every object that is short enough are read. -/
def ReadsMembers (fuel : Nat) : Prop :=
  ∀ (member : String × Json) (members : List (String × Json)) (rest : List Char),
    2 * (membersChars (member :: members)).length + 1 ≤ fuel →
      readMembers fuel (membersChars (member :: members) ++ '}' :: rest) =
        (membersDraft (member :: members), some rest)

theorem ReadsValues.succ {fuel : Nat} (ofItems : ReadsItems fuel) (ofMembers : ReadsMembers fuel) :
    ReadsValues (fuel + 1) := by
  intro value rest enough follows
  match value, enough with
  | null, _ => rfl
  | bool true, _ => rfl
  | bool false, _ => rfl
  | num n, _ => exact readValue_num n fuel follows
  | str s, _ => exact readValue_quoted s fuel rest
  | arr [], _ => rfl
  | arr (item :: items), enough =>
      simp only [chars, List.cons_append, List.length_cons, List.length_append] at enough
      have read := ofItems item items rest (by omega)
      obtain ⟨c, cs, first, notBlank, open'⟩ := exists_chars item
      obtain ⟨more, whole⟩ : ∃ more, itemsChars (item :: items) ++
        ']' :: rest = c :: more := by
        cases items <;> simp [itemsChars, first]
      rw [whole] at read
      simp only [chars, List.cons_append, List.append_assoc, List.nil_append]
      rw [whole, readValue_bracket notBlank open', read]
      rfl
  | obj [], _ => rfl
  | obj ((name, value) :: members), enough =>
      simp only [chars, List.cons_append, List.length_cons, List.length_append] at enough
      have read := ofMembers (name, value) members rest (by omega)
      obtain ⟨more, whole⟩ : ∃ more, membersChars ((name, value) :: members) ++ '}' :: rest =
          '"' :: more := by
        cases members <;> simp [membersChars, memberChars, quoted]
      rw [whole] at read
      simp only [chars, List.cons_append, List.append_assoc, List.nil_append]
      rw [whole, readValue_brace, read]
      rfl

theorem ReadsItems.succ {fuel : Nat} (ofValue : ReadsValues fuel) (ofItems : ReadsItems fuel) :
    ReadsItems (fuel + 1) := by
  intro item items rest enough
  cases items with
  | nil =>
      simp only [itemsChars] at enough ⊢
      rw [readItems_of_value (ofValue item _ (by omega) (.cons (by decide) rest))]
      rfl
  | cons next items =>
      rw [itemsChars] at enough ⊢
      · simp only [List.length_append, List.length_cons] at enough
        rw [List.append_assoc, List.cons_append,
          readItems_of_value (ofValue item _ (by omega) (.cons (by decide) _))]
        change (draft item :: (readItems fuel (itemsChars (next :: items) ++ ']' :: rest)).1, _) = _
        rw [ofItems next items rest (by omega)]
        rfl
      · simp
      · simp

theorem ReadsMembers.succ {fuel : Nat} (ofValue : ReadsValues fuel)
    (ofMembers : ReadsMembers fuel) :
    ReadsMembers (fuel + 1) := by
  rintro ⟨name, value⟩ members rest enough
  have shorter := length_quoted_append name (':' :: value.chars)
  rw [List.length_cons] at shorter
  cases members with
  | nil =>
      simp only [membersChars, memberChars] at enough ⊢
      rw [List.append_assoc, List.cons_append,
        readMembers_of_value (ofValue value _ (by omega) (.cons (by decide) rest))]
      rfl
  | cons next members =>
      rw [membersChars] at enough ⊢
      · simp only [memberChars] at enough ⊢
        rw [List.length_append, List.length_cons] at enough
        rw [List.append_assoc, List.append_assoc, List.cons_append, List.cons_append,
          readMembers_of_value (ofValue value _ (by omega) (.cons (by decide) _))]
        change ((some name, draft value) ::
          (readMembers fuel (membersChars (next :: members) ++ '}' :: rest)).1, _) = _
        rw [ofMembers next members rest (by omega)]
        rfl
      · simp
      · simp

/-- Enough fuel for the length of a text is enough for the values, items and members in it. -/
theorem reads (fuel : Nat) : ReadsValues fuel ∧ ReadsItems fuel ∧ ReadsMembers fuel := by
  induction fuel with
  | zero =>
      refine ⟨fun value rest enough _ => ?_, fun item items rest enough =>
        absurd enough (by omega),
        fun member members rest enough => absurd enough (by omega)⟩
      obtain ⟨c, cs, first, _, _⟩ := exists_chars value
      rw [first, List.length_cons] at enough
      omega
  | succ fuel ih =>
      obtain ⟨ofValue, ofItems, ofMembers⟩ := ih
      exact ⟨.succ ofItems ofMembers, .succ ofValue ofItems, .succ ofValue ofMembers⟩

theorem read_compact (value : Json) : Draft.read value.compact = (draft value, true) := by
  have read := (reads (2 * value.chars.length + 2)).1 value [] (by omega)
    (fun _ mem => by simp at mem)
  rw [List.append_nil] at read
  rw [Draft.read, compact, String.toList_ofList, read]
  rfl

end BlastRadius.Json
