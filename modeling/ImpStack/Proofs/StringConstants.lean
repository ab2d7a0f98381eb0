import Mathlib
import ImpStack.Jvm.Assembly

/-! # String constants of the assembly read back

  A string constant is written into the assembly between double quotes, its body as the
  quoter `Quote.assembly` makes it. The assembler reads that body with the escapes of Java
  string literals: a backslash before a double quote, a backslash, `n`, `t` or `r` stands for
  that character; a backslash, `u` and four hexadecimal digits stand for one UTF-16 code unit;
  and two units that form a surrogate pair make one character (`unescape`, through
  `readUnits` and `decodeUtf16`).

  The body the quoter writes is printable ASCII, a run of plain characters and escapes in which
  a double quote or a backslash that stands for itself always follows the backslash escaping it
  (`Escaped`); so the constant ends exactly at the quote written after it (`closeQuote`), and
  its escapes give back the string (`assembly_string_reads_back`). Each character goes one of
  three ways (`assemblyChar_cases`): printable ASCII as itself, the five named escapes, or one
  `\u` escape per UTF-16 unit, four digits wide (`hex4_toList`); the reader takes each back to
  the character's units (`readUnits_assemblyChar`), and UTF-16 decoding takes those back to the
  character (`decodeUtf16_utf16Units`). The instruction that pushes a string constant therefore
  denotes the string itself (`pushConstant_string_reads_back`).
-/

namespace ImpStack.Quote

/-! ## Reading a string constant back -/

/-- Printable ASCII: from the space to the tilde. -/
def Printable (c : Char) : Prop := 0x20 ≤ c.toNat ∧ c.toNat ≤ 0x7E

instance : DecidablePred Printable :=
  fun c => inferInstanceAs (Decidable (0x20 ≤ c.toNat ∧ c.toNat ≤ 0x7E))

/-- The UTF-16 unit a backslash and a letter stand for: `\"`, `\\`, `\n`, `\t` and `\r`. -/
def namedUnit? : Char → Option Nat
  | '"' => some 0x22
  | '\\' => some 0x5C
  | 'n' => some 0x0A
  | 't' => some 0x09
  | 'r' => some 0x0D
  | _ => none

/-- The value of a hexadecimal digit: `0` to `9`, `a` to `f` or `A` to `F`. -/
def hexDigit? (c : Char) : Option Nat :=
  if 0x30 ≤ c.toNat ∧ c.toNat ≤ 0x39 then some (c.toNat - 0x30)
  else if 0x61 ≤ c.toNat ∧ c.toNat ≤ 0x66 then some (c.toNat - 0x61 + 10)
  else if 0x41 ≤ c.toNat ∧ c.toNat ≤ 0x46 then some (c.toNat - 0x41 + 10)
  else none

/-- The value of hexadecimal digits, the most significant first. -/
def hexValue? (ds : List Char) : Option Nat :=
  ds.foldlM (fun v d => (v * 16 + ·) <$> hexDigit? d) 0

/-- Reads the body of a string constant into UTF-16 code units, with the escapes of Java
string literals: a backslash and one of `"`, `\`, `n`, `t`, `r` is one unit, a backslash, `u`
and four hexadecimal digits is the unit they spell, and any other character is its own units.
A double quote without a backslash, a backslash at the end and an unknown escape are errors. -/
def readUnits : List Char → Option (List Nat)
  | [] => some []
  | c :: rest =>
    if c = '\\' then
      match rest with
      | [] => none
      | e :: rest' =>
        match namedUnit? e with
        | some u => (u :: ·) <$> readUnits rest'
        | none =>
          match rest' with
          | a :: b :: d :: f :: rest'' =>
            if e = 'u' then do
              let u ← hexValue? [a, b, d, f]
              (u :: ·) <$> readUnits rest''
            else none
          | _ => none
    else if c = '"' then none
    else (utf16Units c ++ ·) <$> readUnits rest

/-- Whether a UTF-16 unit opens a surrogate pair. -/
def isHighSurrogate (u : Nat) : Bool := 0xD800 ≤ u && u < 0xDC00

/-- Whether a UTF-16 unit closes a surrogate pair. -/
def isLowSurrogate (u : Nat) : Bool := 0xDC00 ≤ u && u < 0xE000

/-- The code point a surrogate pair stands for. -/
def pairValue (high low : Nat) : Nat := 0x10000 + (high - 0xD800) * 0x400 + (low - 0xDC00)

/-- Decodes UTF-16 code units into characters: a high surrogate followed by a low one is one
character above U+FFFF, every other unit is the character it numbers, and a surrogate without
its partner is an error. -/
def decodeUtf16 : List Nat → Option (List Char)
  | [] => some []
  | u :: rest =>
    if isHighSurrogate u then
      match rest with
      | v :: rest' =>
        if isLowSurrogate v then (Char.ofNat (pairValue u v) :: ·) <$> decodeUtf16 rest'
        else none
      | [] => none
    else if isLowSurrogate u then none
    else (Char.ofNat u :: ·) <$> decodeUtf16 rest

/-- The characters the body of a string constant denotes. -/
def unescape (body : List Char) : Option (List Char) := (readUnits body).bind decodeUtf16

/-- Reads the text after a string constant's opening quote up to the quote that closes it,
returning the body and what follows. A backslash takes the character after it along, so an
escaped quote does not close the constant. -/
def closeQuote : List Char → Option (List Char × List Char)
  | [] => none
  | c :: rest =>
    if c = '"' then some ([], rest)
    else if c = '\\' then
      match rest with
      | e :: rest' => (closeQuote rest').map (Prod.map (c :: e :: ·) id)
      | [] => none
    else (closeQuote rest).map (Prod.map (c :: ·) id)

/-- The body of a string constant as the quoter writes it, one piece after another: a printable
ASCII character other than the double quote and the backslash stands for itself; every other
character is written as an escape, a backslash followed by a named letter or by `u` and four
hexadecimal digits. So a double quote or a backslash that stands for itself always comes right
after the backslash that escapes it. -/
inductive Escaped : List Char → Prop
  | nil : Escaped []
  | plain {c : Char} {rest : List Char} (printable : Printable c) (notQuote : c ≠ '"')
      (notBackslash : c ≠ '\\') : Escaped rest → Escaped (c :: rest)
  | named {e : Char} {rest : List Char} (letter : e ∈ ['"', '\\', 'n', 't', 'r']) :
      Escaped rest → Escaped ('\\' :: e :: rest)
  | unit {a b c d : Char} {rest : List Char} (digits : ∀ x ∈ [a, b, c, d], (hexDigit? x).isSome) :
      Escaped rest → Escaped ('\\' :: 'u' :: a :: b :: c :: d :: rest)

/-! ## Hexadecimal digits -/

/-- The last `k` digits of `n` in base sixteen, the most significant first. -/
def hexDigits : Nat → Nat → List Char
  | 0, _ => []
  | k + 1, n => hexDigits k (n / 16) ++ [Nat.digitChar (n % 16)]

theorem hexDigits_zero (k : Nat) : hexDigits k 0 = List.replicate k '0' := by
  induction k with
  | zero => rfl
  | succ k ih => rw [hexDigits, ih, List.replicate_succ']; rfl

/-- Below `16 ^ k`, the digits of a number padded with zeros to `k` are its last `k` digits. -/
theorem padded_toDigits {k : Nat} (pos : 0 < k) :
    ∀ {n : Nat}, n < 16 ^ k →
      List.replicate (k - (Nat.toDigits 16 n).length) '0' ++ Nat.toDigits 16 n = hexDigits k n := by
  induction k with
  | zero => exact absurd pos (Nat.lt_irrefl 0)
  | succ k ih =>
    intro n bound
    by_cases small : n < 16
    · rw [Nat.toDigits_of_lt_base small, hexDigits, Nat.div_eq_of_lt small,
        Nat.mod_eq_of_lt small, hexDigits_zero]
      rfl
    · -- the top digit comes from `n / 16`, which has one digit fewer
      have hk : 0 < k := by
        rcases Nat.eq_zero_or_pos k with rfl | hk
        · omega
        · exact hk
      have hq : n / 16 < 16 ^ k := by
        rw [Nat.div_lt_iff_lt_mul (by decide), ← Nat.pow_succ]
        exact bound
      rw [Nat.toDigits_of_base_le (by decide) (by omega), hexDigits, ← ih hk hq,
        List.length_append, List.length_singleton, Nat.add_sub_add_right, List.append_assoc]

theorem hexDigit_digitChar : ∀ d, d < 16 → hexDigit? (Nat.digitChar d) = some d := by decide

theorem hexValue_append (ds : List Char) (d : Char) :
    hexValue? (ds ++ [d]) = (hexValue? ds).bind fun v => (v * 16 + ·) <$> hexDigit? d := by
  simp only [hexValue?, List.foldlM_append, List.foldlM_cons, List.foldlM_nil]
  cases List.foldlM (fun v d => (fun x => v * 16 + x) <$> hexDigit? d) 0 ds <;>
    cases hexDigit? d <;> rfl

/-- The last `k` hexadecimal digits of `n` read back as `n` modulo `16 ^ k`. -/
theorem hexValue_hexDigits (k : Nat) : ∀ n, hexValue? (hexDigits k n) = some (n % 16 ^ k) := by
  induction k with
  | zero => intro n; simp [hexDigits, hexValue?, Nat.mod_one]
  | succ k ih =>
    intro n
    have last := hexDigit_digitChar (n % 16) (Nat.mod_lt n (by decide))
    have split : n % 16 ^ (k + 1) = n / 16 % 16 ^ k * 16 + n % 16 := by
      rw [Nat.pow_succ', Nat.mod_mul, Nat.mul_comm, Nat.add_comm]
    rw [hexDigits, hexValue_append, ih (n / 16), last, split]
    rfl

theorem hexDigits_isSome (k : Nat) : ∀ n, ∀ x ∈ hexDigits k n, (hexDigit? x).isSome := by
  induction k with
  | zero => intro n; simp [hexDigits]
  | succ k ih =>
    intro n x hx
    rw [hexDigits, List.mem_append, List.mem_singleton] at hx
    rcases hx with hx | rfl
    · exact ih (n / 16) x hx
    · rw [hexDigit_digitChar _ (Nat.mod_lt n (by decide))]
      rfl

/-- The four digits the quoter writes for a UTF-16 unit. -/
theorem hex4_toList {u : Nat} (unit : u < 0x10000) : (hex4 u).toList = hexDigits 4 u := by
  have padded := padded_toDigits (k := 4) (by decide) unit
  simpa [hex4, hex, String.toList_append, String.toList_ofList, String.length_ofList] using padded

/-- A hexadecimal digit is printable, and neither a double quote nor a backslash. -/
theorem hexDigit_plain {x : Char} (h : (hexDigit? x).isSome) :
    Printable x ∧ x ≠ '"' ∧ x ≠ '\\' := by
  unfold hexDigit? at h
  have quote : x ≠ '"' ↔ x.toNat ≠ 0x22 := not_congr (Char.toNat_inj (d := '"')).symm
  have backslash : x ≠ '\\' ↔ x.toNat ≠ 0x5C := not_congr (Char.toNat_inj (d := '\\')).symm
  rw [quote, backslash]
  unfold Printable
  split at h
  · omega
  · split at h
    · omega
    · split at h
      · omega
      · simp at h

/-! ## The reader, one piece at a time -/

theorem readUnits_plain {c : Char} (rest : List Char) (notBackslash : c ≠ '\\')
    (notQuote : c ≠ '"') : readUnits (c :: rest) = (utf16Units c ++ ·) <$> readUnits rest := by
  rw [readUnits.eq_def]
  simp only [if_neg notBackslash, if_neg notQuote]

theorem readUnits_named {e : Char} {u : Nat} (rest : List Char) (h : namedUnit? e = some u) :
    readUnits ('\\' :: e :: rest) = (u :: ·) <$> readUnits rest := by
  rw [readUnits.eq_def]
  simp only [if_pos, h]

theorem readUnits_unit {a b d f : Char} {u : Nat} (rest : List Char)
    (h : hexValue? [a, b, d, f] = some u) :
    readUnits ('\\' :: 'u' :: a :: b :: d :: f :: rest) = (u :: ·) <$> readUnits rest := by
  rw [readUnits.eq_def]
  simp only [if_pos, namedUnit?, h]
  rfl

/-- The escape of one UTF-16 unit reads back as that unit. -/
theorem readUnits_unitEscape {u : Nat} (unit : u < 0x10000) (rest : List Char) :
    readUnits (('\\' :: 'u' :: (hex4 u).toList) ++ rest) = (u :: ·) <$> readUnits rest := by
  have value := hexValue_hexDigits 4 u
  rw [Nat.mod_eq_of_lt (show u < 16 ^ 4 from unit)] at value
  rw [hex4_toList unit]
  simp only [hexDigits] at value ⊢
  exact readUnits_unit rest value

/-- The escapes of UTF-16 units read back as those units. -/
theorem readUnits_unitEscapes (rest : List Char) (us : List Nat) (small : ∀ u ∈ us, u < 0x10000) :
    readUnits ((us.flatMap fun u => '\\' :: 'u' :: (hex4 u).toList) ++ rest) =
      (us ++ ·) <$> readUnits rest := by
  induction us with
  | nil => simp
  | cons u us ih =>
    have tail := ih fun v hv => small v (List.mem_cons_of_mem u hv)
    rw [List.flatMap_cons, List.append_assoc, readUnits_unitEscape (small u List.mem_cons_self),
      tail]
    cases readUnits rest <;> rfl

/-! ## UTF-16 -/

theorem utf16Units_of_lt {c : Char} (bmp : c.toNat < 0x10000) : utf16Units c = [c.toNat] := by
  simp [utf16Units, bmp]

theorem utf16Units_of_ge {c : Char} (astral : ¬ c.toNat < 0x10000) :
    utf16Units c =
      [0xD800 + (c.toNat - 0x10000) / 0x400, 0xDC00 + (c.toNat - 0x10000) % 0x400] := by
  simp [utf16Units, astral]

/-- A character's scalar value is no surrogate and at most U+10FFFF. -/
theorem toNat_valid (c : Char) : c.toNat < 0xD800 ∨ 0xDFFF < c.toNat ∧ c.toNat < 0x110000 :=
  c.valid

theorem utf16Units_lt {c : Char} : ∀ u ∈ utf16Units c, u < 0x10000 := by
  have valid := toNat_valid c
  by_cases bmp : c.toNat < 0x10000
  · simpa [utf16Units_of_lt bmp] using bmp
  · simp only [utf16Units_of_ge bmp, List.mem_cons, List.not_mem_nil, or_false]
    omega

theorem decodeUtf16_single {u : Nat} (rest : List Nat) (notHigh : isHighSurrogate u = false)
    (notLow : isLowSurrogate u = false) :
    decodeUtf16 (u :: rest) = (Char.ofNat u :: ·) <$> decodeUtf16 rest := by
  rw [decodeUtf16.eq_def]
  simp only [notHigh, notLow, Bool.false_eq_true, if_false]

theorem decodeUtf16_pair {u v : Nat} (rest : List Nat) (high : isHighSurrogate u = true)
    (low : isLowSurrogate v = true) :
    decodeUtf16 (u :: v :: rest) = (Char.ofNat (pairValue u v) :: ·) <$> decodeUtf16 rest := by
  rw [decodeUtf16.eq_def]
  simp only [high, low, if_true]

/-- Decoding the UTF-16 units of a character gives the character back. -/
theorem decodeUtf16_utf16Units (c : Char) (us : List Nat) :
    decodeUtf16 (utf16Units c ++ us) = (c :: ·) <$> decodeUtf16 us := by
  have valid := toNat_valid c
  by_cases bmp : c.toNat < 0x10000
  · -- one unit, which is no surrogate since the character is none
    have notHigh : isHighSurrogate c.toNat = false := by
      simp only [isHighSurrogate, Bool.and_eq_false_iff, decide_eq_false_iff_not]; omega
    have notLow : isLowSurrogate c.toNat = false := by
      simp only [isLowSurrogate, Bool.and_eq_false_iff, decide_eq_false_iff_not]; omega
    rw [utf16Units_of_lt bmp, List.singleton_append, decodeUtf16_single us notHigh notLow,
      Char.ofNat_toNat]
  · -- a pair: the top ten bits of `c - 0x10000` in the first unit, the low ten in the second
    have high : isHighSurrogate (0xD800 + (c.toNat - 0x10000) / 0x400) = true := by
      simp only [isHighSurrogate, Bool.and_eq_true, decide_eq_true_eq]; omega
    have low : isLowSurrogate (0xDC00 + (c.toNat - 0x10000) % 0x400) = true := by
      simp only [isLowSurrogate, Bool.and_eq_true, decide_eq_true_eq]; omega
    have pair : pairValue (0xD800 + (c.toNat - 0x10000) / 0x400)
        (0xDC00 + (c.toNat - 0x10000) % 0x400) = c.toNat := by
      unfold pairValue; omega
    rw [utf16Units_of_ge bmp, List.cons_append, List.cons_append, List.nil_append,
      decodeUtf16_pair us high low, pair, Char.ofNat_toNat]

/-- Decoding the UTF-16 units of characters gives the characters back. -/
theorem decodeUtf16_flatMap (cs : List Char) : decodeUtf16 (cs.flatMap utf16Units) = some cs := by
  induction cs with
  | nil => rfl
  | cons c cs ih => rw [List.flatMap_cons, decodeUtf16_utf16Units, ih]; rfl

/-! ## What the quoter writes for one character -/

/-- One character is written as itself, when it is printable ASCII other than the double quote
and the backslash; as a backslash and a letter, for the five named escapes; or as the escapes
of its UTF-16 units. -/
theorem assemblyChar_cases (c : Char) :
    (Printable c ∧ c ≠ '"' ∧ c ≠ '\\' ∧ (assemblyChar c).toList = [c]) ∨
    (∃ e, namedUnit? e = some c.toNat ∧ (assemblyChar c).toList = ['\\', e]) ∨
    (assemblyChar c).toList = (utf16Units c).flatMap fun u => '\\' :: 'u' :: (hex4 u).toList := by
  unfold assemblyChar
  split
  · exact .inr (.inl ⟨'"', rfl, rfl⟩)
  · exact .inr (.inl ⟨'\\', rfl, rfl⟩)
  · exact .inr (.inl ⟨'n', rfl, rfl⟩)
  · exact .inr (.inl ⟨'t', rfl, rfl⟩)
  · exact .inr (.inl ⟨'r', rfl, rfl⟩)
  · rename_i notQuote notBackslash _ _ _
    split
    · rename_i printable
      simp only [Bool.and_eq_true, decide_eq_true_eq] at printable
      exact .inl ⟨⟨printable.1, by omega⟩, notQuote, notBackslash, by simp⟩
    · refine .inr (.inr ?_)
      simp [String.toList_join, List.flatMap_map]

theorem namedUnit_letter {e : Char} {u : Nat} (h : namedUnit? e = some u) :
    e ∈ ['"', '\\', 'n', 't', 'r'] := by
  unfold namedUnit? at h
  split at h <;> simp_all

theorem namedUnit_lt {e : Char} {u : Nat} (h : namedUnit? e = some u) : u < 0x10000 := by
  unfold namedUnit? at h
  split at h <;> cases h <;> decide

/-- The escape of one UTF-16 unit is an escaped piece. -/
theorem Escaped.unitEscape {u : Nat} {rest : List Char} (unit : u < 0x10000) (h : Escaped rest) :
    Escaped (('\\' :: 'u' :: (hex4 u).toList) ++ rest) := by
  have digits := hexDigits_isSome 4 u
  rw [hex4_toList unit]
  simp only [hexDigits, List.nil_append, List.cons_append] at digits ⊢
  exact .unit digits h

theorem Escaped.unitEscapes {rest : List Char} (h : Escaped rest) (us : List Nat)
    (small : ∀ u ∈ us, u < 0x10000) :
    Escaped ((us.flatMap fun u => '\\' :: 'u' :: (hex4 u).toList) ++ rest) := by
  induction us with
  | nil => exact h
  | cons u us ih =>
    rw [List.flatMap_cons, List.append_assoc]
    exact .unitEscape (small u List.mem_cons_self)
      (ih fun v hv => small v (List.mem_cons_of_mem u hv))

/-- The quoter's text for a character continues an escaped body. -/
theorem Escaped.assemblyChar (c : Char) {rest : List Char} (h : Escaped rest) :
    Escaped ((assemblyChar c).toList ++ rest) := by
  rcases assemblyChar_cases c with ⟨printable, notQuote, notBackslash, text⟩ |
    ⟨e, named, text⟩ | text <;> rw [text]
  · exact .plain printable notQuote notBackslash h
  · exact .named (namedUnit_letter named) h
  · exact h.unitEscapes _ utf16Units_lt

/-- The quoter's text for a character reads back as the character's UTF-16 units. -/
theorem readUnits_assemblyChar (c : Char) (rest : List Char) :
    readUnits ((assemblyChar c).toList ++ rest) = (utf16Units c ++ ·) <$> readUnits rest := by
  rcases assemblyChar_cases c with ⟨printable, notQuote, notBackslash, text⟩ |
    ⟨e, named, text⟩ | text <;> rw [text]
  · exact readUnits_plain rest notBackslash notQuote
  · rw [utf16Units_of_lt (namedUnit_lt named)]
    exact readUnits_named rest named
  · exact readUnits_unitEscapes rest _ utf16Units_lt

/-! ## Escaped bodies -/

theorem closeQuote_quote (rest : List Char) : closeQuote ('"' :: rest) = some ([], rest) := by
  rw [closeQuote.eq_def]
  simp

theorem closeQuote_plain {c : Char} (rest : List Char) (notQuote : c ≠ '"')
    (notBackslash : c ≠ '\\') :
    closeQuote (c :: rest) = (closeQuote rest).map (Prod.map (c :: ·) id) := by
  rw [closeQuote.eq_def]
  simp only [if_neg notQuote, if_neg notBackslash]

theorem closeQuote_escape (e : Char) (rest : List Char) :
    closeQuote ('\\' :: e :: rest) = (closeQuote rest).map (Prod.map ('\\' :: e :: ·) id) := by
  rw [closeQuote.eq_def]
  simp

/-- An escaped body is read up to the quote after it, and no further: none of its own double
quotes closes the constant. -/
theorem Escaped.closeQuote {body : List Char} (h : Escaped body) (after : List Char) :
    closeQuote (body ++ '"' :: after) = some (body, after) := by
  induction h with
  | nil => exact closeQuote_quote after
  | plain _ notQuote notBackslash _ ih =>
    rw [List.cons_append, closeQuote_plain _ notQuote notBackslash, ih]
    rfl
  | named _ _ ih =>
    rw [List.cons_append, List.cons_append, closeQuote_escape, ih]
    rfl
  | unit digits _ ih =>
    -- the backslash takes the `u` along; the four digits are plain characters
    simp only [List.mem_cons, List.not_mem_nil, or_false, forall_eq_or_imp, forall_eq] at digits
    obtain ⟨a, b, c, d⟩ := digits
    obtain ⟨-, aq, ab⟩ := hexDigit_plain a
    obtain ⟨-, bq, bb⟩ := hexDigit_plain b
    obtain ⟨-, cq, cb⟩ := hexDigit_plain c
    obtain ⟨-, dq, db⟩ := hexDigit_plain d
    simp only [List.cons_append]
    rw [closeQuote_escape, closeQuote_plain _ aq ab, closeQuote_plain _ bq bb,
      closeQuote_plain _ cq cb, closeQuote_plain _ dq db, ih]
    rfl

/-- Every character of an escaped body is printable ASCII. -/
theorem Escaped.printable {body : List Char} (h : Escaped body) : ∀ x ∈ body, Printable x := by
  induction h with
  | nil => simp
  | plain printable _ _ _ ih => exact List.forall_mem_cons.2 ⟨printable, ih⟩
  | named letter _ ih =>
    have letters : ∀ y ∈ ['"', '\\', 'n', 't', 'r'], Printable y := by
      intro y hy
      simp only [List.mem_cons, List.not_mem_nil, or_false] at hy
      rcases hy with rfl | rfl | rfl | rfl | rfl <;> decide
    simp only [List.forall_mem_cons]
    exact ⟨by decide, letters _ letter, ih⟩
  | unit digits _ ih =>
    have plain := fun x hx => (hexDigit_plain (digits x hx)).1
    simp only [List.mem_cons, List.not_mem_nil, or_false, forall_eq_or_imp, forall_eq] at plain
    simp only [List.forall_mem_cons]
    exact ⟨by decide, by decide, plain.1, plain.2.1, plain.2.2.1, plain.2.2.2, ih⟩

/-! ## Whole strings -/

theorem assembly_toList (s : String) :
    (assembly s).toList = s.toList.flatMap fun c => (assemblyChar c).toList := by
  simp [assembly, String.toList_join, List.flatMap_map]

theorem escaped_assembly (cs : List Char) :
    Escaped (cs.flatMap fun c => (assemblyChar c).toList) := by
  induction cs with
  | nil => exact .nil
  | cons c cs ih =>
    rw [List.flatMap_cons]
    exact ih.assemblyChar c

theorem readUnits_assembly (cs : List Char) :
    readUnits (cs.flatMap fun c => (assemblyChar c).toList) = some (cs.flatMap utf16Units) := by
  induction cs with
  | nil => rfl
  | cons c cs ih =>
    rw [List.flatMap_cons, readUnits_assemblyChar, ih, List.flatMap_cons]
    rfl

/-- The body of a string constant, as the quoter writes it, is printable ASCII made of plain
characters and escapes; read after an opening quote it ends exactly at the closing quote; and
its escapes, read as Java reads them, give back the string. -/
theorem assembly_string_reads_back (s : String) (after : List Char) :
    (∀ c ∈ (assembly s).toList, Printable c) ∧ Escaped (assembly s).toList ∧
      closeQuote ((assembly s).toList ++ '"' :: after) = some ((assembly s).toList, after) ∧
      unescape (assembly s).toList = some s.toList := by
  have escaped : Escaped (assembly s).toList := by
    rw [assembly_toList]
    exact escaped_assembly s.toList
  refine ⟨escaped.printable, escaped, escaped.closeQuote after, ?_⟩
  rw [unescape, assembly_toList, readUnits_assembly, Option.bind_some, decodeUtf16_flatMap]

example : assembly "say \"hi\"\n" = "say \\\"hi\\\"\\n" := by decide +kernel
example : assembly "é😀" = "\\u00e9\\ud83d\\ude00" := by decide +kernel
example : unescape (assembly "é😀").toList = some ['é', '😀'] := by decide +kernel

/-- The instruction that pushes a string constant holds the constant whole: after `ldc` and
the opening quote, the constant runs to the quote that ends the instruction, and reads back as
the string. -/
theorem pushConstant_string_reads_back (s : String) :
    ∃ body, Jvm.pushConstant (.str s) = .ok (String.ofList ("ldc \"".toList ++ body ++ ['"'])) ∧
      closeQuote (body ++ ['"']) = some (body, []) ∧ unescape body = some s.toList := by
  obtain ⟨-, escaped, -, reads⟩ := assembly_string_reads_back s []
  refine ⟨(assembly s).toList, ?_, escaped.closeQuote [], reads⟩
  simp only [Jvm.pushConstant, Except.ok.injEq, ← String.toList_inj, String.toList_append,
    String.toList_ofList]
  rfl

end ImpStack.Quote
