/-
# The grammar of JSON texts

A value is spelled by tokens, `Json.spell`, and a token is written in characters, with blanks where
one likes.  Characters of a text stand for themselves or are escaped, and a number has no zeros in
front.  `Json.Spells` puts the two together, and knows of neither the lexer nor the parser.

* `Json.tokensFrom_written`: the lexer gives the tokens that are written, if their numbers are
  words;
* `Json.foldlM_spell`: the parser gives the value that is spelled, in front of any other tokens;
* `Json.parse?_of_spells`: so a text of the grammar is read, unless one of its numbers is too large;
* `Json.spells_compact`: every value has such a text, the one that is printed on one line.
-/
import TraceRecorder.Json.Parser
import TraceRecorder.Json.Printer

namespace TraceRecorder

namespace Json

/-! ## 1. The grammar -/

mutual

/-- **The tokens of a value.** -/
def spell : Json → List Token
  | null => [.scalar null]
  | bool b => [.scalar (bool b)]
  | number n => [.scalar (number n)]
  | text s => [.text s]
  | array items => .beginArray :: spellItems items
  | object members => .beginObject :: spellMembers members

/-- The items of an array and its end. -/
def spellItems : List Json → List Token
  | [] => [.endArray]
  | v :: rest => spell v ++ spellMoreItems rest

/-- The items of an array behind a first one. -/
def spellMoreItems : List Json → List Token
  | [] => [.endArray]
  | v :: rest => .comma :: (spell v ++ spellMoreItems rest)

/-- The members of an object and its end. -/
def spellMembers : List (String × Json) → List Token
  | [] => [.endObject]
  | (n, v) :: rest => .text n :: .colon :: (spell v ++ spellMoreMembers rest)

/-- The members of an object behind a first one. -/
def spellMoreMembers : List (String × Json) → List Token
  | [] => [.endObject]
  | (n, v) :: rest => .comma :: .text n :: .colon :: (spell v ++ spellMoreMembers rest)

end

/-- The letters that stand for a character behind a backslash. -/
def escapes : List (Char × Char) :=
  [('"', '"'), ('\\', '\\'), ('/', '/'), ('b', '\x08'), ('f', '\x0c'), ('n', '\n'), ('r', '\r'),
    ('t', '\t')]

def IsHexDigit (d : Nat) (c : Char) : Prop :=
  "0123456789abcdef".toList[d]? = some c ∨ "0123456789ABCDEF".toList[d]? = some c

/-- The four digits of a code unit. -/
structure IsUnit (value : Nat) (a b c d : Char) : Prop where
  first : IsHexDigit (value / 4096) a
  second : IsHexDigit (value / 256 % 16) b
  third : IsHexDigit (value / 16 % 16) c
  fourth : IsHexDigit (value % 16) d

/-- **How the characters of a text are written** between quotes. -/
inductive Quoted : List Char → List Char → Prop where
  | nil : Quoted [] []
  | plain {c : Char} {chars written : List Char} (quote : c ≠ '"') (backslash : c ≠ '\\')
      (printed : 0x20 ≤ c.toNat) (rest : Quoted chars written) :
      Quoted (c :: chars) (c :: written)
  | escaped {c e : Char} {chars written : List Char} (letter : (e, c) ∈ escapes)
      (rest : Quoted chars written) : Quoted (c :: chars) ('\\' :: e :: written)
  | unit {c x y z w : Char} {chars written : List Char} (digits : IsUnit c.toNat x y z w)
      (rest : Quoted chars written) :
      Quoted (c :: chars) ('\\' :: 'u' :: x :: y :: z :: w :: written)
  /-- A character beyond the first plane is written in two halves. -/
  | pair {c x y z w x' y' z' w' : Char} {chars written : List Char} {high low : Nat}
      (high_range : 0xD800 ≤ high ∧ high < 0xDC00) (low_range : 0xDC00 ≤ low ∧ low < 0xE000)
      (halves : 0x10000 + (high - 0xD800) * 0x400 + (low - 0xDC00) = c.toNat)
      (first : IsUnit high x y z w) (second : IsUnit low x' y' z' w')
      (rest : Quoted chars written) :
      Quoted (c :: chars) ('\\' :: 'u' :: x :: y :: z :: w :: '\\' :: 'u' :: x' :: y' :: z' :: w' ::
        written)

namespace Token

/-- **How a token is written.** -/
inductive Written : Token → List Char → Prop where
  | beginArray : Written beginArray ['[']
  | endArray : Written endArray [']']
  | beginObject : Written beginObject ['\x7b']
  | endObject : Written endObject ['\x7d']
  | colon : Written colon [':']
  | comma : Written comma [',']
  | null : Written (scalar .null) "null".toList
  | true : Written (scalar (.bool Bool.true)) "true".toList
  | false : Written (scalar (.bool Bool.false)) "false".toList
  | number (n : Nat) : Written (scalar (.number n)) (Nat.toDigits 10 n)
  | text {s : String} {written : List Char} (chars : Quoted s.toList written) :
      Written (text s) ('"' :: (written ++ ['"']))

/-- Neither a letter nor a digit stands directly behind a word or a number. -/
def EndsBefore : Token → List Char → Prop
  | scalar _, rest => ∀ c ∈ rest.head?, ¬ c.isAlphanum
  | _, _ => True

/-- A number is a word of 64 bits. -/
def Fits : Token → Prop
  | scalar (.number n) => n < UInt64.size
  | _ => True

instance : DecidablePred Fits := fun t => by
  unfold Fits
  split <;> infer_instance

end Token

/-- **How tokens are written**, with blanks in front of them, between them and at the end. -/
inductive Written : List Token → List Char → Prop where
  | done : Written [] []
  | blank {c : Char} {tokens : List Token} {rest : List Char} (h : c ∈ [' ', '\t', '\n', '\r'])
      (more : Written tokens rest) : Written tokens (c :: rest)
  | token {t : Token} {tokens : List Token} {written rest : List Char} (here : t.Written written)
      (ends : t.EndsBefore rest) (more : Written tokens rest) :
      Written (t :: tokens) (written ++ rest)

/-- **A text spells a value.** -/
def Spells (text : String) (v : Json) : Prop := Written v.spell text.toList

theorem fits_spell_number (n : Nat) :
    (∀ t ∈ (number n).spell, t.Fits) ↔ n < UInt64.size := by
  rw [spell, List.forall_mem_singleton]
  exact Iff.rfl

theorem fits_spellMoreMembers (members : List (String × Json)) :
    (∀ t ∈ spellMoreMembers members, t.Fits) ↔ ∀ m ∈ members, ∀ t ∈ m.2.spell, t.Fits := by
  induction members with
  | nil => simp [spellMoreMembers, Token.Fits]
  | cons m members ih =>
    rw [spellMoreMembers]
    simp only [List.mem_cons, List.mem_append, or_imp, forall_and, ih]
    simp [Token.Fits]

theorem fits_spell_object (members : List (String × Json)) :
    (∀ t ∈ (object members).spell, t.Fits) ↔ ∀ m ∈ members, ∀ t ∈ m.2.spell, t.Fits := by
  cases members with
  | nil => simp [spell, spellMembers, Token.Fits]
  | cons m members =>
    rw [spell, spellMembers]
    simp only [List.mem_cons, List.mem_append, or_imp, forall_and, fits_spellMoreMembers]
    simp [Token.Fits]

/-! ## 2. The lexer -/

section

variable {state next : LexerState} {c : Char} {t : Token} {rest written chars : List Char}

theorem tokensFrom_silent (h : state.step c = some ([], next)) (rest : List Char) :
    tokensFrom state (c :: rest) = tokensFrom next rest := by
  simp [tokensFrom, h]

theorem tokensFrom_single (h : state.step c = some ([t], next)) (rest : List Char) :
    tokensFrom state (c :: rest) = (tokensFrom next rest).map (t :: ·) := by
  simp [tokensFrom, h]

theorem tokensFrom_after (finish : state.finish = some [t])
    (step : ∀ c ∈ rest.head?, state.step c = LexerState.stepAfter t c) :
    tokensFrom state rest = (tokensFrom .between rest).map (t :: ·) := by
  cases rest with
  | nil => exact finish
  | cons c rest =>
    rw [tokensFrom, step c rfl, LexerState.stepAfter, tokensFrom, LexerState.step]
    cases LexerState.stepBetween c with
    | none => rfl
    | some next => simp [Option.map_map, Function.comp_def]

/-! ### Words and numbers -/

theorem isAlphanum_eq (c : Char) : c.isAlphanum = (c.isUpper || c.isLower || c.isDigit) := rfl

theorem tokensFrom_letters (before letters : List Char) (lower : ∀ c ∈ letters, c.isLower)
    (rest : List Char) :
    tokensFrom (.word before) (letters ++ rest) =
      tokensFrom (.word (letters.reverse ++ before)) rest := by
  induction letters generalizing before with
  | nil => rfl
  | cons c letters ih =>
    have one : LexerState.step (.word before) c = some ([], .word (c :: before)) := by
      simp [LexerState.step, lower c]
    rw [List.cons_append, tokensFrom_silent one,
      ih _ fun d hd => lower d (List.mem_cons_of_mem c hd)]
    simp

/-- **A word is read**, up to where it ends. -/
theorem tokensFrom_word {letters : List Char}
    (first : LexerState.step .between c = some ([], .word [c]))
    (lower : letters.all Char.isLower)
    (named : LexerState.wordToken? (letters.reverse ++ [c]) = some t)
    (ends : ∀ c ∈ rest.head?, ¬ c.isAlphanum) :
    tokensFrom .between (c :: letters ++ rest) = (tokensFrom .between rest).map (t :: ·) := by
  rw [List.cons_append, tokensFrom_silent first, tokensFrom_letters _ _ (List.all_eq_true.1 lower)]
  refine tokensFrom_after (by simp [LexerState.finish, named]) fun d here => ?_
  have other : ¬ d.isLower := fun lower => ends d here (by simp [isAlphanum_eq, lower])
  simp [LexerState.step, other, named]

theorem tokensFrom_number (n : Nat) (ends : ∀ c ∈ rest.head?, ¬ c.isAlphanum) :
    tokensFrom (.number n) rest = (tokensFrom .between rest).map (.scalar (.number n) :: ·) := by
  refine tokensFrom_after rfl fun c here => ?_
  have other : ¬ c.isDigit := fun digit => ends c here (by simp [isAlphanum_eq, digit])
  simp [LexerState.step, LexerState.digit?, other]

theorem digit?_digitChar {d : Nat} (h : d < 10) :
    LexerState.isBlank d.digitChar = false ∧ LexerState.digit? d.digitChar = some d := by
  have all : ∀ d : Fin 10, LexerState.isBlank (Nat.digitChar d) = false ∧
      LexerState.digit? (Nat.digitChar d) = some d.val := by decide
  exact all ⟨d, h⟩

/-- **Digits are read one by one**, as long as the number is a word. -/
theorem tokensFrom_digits (n : Nat) (rest : List Char) :
    tokensFrom .between (Nat.toDigits 10 n ++ rest) =
      if n < UInt64.size then tokensFrom (.number n) rest else none := by
  induction n using Nat.strongRecOn generalizing rest with
  | ind n ih =>
    by_cases one : n < 10
    · obtain ⟨blank, digit⟩ := digit?_digitChar one
      have first : LexerState.step .between n.digitChar = some ([], .number n) := by
        simp [LexerState.step, LexerState.stepBetween, blank, digit]
      have word : n < UInt64.size := Nat.lt_trans one (by decide)
      rw [Nat.toDigits_of_lt_base one, List.singleton_append, tokensFrom_silent first, if_pos word]
    · obtain ⟨_, digit⟩ := digit?_digitChar (Nat.mod_lt n (by decide : 0 < 10))
      have whole : 10 * (n / 10) + n % 10 = n := Nat.div_add_mod n 10
      have some_digits : n / 10 ≠ 0 := by omega
      rw [Nat.toDigits_of_base_le (by decide) (Nat.le_of_not_lt one), List.append_assoc,
        List.singleton_append, ih (n / 10) (by omega)]
      by_cases word : n < UInt64.size
      · have last : LexerState.step (.number (n / 10)) (n % 10).digitChar =
            some ([], .number n) := by
          simp [LexerState.step, digit, whole, some_digits, word]
        rw [if_pos (by omega), if_pos word, tokensFrom_silent last]
      · have last : LexerState.step (.number (n / 10)) (n % 10).digitChar = none := by
          simp [LexerState.step, digit, whole, word]
        rw [if_neg word]
        split <;> simp [tokensFrom, last]

/-! ### Texts -/

theorem hexDigit?_of {d : Nat} {c : Char} (h : IsHexDigit d c) :
    LexerState.hexDigit? c = some d := by
  have lower : ∀ p ∈ "0123456789abcdef".toList.zipIdx, LexerState.hexDigit? p.1 = some p.2 := by
    decide
  have upper : ∀ p ∈ "0123456789ABCDEF".toList.zipIdx, LexerState.hexDigit? p.1 = some p.2 := by
    decide
  rcases h with h | h
  · exact lower (c, d) (List.mk_mem_zipIdx_iff_getElem?.2 h)
  · exact upper (c, d) (List.mk_mem_zipIdx_iff_getElem?.2 h)

/-- **Four digits are a code unit.** -/
theorem tokensFrom_unit {value : Nat} {x y z w : Char} {high : Option Nat}
    (digits : IsUnit value x y z w) (ends : LexerState.endUnit chars value high = some next)
    (rest : List Char) :
    tokensFrom (.unit chars 4 0 high) (x :: y :: z :: w :: rest) = tokensFrom next rest := by
  have upper : 16 * (value / 4096) + value / 256 % 16 = value / 256 := by omega
  have middle : 16 * (value / 256) + value / 16 % 16 = value / 16 := by omega
  have whole : 16 * (value / 16) + value % 16 = value := by omega
  have first : LexerState.step (.unit chars 4 0 high) x =
      some ([], .unit chars 3 (value / 4096) high) := by
    simp [LexerState.step, hexDigit?_of digits.first]
  have second : LexerState.step (.unit chars 3 (value / 4096) high) y =
      some ([], .unit chars 2 (value / 256) high) := by
    simp [LexerState.step, hexDigit?_of digits.second, upper]
  have third : LexerState.step (.unit chars 2 (value / 256) high) z =
      some ([], .unit chars 1 (value / 16) high) := by
    simp [LexerState.step, hexDigit?_of digits.third, middle]
  have fourth : LexerState.step (.unit chars 1 (value / 16) high) w = some ([], next) := by
    simp [LexerState.step, hexDigit?_of digits.fourth, whole, ends]
  rw [tokensFrom_silent first, tokensFrom_silent second, tokensFrom_silent third,
    tokensFrom_silent fourth]

theorem endUnit_toNat (chars : List Char) (c : Char) :
    LexerState.endUnit chars c.toNat none = some (.text (c :: chars)) := by
  have valid : c.toNat < 0xD800 ∨ (0xDFFF < c.toNat ∧ c.toNat < 0x110000) := c.valid
  have high : ¬ (0xD800 ≤ c.toNat ∧ c.toNat < 0xDC00) := by omega
  have low : ¬ (0xDC00 ≤ c.toNat ∧ c.toNat < 0xE000) := by omega
  simp [LexerState.endUnit, high, low]

/-- **The characters between quotes are read.** -/
theorem tokensFrom_quoted (h : Quoted chars written) (before : List Char) (rest : List Char) :
    tokensFrom (.text before) (written ++ '"' :: rest) =
      (tokensFrom .between rest).map (.text (String.ofList (before.reverse ++ chars)) :: ·) := by
  have backslash (before : List Char) :
      LexerState.step (.text before) '\\' = some ([], .escape before) := by
    simp [LexerState.step]
  have letter (before : List Char) :
      LexerState.step (.escape before) 'u' = some ([], .unit before 4 0 none) := by
    simp [LexerState.step]
  induction h generalizing before with
  | nil =>
    rw [List.append_nil]
    exact tokensFrom_single rfl rest
  | @plain c chars _ quote slash printed _ ih =>
    have one : LexerState.step (.text before) c = some ([], .text (c :: before)) := by
      simp [LexerState.step, quote, slash, Nat.not_lt.2 printed]
    rw [List.cons_append, tokensFrom_silent one, ih]
    simp
  | @escaped c e chars _ named _ ih =>
    have one : LexerState.step (.escape before) e = some ([], .text (c :: before)) := by
      have all : ∀ p ∈ escapes, p.1 ≠ 'u' ∧ LexerState.escaped? p.1 = some p.2 := by decide
      obtain ⟨other, stands⟩ := all _ named
      simp [LexerState.step, other, stands]
    rw [List.cons_append, List.cons_append, tokensFrom_silent (backslash _),
      tokensFrom_silent one, ih]
    simp
  | unit digits _ ih =>
    simp only [List.cons_append]
    rw [tokensFrom_silent (backslash _), tokensFrom_silent (letter _),
      tokensFrom_unit digits (endUnit_toNat _ _), ih]
    simp
  | @pair c _ _ _ _ _ _ _ _ chars _ high low high_range low_range halves first second _ ih =>
    have half : LexerState.endUnit before high none = some (.pair before high) := by
      simp [LexerState.endUnit, high_range]
    have both : LexerState.endUnit before low (some high) = some (.text (c :: before)) := by
      simp [LexerState.endUnit, low_range, halves]
    have more : LexerState.step (.pair before high) '\\' = some ([], .pairEscape before high) := by
      simp [LexerState.step]
    have again : LexerState.step (.pairEscape before high) 'u' =
        some ([], .unit before 4 0 (some high)) := by
      simp [LexerState.step]
    simp only [List.cons_append]
    rw [tokensFrom_silent (backslash _), tokensFrom_silent (letter _), tokensFrom_unit first half,
      tokensFrom_silent more, tokensFrom_silent again, tokensFrom_unit second both, ih]
    simp

/-! ### Tokens -/

/-- **A token is read**, unless it is a number that is too large.  Words and numbers end only where
something else begins, so what follows has to be known. -/
theorem tokensFrom_token (h : t.Written written) (ends : t.EndsBefore rest) :
    tokensFrom .between (written ++ rest) =
      if t.Fits then (tokensFrom .between rest).map (t :: ·) else none := by
  cases h with
  | beginArray | endArray | beginObject | endObject | colon | comma =>
    exact tokensFrom_single rfl rest
  | null => exact tokensFrom_word rfl (by rfl) (by rfl) ends
  | true => exact tokensFrom_word rfl (by rfl) (by rfl) ends
  | false => exact tokensFrom_word rfl (by rfl) (by rfl) ends
  | number n => rw [tokensFrom_digits, tokensFrom_number n ends]; rfl
  | text chars =>
    have opens : LexerState.step .between '"' = some ([], .text []) := rfl
    rw [List.cons_append, List.append_assoc, List.singleton_append, tokensFrom_silent opens,
      tokensFrom_quoted chars]
    simp [Token.Fits]

/-- **The tokens of a text are read**, unless one is a number that is too large. -/
theorem tokensFrom_written {tokens : List Token} (h : Written tokens written) :
    tokensFrom .between written =
      if ∀ t ∈ tokens, t.Fits then some tokens else none := by
  induction h with
  | done => rfl
  | @blank c _ _ between _ ih =>
    have one : LexerState.step .between c = some ([], .between) := by
      simp only [List.mem_cons, List.not_mem_nil, or_false] at between
      rcases between with rfl | rfl | rfl | rfl <;> rfl
    rw [tokensFrom_silent one, ih]
  | @token t tokens _ _ here ends _ ih =>
    rw [tokensFrom_token here ends, ih]
    by_cases fits : t.Fits <;> by_cases others : ∀ t ∈ tokens, t.Fits <;> simp [fits, others]

end

/-! ## 3. The parser -/

theorem foldlM_firstItem (v : Json) (stack : List Frame) (rest : List Token) :
    (v.spell ++ rest).foldlM ParserState.step (.firstItem stack) =
      (v.spell ++ rest).foldlM ParserState.step (.value (.array [] :: stack)) := by
  cases v <;> simp [spell, List.foldlM_cons, ParserState.step]

mutual

/-- **A value that is spelled is read**, whatever tokens follow, and handed to whatever was waiting
for it: an array, an object or the whole text. -/
theorem foldlM_spell (v : Json) (stack : List Frame) (rest : List Token) :
    (v.spell ++ rest).foldlM ParserState.step (.value stack) =
      rest.foldlM ParserState.step (.after v stack) :=
  match v with
  | null | bool _ | number _ | text _ => rfl
  | array [] => rfl
  | array (v :: items) => by
    simp only [spell, spellItems, List.cons_append, List.append_assoc, List.foldlM_cons]
    show (v.spell ++ (spellMoreItems items ++ rest)).foldlM ParserState.step
      (.firstItem stack) = _
    rw [foldlM_firstItem, foldlM_spell v, foldlM_spellMoreItems]
    simp
  | object [] => rfl
  | object ((n, v) :: members) => by
    simp only [spell, spellMembers, List.cons_append, List.append_assoc, List.foldlM_cons]
    show ((v.spell ++ (spellMoreMembers members ++ rest)).foldlM ParserState.step
      (.value (.object [] n :: stack))) = _
    rw [foldlM_spell v, foldlM_spellMoreMembers]
    simp

theorem foldlM_spellMoreItems (items : List Json) (v : Json) (before : List Json)
    (stack : List Frame) (rest : List Token) :
    (spellMoreItems items ++ rest).foldlM ParserState.step (.after v (.array before :: stack)) =
      rest.foldlM ParserState.step (.after (.array (before.reverse ++ v :: items)) stack) :=
  match items with
  | [] => by
    simp only [spellMoreItems, List.cons_append, List.nil_append, List.foldlM_cons]
    show rest.foldlM ParserState.step (.after (.array (v :: before).reverse) stack) = _
    simp
  | w :: items => by
    simp only [spellMoreItems, List.cons_append, List.append_assoc, List.foldlM_cons]
    show ((w.spell ++ (spellMoreItems items ++ rest)).foldlM ParserState.step
      (.value (.array (v :: before) :: stack))) = _
    rw [foldlM_spell w, foldlM_spellMoreItems items]
    simp

/-- More members of an object. -/
theorem foldlM_spellMoreMembers (members : List (String × Json)) (n : String) (v : Json)
    (before : List (String × Json)) (stack : List Frame) (rest : List Token) :
    (spellMoreMembers members ++ rest).foldlM ParserState.step
        (.after v (.object before n :: stack)) =
      rest.foldlM ParserState.step
        (.after (.object (before.reverse ++ (n, v) :: members)) stack) :=
  match members with
  | [] => by
    simp only [spellMoreMembers, List.cons_append, List.nil_append, List.foldlM_cons]
    show rest.foldlM ParserState.step (.after (.object ((n, v) :: before).reverse) stack) = _
    simp
  | (m, w) :: members => by
    simp only [spellMoreMembers, List.cons_append, List.append_assoc, List.foldlM_cons]
    show ((w.spell ++ (spellMoreMembers members ++ rest)).foldlM ParserState.step
      (.value (.object ((n, v) :: before) m :: stack))) = _
    rw [foldlM_spell w, foldlM_spellMoreMembers members]
    simp

end

theorem ofTokens?_spell (v : Json) : ofTokens? v.spell = some v := by
  have read := foldlM_spell v [] []
  rw [List.append_nil] at read
  rw [ofTokens?, read]
  rfl

/-- **A text of the grammar is read**, unless a number in it is too large. -/
theorem parse?_of_spells {text : String} {v : Json} (h : Spells text v) :
    parse? text = if ∀ t ∈ v.spell, t.Fits then some v else none := by
  rw [parse?, tokens, tokensFrom_written h]
  split
  · exact ofTokens?_spell v
  · rfl

/-! ## 4. Printed texts -/

theorem isHexDigit_hexDigit {d : Nat} (h : d < 16) : IsHexDigit d (hexDigit d) := by
  have all : ∀ d : Fin 16, "0123456789abcdef".toList[d.val]? = some (hexDigit d) := by decide
  exact .inl (all ⟨d, h⟩)

/-- A character is printed as the grammar has it. -/
theorem quoted_escapeChar (c : Char) {chars written : List Char} (rest : Quoted chars written) :
    Quoted (c :: chars) ((escapeChar c).toList ++ written) := by
  unfold escapeChar
  split
  case h_8 quote slash _ _ _ _ _ =>
    split
    · rename_i control
      have parts :
          ("\\u00" ++ String.ofList [hexDigit (c.toNat / 16), hexDigit (c.toNat % 16)]).toList =
            ['\\', 'u', '0', '0', hexDigit (c.toNat / 16), hexDigit (c.toNat % 16)] := by
        simp
      have zero : c.toNat / 4096 = 0 ∧ c.toNat / 256 % 16 = 0 ∧
          c.toNat / 16 % 16 = c.toNat / 16 := by
        omega
      rw [parts]
      refine .unit ⟨?_, ?_, ?_, ?_⟩ rest
      · rw [zero.1]
        exact .inl rfl
      · rw [zero.2.1]
        exact .inl rfl
      · rw [zero.2.2]
        exact isHexDigit_hexDigit (by omega)
      · exact isHexDigit_hexDigit (Nat.mod_lt _ (by decide))
    · rename_i printed
      have one : c.toString.toList = [c] := by simp
      rw [one]
      exact .plain quote slash (Nat.le_of_not_lt printed) rest
  all_goals exact .escaped (by decide) rest

theorem quoted_join (chars : List Char) :
    Quoted chars (String.join (chars.map escapeChar)).toList := by
  induction chars with
  | nil => exact .nil
  | cons c chars ih =>
    rw [List.map_cons, String.join_cons, String.toList_append]
    exact quoted_escapeChar c ih

theorem written_quote (s : String) : Token.Written (.text s) (quote s).toList := by
  have parts : (quote s).toList =
      '"' :: ((String.join (s.toList.map escapeChar)).toList ++ ['"']) := by
    simp [quote]
  rw [parts]
  exact .text (quoted_join s.toList)

theorem toList_intercalate_cons (s : String) (parts : List String) :
    (",".intercalate (s :: parts)).toList =
      s.toList ++ parts.flatMap fun part => ',' :: part.toList := by
  induction parts generalizing s with
  | nil => simp
  | cons t parts ih =>
    rw [String.intercalate_cons_cons, String.toList_append, ih]
    simp

mutual

/-- A value on one line, in front of anything that does not make it longer. -/
theorem written_compact (v : Json) {tokens : List Token} {rest : List Char}
    (ends : ∀ c ∈ rest.head?, ¬ c.isAlphanum) (more : Written tokens rest) :
    Written (v.spell ++ tokens) (v.compact.toList ++ rest) :=
  match v with
  | null => .token .null ends more
  | bool true => .token .true ends more
  | bool false => .token .false ends more
  | number n => by
    have digits : (compact (number n)).toList = Nat.toDigits 10 n := Nat.toList_repr
    rw [digits]
    exact .token (.number n) ends more
  | text s => .token (written_quote s) trivial more
  | array [] => by
    have parts : (compact (array [])).toList ++ rest = ['['] ++ ([']'] ++ rest) := rfl
    rw [parts]
    exact .token .beginArray trivial (.token .endArray trivial more)
  | array (v :: items) => by
    have parts : (compact (array (v :: items))).toList ++ rest =
        ['['] ++ (v.compact.toList ++
          ((compactItems items).flatMap (fun part => ',' :: part.toList) ++ ']' :: rest)) := by
      rw [compact, compactItems, String.toList_append, String.toList_append,
        toList_intercalate_cons]
      simp
    rw [parts, spell, spellItems, List.cons_append, List.append_assoc]
    exact .token .beginArray trivial
      (written_compact v (by cases items <;> simp [compactItems]) (written_compactItems items more))
  | object [] => by
    have parts : (compact (object [])).toList ++ rest = ['\x7b'] ++ (['\x7d'] ++ rest) := rfl
    rw [parts]
    exact .token .beginObject trivial (.token .endObject trivial more)
  | object ((n, v) :: members) => by
    have parts : (compact (object ((n, v) :: members))).toList ++ rest =
        ['\x7b'] ++ ((quote n).toList ++ ([':'] ++ (v.compact.toList ++
          ((compactMembers members).flatMap (fun part => ',' :: part.toList) ++
            '\x7d' :: rest)))) := by
      rw [compact, compactMembers, String.toList_append, String.toList_append,
        toList_intercalate_cons]
      simp
    rw [parts, spell, spellMembers, List.cons_append, List.cons_append, List.cons_append,
      List.append_assoc]
    exact .token .beginObject trivial (.token (written_quote n) trivial (.token .colon trivial
      (written_compact v (by cases members <;> simp [compactMembers])
        (written_compactMembers members more))))

/-- More items of an array up to its end. -/
theorem written_compactItems (items : List Json) {tokens : List Token} {rest : List Char}
    (more : Written tokens rest) :
    Written (spellMoreItems items ++ tokens)
      ((compactItems items).flatMap (fun part => ',' :: part.toList) ++ ']' :: rest) :=
  match items with
  | [] =>
    have last : Written (.endArray :: tokens) ([']'] ++ rest) := .token .endArray trivial more
    last
  | v :: items => by
    have parts : (compactItems (v :: items)).flatMap (fun part => ',' :: part.toList) ++
          ']' :: rest =
        [','] ++ (v.compact.toList ++
          ((compactItems items).flatMap (fun part => ',' :: part.toList) ++ ']' :: rest)) := by
      simp [compactItems]
    rw [parts, spellMoreItems, List.cons_append, List.append_assoc]
    exact .token .comma trivial
      (written_compact v (by cases items <;> simp [compactItems]) (written_compactItems items more))

/-- More members of an object up to its end. -/
theorem written_compactMembers (members : List (String × Json)) {tokens : List Token}
    {rest : List Char} (more : Written tokens rest) :
    Written (spellMoreMembers members ++ tokens)
      ((compactMembers members).flatMap (fun part => ',' :: part.toList) ++ '\x7d' :: rest) :=
  match members with
  | [] =>
    have last : Written (.endObject :: tokens) (['\x7d'] ++ rest) :=
      .token .endObject trivial more
    last
  | (n, v) :: members => by
    have parts : (compactMembers ((n, v) :: members)).flatMap (fun part => ',' :: part.toList) ++
          '\x7d' :: rest =
        [','] ++ ((quote n).toList ++ ([':'] ++ (v.compact.toList ++
          ((compactMembers members).flatMap (fun part => ',' :: part.toList) ++
            '\x7d' :: rest)))) := by
      simp [compactMembers]
    rw [parts, spellMoreMembers, List.cons_append, List.cons_append, List.cons_append,
      List.append_assoc]
    exact .token .comma trivial (.token (written_quote n) trivial (.token .colon trivial
      (written_compact v (by cases members <;> simp [compactMembers])
        (written_compactMembers members more))))

end

/-- **A value that is printed on one line is spelled.** -/
theorem spells_compact (v : Json) : Spells v.compact v := by
  have ends : ∀ c ∈ ([] : List Char).head?, ¬ c.isAlphanum := by simp
  have written := written_compact v ends .done
  rwa [List.append_nil, List.append_nil] at written

end Json

end TraceRecorder
