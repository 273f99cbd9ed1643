import LoadShape.Proofs.Text.Runs
import LoadShape.Toml.Document
import LoadShape.Toml.Printer

/-!
# Reading printed values

A value that is printed within a line is read back, and the reader stops where it ends.
Every string can be printed; a whole number must be one of 64 bits.
-/

namespace LoadShape.Toml

open LoadShape.Number LoadShape.Text

/-! ## Strings -/

/-- The escape of every character that needs one is understood. -/
theorem codePoint?_fourDigits :
    ∀ code < 128, codePoint? (fourDigits code) = some (Char.ofNat code) := by
  decide +kernel

/-- What is not plain is a control character. -/
theorem toNat_lt_of_not_isPlain {c : Char} (notPlain : isPlain c = false) : c.toNat < 128 := by
  simp only [isPlain, Bool.or_eq_false_iff, Bool.and_eq_false_iff, decide_eq_false_iff_not,
    Nat.not_le] at notPlain
  omega

/-- One character is read back, whether it is escaped or not. -/
theorem basicBody?_escapeChar (fuel : Nat) (c : Char) (rest : List Char) :
    basicBody? (fuel + 1) (escapeChar c ++ rest) = consChar c (basicBody? fuel rest) := by
  unfold escapeChar
  split
  · next quote => simp [basicBody?, escape?, simpleEscape?, quote]
  · next notQuote =>
      split
      · next backslash => simp [basicBody?, escape?, simpleEscape?, backslash]
      · next notBackslash =>
          split
          · next plain => simp [basicBody?, notQuote, notBackslash, plain]
          · next notPlain =>
              have code := codePoint?_fourDigits c.toNat
                (toNat_lt_of_not_isPlain (by simpa using notPlain))
              rw [Char.ofNat_toNat] at code
              simp only [fourDigits, List.map_cons, List.map_nil] at code ⊢
              simp [basicBody?, escape?, code]

/-- A printed body is read back up to the closing mark. -/
theorem basicBody?_flatMap {fuel : Nat} {cs : List Char} (enough : cs.length < fuel)
    (rest : List Char) :
    basicBody? fuel (cs.flatMap escapeChar ++ '"' :: rest) = some (cs, rest) := by
  induction cs generalizing fuel with
  | nil =>
      obtain ⟨fuel, rfl⟩ : ∃ less, fuel = less + 1 := ⟨fuel - 1, by omega⟩
      simp [basicBody?]
  | cons c cs ih =>
      rw [List.length_cons] at enough
      obtain ⟨fuel, rfl⟩ : ∃ less, fuel = less + 1 := ⟨fuel - 1, by omega⟩
      rw [List.flatMap_cons, List.append_assoc, basicBody?_escapeChar, ih (by omega)]
      rfl

theorem escapeChar_eq_cons (c : Char) :
    ∃ first more, escapeChar c = first :: more ∧ first ≠ '"' := by
  unfold escapeChar
  split
  · exact ⟨'\\', _, rfl, by decide⟩
  · next notQuote =>
      split
      · exact ⟨'\\', _, rfl, by decide⟩
      · split
        · exact ⟨c, [], rfl, notQuote⟩
        · exact ⟨'\\', _, rfl, by decide⟩

theorem length_le_length_escaped (cs : List Char) :
    cs.length ≤ (cs.flatMap escapeChar).length := by
  induction cs with
  | nil => exact Nat.le_refl 0
  | cons c cs ih =>
      obtain ⟨first, more, escaped, -⟩ := escapeChar_eq_cons c
      rw [List.flatMap_cons, escaped]
      simp only [List.length_cons, List.length_append]
      omega

/-- A printed string is read back. -/
theorem basicString?_print (cs rest : List Char) :
    basicString? (cs.flatMap escapeChar ++ '"' :: rest) = some (String.ofList cs, rest) := by
  have enough : cs.length < (cs.flatMap escapeChar ++ '"' :: rest).length + 1 := by
    have escaped := length_le_length_escaped cs
    rw [List.length_append]
    omega
  rw [basicString?, basicBody?_flatMap enough]
  rfl

/-- What begins with a single mark is a string within a line. -/
theorem scalar?_of_single_mark {body : List Char}
    (single : ∀ tail, body ≠ '"' :: '"' :: tail) :
    scalar? ('"' :: body) =
      (basicString? body).map fun (text, rest) => (.string text, rest) := by
  rw [scalar?]
  exact single

/-- A printed string is a value.  Even an empty one is not taken for the opening mark of a
string of several lines, as the line ends after it. -/
theorem scalar?_string (cs rest : List Char) :
    scalar? ('"' :: (cs.flatMap escapeChar ++ '"' :: '\n' :: rest)) =
      some (.string (String.ofList cs), '\n' :: rest) := by
  have single : ∀ tail, cs.flatMap escapeChar ++ '"' :: '\n' :: rest ≠ '"' :: '"' :: tail := by
    intro tail heq
    cases cs with
    | nil => simp at heq
    | cons c cs =>
        obtain ⟨first, more, escaped, notQuote⟩ := escapeChar_eq_cons c
        rw [List.flatMap_cons, escaped] at heq
        exact notQuote (List.cons.inj heq).1
  rw [scalar?_of_single_mark single, basicString?_print]
  rfl

/-! ## Numbers -/

/-- What stops a numeral. -/
def inDigits (c : Char) : Bool := c.isDigit || c = '_'

theorem moreDigits_of_stops {rest : List Char} (stops : Stops inDigits rest) :
    moreDigits Char.isDigit rest = ([], rest) := by
  cases rest with
  | nil => simp [moreDigits]
  | cons c rest =>
      have stop := stops c rest rfl
      simp only [inDigits, Bool.or_eq_false_iff, decide_eq_false_iff_not] at stop
      simp [moreDigits, stop.1, stop.2]

theorem ne_underscore_of_isDigit {c : Char} (digit : c.isDigit = true) : c ≠ '_' := by
  rintro rfl
  exact absurd digit (by decide)

theorem moreDigits_run {digits rest : List Char} (members : ∀ c ∈ digits, c.isDigit = true)
    (stops : Stops inDigits rest) :
    moreDigits Char.isDigit (digits ++ rest) = (digits, rest) := by
  induction digits with
  | nil => exact moreDigits_of_stops stops
  | cons c digits ih =>
      have digit := members c List.mem_cons_self
      have others := ih (fun d mem => members d (List.mem_cons_of_mem _ mem))
      simp [moreDigits, ne_underscore_of_isDigit digit, digit, others]

/-- A numeral is found whole. -/
theorem decimal?_toDigits (n : Nat) {rest : List Char} (stops : Stops inDigits rest) :
    decimal? (Nat.toDigits 10 n ++ rest) = some (Nat.toDigits 10 n, rest) := by
  obtain ⟨first, more, digits, isDigit, moreDigits, leading⟩ := exists_toDigits_eq_cons n
  rw [digits, List.cons_append]
  by_cases zero : first = '0'
  · rw [zero, leading zero]
    rfl
  · simp [decimal?, zero, digits?, isDigit, moreDigits_run moreDigits stops]

/-- The sign and the digits of a printed number. -/
theorem splitSign_numeral (n : Int) (rest : List Char) :
    splitSign (numeral n ++ rest) = (decide (n < 0), Nat.toDigits 10 n.natAbs ++ rest) := by
  cases n with
  | ofNat n =>
      obtain ⟨first, more, digits, isDigit, -⟩ := exists_toDigits_eq_cons n
      have notMinus : first ≠ '-' := by
        rintro rfl
        exact absurd isDigit (by decide)
      have notPlus : first ≠ '+' := by
        rintro rfl
        exact absurd isDigit (by decide)
      have positive : ¬ (Int.ofNat n < 0) := by simp
      simp [numeral, digits, splitSign, notMinus, notPlus]
  | negSucc n =>
      have negative : Int.negSucc n < 0 := Int.negSucc_lt_zero n
      simp [numeral, splitSign, negative]

theorem signed_natAbs (n : Int) : signed (decide (n < 0)) n.natAbs = n := by
  unfold signed
  split
  · next negative =>
      simp only [decide_eq_true_eq] at negative
      omega
  · next notNegative =>
      simp only [decide_eq_true_eq] at notNegative
      omega

/-! ## What a whole number is not -/

/-- Some digits of a numeral are followed by others or by the line end. -/
theorem fixedDigits?_rest {count least greatest : Nat} {digits rest : List Char}
    (members : ∀ d ∈ digits, d.isDigit = true) {n : Nat} {after : List Char}
    (found : fixedDigits? count least greatest (digits ++ '\n' :: rest) = some (n, after)) :
    ∃ others, (∀ d ∈ others, d.isDigit = true) ∧ after = others ++ '\n' :: rest := by
  simp only [fixedDigits?, Option.ite_none_right_eq_some, Option.some.injEq,
    Prod.mk.injEq] at found
  obtain ⟨⟨-, allDigits, -⟩, -, after_eq⟩ := found
  rcases Nat.lt_or_ge digits.length count with beyond | within
  · have lineEnd : '\n' ∈ (digits ++ '\n' :: rest).take count := by
      obtain ⟨more, rfl⟩ : ∃ more, count = digits.length + (more + 1) :=
        ⟨count - digits.length - 1, by omega⟩
      rw [List.take_length_add_append, List.take_succ_cons]
      simp
    exact absurd (List.all_eq_true.mp allDigits _ lineEnd) (by decide)
  · refine ⟨digits.drop count, fun d mem => members d (List.mem_of_mem_drop mem), ?_⟩
    rw [← after_eq, List.drop_append_of_le_length within]

/-- So no other character is found after them. -/
theorem expect?_eq_none {c : Char} {digits rest : List Char}
    (members : ∀ d ∈ digits, d.isDigit = true) (notDigit : c.isDigit = false)
    (notEnd : c ≠ '\n') : expect? c (digits ++ '\n' :: rest) = none := by
  cases digits with
  | nil => exact if_neg fun eq => notEnd eq.symm
  | cons d digits =>
      refine if_neg fun eq => ?_
      rw [eq] at members
      exact absurd (members c List.mem_cons_self) (by simp [notDigit])

/-- A numeral does not begin with digits that a hyphen or a colon follows. -/
theorem fixedDigits?_numeral {count least greatest : Nat} {n : Int} {rest : List Char}
    {value : Nat} {after : List Char} {c : Char} (positive : 0 < count)
    (found : fixedDigits? count least greatest (numeral n ++ '\n' :: rest) = some (value, after))
    (notDigit : c.isDigit = false) (notEnd : c ≠ '\n') : expect? c after = none := by
  cases n with
  | ofNat n =>
      obtain ⟨others, members, rfl⟩ :=
        fixedDigits?_rest (fun d mem => isDigit_of_mem_toDigits mem) found
      exact expect?_eq_none members notDigit notEnd
  | negSucc n =>
      obtain ⟨count, rfl⟩ : ∃ less, count = less + 1 := ⟨count - 1, by omega⟩
      simp [fixedDigits?, numeral] at found

/-- A numeral is neither a date nor a time of day. -/
theorem datetime?_numeral (n : Int) (rest : List Char) :
    datetime? (numeral n ++ '\n' :: rest) = none := by
  have noDate : afterDate? (numeral n ++ '\n' :: rest) = none := by
    unfold afterDate?
    cases found : fixedDigits? 4 0 9999 (numeral n ++ '\n' :: rest) with
    | none => rfl
    | some part =>
        have noHyphen := fixedDigits?_numeral (by decide) found
          (show ('-').isDigit = false by decide) (by decide)
        simp [noHyphen]
  have noTime : afterTime? (numeral n ++ '\n' :: rest) = none := by
    unfold afterTime?
    cases found : fixedDigits? 2 0 23 (numeral n ++ '\n' :: rest) with
    | none => rfl
    | some part =>
        have noColon := fixedDigits?_numeral (by decide) found
          (show (':').isDigit = false by decide) (by decide)
        simp [noColon]
  simp [datetime?, noDate, noTime]

theorem lineEnd_stops (rest : List Char) : Stops inDigits ('\n' :: rest) :=
  stops_cons.mpr (by decide)

/-- A numeral has neither a fraction nor an exponent. -/
theorem float?_numeral (n : Int) (rest : List Char) :
    float? (numeral n ++ '\n' :: rest) = none := by
  simp [float?, splitSign_numeral, decimal?_toDigits _ (lineEnd_stops rest)]

/-- A numeral is not the word for an infinity, or for what is not a number. -/
theorem specialFloat?_numeral (n : Int) (rest : List Char) :
    specialFloat? (numeral n ++ '\n' :: rest) = none := by
  obtain ⟨first, more, digits, isDigit, -⟩ := exists_toDigits_eq_cons n.natAbs
  have notI : first ≠ 'i' := by
    rintro rfl
    exact absurd isDigit (by decide)
  have notN : first ≠ 'n' := by
    rintro rfl
    exact absurd isDigit (by decide)
  simp [specialFloat?, splitSign_numeral, digits, notI, notN]

/-- An integer in decimal digits. -/
def decimalInteger? : Scanner Value := fun cs => do
  let (negative, cs) := splitSign cs
  let (digits, rest) ← decimal? cs
  let value ← integerOf? (signed negative (Nat.ofDigitChars 10 digits 0))
  return (value, rest)

/-- Nothing but the letter of a base makes the digits other than decimal. -/
theorem integer?_eq_decimalInteger? {cs : List Char}
    (noBase : ∀ c tail, cs = '0' :: c :: tail → c = '\n') : integer? cs = decimalInteger? cs := by
  rw [integer?]
  · rfl
  · exact fun tail heq => absurd (noBase _ _ heq) (by decide)
  · exact fun tail heq => absurd (noBase _ _ heq) (by decide)
  · exact fun tail heq => absurd (noBase _ _ heq) (by decide)

/-- The digits of a numeral are not in a base that stands in front of them. -/
theorem integer?_numeral {n : Int} (least : signedMin ≤ n) (greatest : n ≤ signedMax)
    (rest : List Char) :
    integer? (numeral n ++ '\n' :: rest) = some (.integer n, '\n' :: rest) := by
  have noBase : ∀ c tail, numeral n ++ '\n' :: rest = '0' :: c :: tail → c = '\n' := by
    intro c tail heq
    cases n with
    | negSucc n => simp [numeral] at heq
    | ofNat n =>
        obtain ⟨first, more, digits, -, -, leading⟩ := exists_toDigits_eq_cons n
        simp only [numeral, digits, List.cons_append, List.cons.injEq] at heq
        rw [leading heq.1] at heq
        exact (List.cons.inj heq.2).1.symm
  rw [integer?_eq_decimalInteger? noBase]
  simp [decimalInteger?, splitSign_numeral, decimal?_toDigits _ (lineEnd_stops rest),
    signed_natAbs, integerOf?, least, greatest]

theorem number?_numeral {n : Int} (least : signedMin ≤ n) (greatest : n ≤ signedMax)
    (rest : List Char) :
    number? (numeral n ++ '\n' :: rest) = some (.integer n, '\n' :: rest) := by
  simp [number?, datetime?_numeral, float?_numeral, specialFloat?_numeral,
    integer?_numeral least greatest]

/-! ## Values -/

/-- A value that a document can hold: a whole number must be one of 64 bits. -/
def Printable.InRange : Printable → Prop
  | .integer n => signedMin ≤ n ∧ n ≤ signedMax
  | .string _ => True

/-- A printed number begins with a digit or a minus sign. -/
theorem numeral_eq_cons (n : Int) :
    ∃ first more, numeral n = first :: more ∧ (first.isDigit = true ∨ first = '-') := by
  cases n with
  | ofNat n =>
      obtain ⟨first, more, digits, isDigit, -⟩ := exists_toDigits_eq_cons n
      exact ⟨first, more, digits, Or.inl isDigit⟩
  | negSucc n => exact ⟨'-', _, rfl, Or.inr rfl⟩

/-- Characters that begin values of another kind begin no number. -/
theorem ne_of_begins_number {c d : Char} (begins : c.isDigit = true ∨ c = '-')
    (notDigit : d.isDigit = false) (notMinus : d ≠ '-') : c ≠ d := by
  rintro rfl
  rcases begins with digit | minus
  · exact absurd digit (by simp [notDigit])
  · exact notMinus minus

theorem scalar?_numeral {n : Int} (least : signedMin ≤ n) (greatest : n ≤ signedMax)
    (rest : List Char) :
    scalar? (numeral n ++ '\n' :: rest) = some (.integer n, '\n' :: rest) := by
  have number := number?_numeral least greatest rest
  obtain ⟨first, more, text, begins⟩ := numeral_eq_cons n
  have notQuote := ne_of_begins_number (d := '"') begins (by decide) (by decide)
  have notApostrophe := ne_of_begins_number (d := '\x27') begins (by decide) (by decide)
  have notTrue := ne_of_begins_number (d := 't') begins (by decide) (by decide)
  have notFalse := ne_of_begins_number (d := 'f') begins (by decide) (by decide)
  have start : first.isDigit = true ∨ first = '+' ∨ first = '-' := by
    rcases begins with digit | minus
    · exact Or.inl digit
    · exact Or.inr (Or.inr minus)
  rw [text, List.cons_append] at number ⊢
  simp [scalar?, notQuote, notApostrophe, notTrue, notFalse, start, number]

/-- What begins neither with a bracket nor with a brace is not nested. -/
theorem value?_eq_scalar? {depth : Nat} {c : Char} {rest : List Char} (notBracket : c ≠ '[')
    (notBrace : c ≠ '\x7b') : value? (depth + 1) (c :: rest) = scalar? (c :: rest) := by
  simp [value?, notBracket, notBrace]

/-- A printed value is read back up to the end of its line. -/
theorem value?_print (depth : Nat) {p : Printable} (inRange : p.InRange) (rest : List Char) :
    value? (depth + 1) (p.print ++ '\n' :: rest) = some (p.value, '\n' :: rest) := by
  cases p with
  | integer n =>
      obtain ⟨least, greatest⟩ := inRange
      have scalar := scalar?_numeral least greatest rest
      obtain ⟨first, more, text, begins⟩ := numeral_eq_cons n
      rw [text] at scalar
      rw [Printable.print, text, List.cons_append,
        value?_eq_scalar? (ne_of_begins_number begins (by decide) (by decide))
          (ne_of_begins_number begins (by decide) (by decide))]
      exact scalar
  | string cs =>
      have text : (Printable.string cs).print ++ '\n' :: rest =
          '"' :: (cs.flatMap escapeChar ++ '"' :: '\n' :: rest) := by
        simp [Printable.print]
      rw [text, value?_eq_scalar? (by decide) (by decide), scalar?_string]
      rfl

end LoadShape.Toml
