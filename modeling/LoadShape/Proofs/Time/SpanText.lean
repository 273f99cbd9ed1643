import LoadShape.Proofs.Text.Runs
import LoadShape.Time.SpanText
import Mathlib.Data.Nat.Init

/-!
# Reading written spans

A written span is a list of amounts that add up to it.  Reading goes through the amounts
one by one; none of its counters overflows, since no partial sum exceeds the span.
-/

namespace LoadShape.Time

open LoadShape.Number LoadShape.Text

/-! ## The amounts of a span -/

/-- The nanoseconds of amounts together. -/
def totalNanos (amounts : List (Nat × WrittenUnit)) : Nat :=
  amounts.foldr (fun amount total => amount.1 * amount.2.nanos + total) 0

@[simp]
theorem totalNanos_nil : totalNanos [] = 0 := rfl

@[simp]
theorem totalNanos_cons (amount : Nat × WrittenUnit) (amounts : List (Nat × WrittenUnit)) :
    totalNanos (amount :: amounts) = amount.1 * amount.2.nanos + totalNanos amounts := rfl

/-- The amounts add up to all but what the last unit leaves. -/
theorem totalNanos_breakDown (units : List WrittenUnit) (n : Nat) :
    totalNanos (breakDown units n) + units.foldl (fun left unit => left % unit.nanos) n = n := by
  induction units generalizing n with
  | nil => simp [breakDown]
  | cons unit shorter ih =>
      have rest := ih (n % unit.nanos)
      have whole := Nat.div_add_mod' n unit.nanos
      simp only [breakDown, totalNanos_cons, List.foldl_cons]
      omega

/-- Nothing is left where the last unit is a nanosecond. -/
theorem totalNanos_breakDown_append (units : List WrittenUnit) {unit : WrittenUnit}
    (nanosecond : unit.nanos = 1) (n : Nat) :
    totalNanos (breakDown (units ++ [unit]) n) = n := by
  have sum := totalNanos_breakDown (units ++ [unit]) n
  rw [List.foldl_append, List.foldl_cons, List.foldl_nil, nanosecond, Nat.mod_one] at sum
  exact sum

theorem totalNanos_writtenUnits (n : Nat) : totalNanos (breakDown writtenUnits n) = n := by
  have last : writtenUnits = writtenUnits.dropLast ++ [⟨1, "ns", "ns"⟩] := rfl
  rw [last]
  exact totalNanos_breakDown_append _ rfl n

/-- Amounts of nothing add nothing. -/
theorem totalNanos_filter (amounts : List (Nat × WrittenUnit)) :
    totalNanos (amounts.filter (·.1 ≠ 0)) = totalNanos amounts := by
  induction amounts with
  | nil => rfl
  | cons amount amounts ih =>
      by_cases empty : amount.1 = 0
      · rw [List.filter_cons_of_neg (by simp [empty]), ih, totalNanos_cons, empty]
        omega
      · rw [List.filter_cons_of_pos (by simp [empty]), totalNanos_cons, totalNanos_cons, ih]

theorem unit_mem_of_mem_breakDown {units : List WrittenUnit} {n : Nat}
    {amount : Nat × WrittenUnit} (mem : amount ∈ breakDown units n) : amount.2 ∈ units := by
  induction units generalizing n with
  | nil => simp [breakDown] at mem
  | cons unit shorter ih =>
      rcases List.mem_cons.mp mem with first | later
      · rw [first]
        exact List.mem_cons_self
      · exact List.mem_cons_of_mem _ (ih later)

/-- Amounts of units shorter than one that stands before them stay below that one. -/
theorem amount_lt_of_mem_breakDown {units : List WrittenUnit} {n limit : Nat}
    (sorted : units.Pairwise fun longer shorter => shorter.nanos < longer.nanos)
    (bounded : n < limit ∨ ∃ unit ∈ units, unit.nanos = limit)
    {amount : Nat × WrittenUnit} (mem : amount ∈ breakDown units n)
    (short : amount.2.nanos < limit) : amount.1 * amount.2.nanos < limit := by
  induction units generalizing n with
  | nil => simp [breakDown] at mem
  | cons unit shorter ih =>
      obtain ⟨below, sorted⟩ := List.pairwise_cons.mp sorted
      rcases List.mem_cons.mp mem with first | later
      · rw [first] at short ⊢
        have atMost : n / unit.nanos * unit.nanos ≤ n := Nat.div_mul_le_self n unit.nanos
        rcases bounded with small | ⟨other, otherMem, isLimit⟩
        · exact Nat.lt_of_le_of_lt atMost small
        · rcases List.mem_cons.mp otherMem with same | after
          · rw [same] at isLimit
            exact absurd short (by simp [isLimit])
          · have smaller := below other after
            simp only at short
            omega
      · refine ih sorted ?_ later
        have remainder : n % unit.nanos ≤ n := Nat.mod_le n unit.nanos
        rcases bounded with small | ⟨other, otherMem, isLimit⟩
        · exact Or.inl (Nat.lt_of_le_of_lt remainder small)
        · rcases List.mem_cons.mp otherMem with same | after
          · rw [same] at isLimit
            exact Or.inl (isLimit ▸ Nat.mod_lt n (by omega))
          · exact Or.inr ⟨other, after, isLimit⟩

/-! ## The names of written units -/

/-- The name is one of a unit of `nanos` nanoseconds, it is made of letters, and its first
letter cannot be taken for a part of the number in front of it. -/
def readsName (nanos : Nat) (name : List Char) : Bool :=
  (unitNamed? name).any (fun unit => unit.count * unit.grain = nanos &&
    (unit.grain = nanosPerSecond || (unit.grain = 1 && nanos < nanosPerSecond))) &&
  name.all inUnitName && name.head?.any (fun c => !inNumeral c && c ≠ '.')

/-- Every written unit can be read under both of its names. -/
theorem writtenUnits_readsName :
    ∀ unit ∈ writtenUnits, ∀ name ∈ [unit.singular, unit.plural],
      readsName unit.nanos name.toList = true := by
  decide +kernel

/-- The name that stands behind an amount. -/
def unitName (amount : Nat × WrittenUnit) : List Char :=
  (if amount.1 = 1 then amount.2.singular else amount.2.plural).toList

theorem writeAmount_eq (amount : Nat × WrittenUnit) :
    writeAmount amount = Nat.toDigits 10 amount.1 ++ unitName amount := rfl

theorem readsName_unitName {amount : Nat × WrittenUnit} (written : amount.2 ∈ writtenUnits) :
    readsName amount.2.nanos (unitName amount) = true := by
  have names := writtenUnits_readsName amount.2 written
  unfold unitName
  split
  · exact names _ (by simp)
  · exact names _ (by simp)

/-- What is known of a name that can be read. -/
theorem of_readsName {nanos : Nat} {name : List Char} (reads : readsName nanos name = true) :
    (∃ unit, unitNamed? name = some unit ∧ unit.count * unit.grain = nanos ∧
      (unit.grain = nanosPerSecond ∨ unit.grain = 1 ∧ nanos < nanosPerSecond)) ∧
    (∀ c ∈ name, inUnitName c = true) ∧
    ∃ first letters, name = first :: letters ∧ inNumeral first = false ∧ first ≠ '.' := by
  simp only [readsName, Bool.and_eq_true, Option.any_eq_true, List.all_eq_true,
    Bool.or_eq_true, decide_eq_true_eq] at reads
  obtain ⟨⟨⟨unit, named, worth, grain⟩, letters⟩, first, head, numeral, point⟩ := reads
  refine ⟨⟨unit, named, worth, grain⟩, letters, ?_⟩
  cases name with
  | nil => simp at head
  | cons c more =>
      simp only [List.head?_cons, Option.some.injEq] at head
      subst head
      exact ⟨c, more, rfl, by simpa using numeral, by simpa using point⟩

/-! ## Reading one amount -/

/-- A written amount is found whole if no letter follows it. -/
theorem splitAmount_writeAmount {amount : Nat × WrittenUnit}
    (written : amount.2 ∈ writtenUnits) (rest : List Char) (stops : Stops inUnitName rest) :
    splitAmount (writeAmount amount ++ rest) =
      (⟨Nat.toDigits 10 amount.1, none, unitName amount⟩, rest) := by
  obtain ⟨-, letters, first, more, name, notNumeral, notPoint⟩ :=
    of_readsName (readsName_unitName written)
  have digits : ∀ c ∈ Nat.toDigits 10 amount.1, inNumeral c = true := by
    intro c mem
    simp [inNumeral, isDigit_of_mem_toDigits mem]
  have digitsStop : Stops inNumeral (unitName amount ++ rest) := by
    rw [name]
    exact stops_cons.mpr notNumeral
  have split : splitDigits (writeAmount amount ++ rest) =
      (Nat.toDigits 10 amount.1, unitName amount ++ rest) := by
    rw [splitDigits, writeAmount_eq, List.append_assoc, takeWhile_run digits digitsStop,
      dropWhile_run digits digitsStop,
      List.filter_eq_self.mpr (fun c mem => isDigit_of_mem_toDigits mem)]
  have noPoint : ∀ tail, unitName amount ++ rest ≠ '.' :: tail := by
    intro tail heq
    rw [name] at heq
    exact notPoint (List.cons.inj heq).1
  rw [splitAmount, split]
  simp only
  rw [takeWhile_run letters stops, dropWhile_run letters stops]

/-- Amounts that can be added to `total` grains without any counter overflowing. -/
def Fits (total : Nat) (amount : Nat × WrittenUnit) : Prop :=
  total + amount.1 * amount.2.nanos < spanLimit ∧
    (amount.2.nanos < nanosPerSecond → amount.1 * amount.2.nanos < nanosPerSecond)

/-- An amount that fits is added. -/
theorem addAmount?_eq {total : Nat} {amount : Nat × WrittenUnit}
    (written : amount.2 ∈ writtenUnits) (fits : Fits total amount) :
    addAmount? total ⟨Nat.toDigits 10 amount.1, none, unitName amount⟩ =
      some (total + amount.1 * amount.2.nanos) := by
  obtain ⟨⟨unit, named, worth, grain⟩, -, -⟩ := of_readsName (readsName_unitName written)
  obtain ⟨inRange, small⟩ := fits
  have product : amount.1 * unit.count * unit.grain = amount.1 * amount.2.nanos := by
    rw [Nat.mul_assoc, worth]
  have positive : 0 < unit.count := by
    have all : ∀ unit ∈ writtenUnits, 0 < unit.nanos := by decide
    have nanosPositive := all _ written
    rw [← worth] at nanosPositive
    exact Nat.pos_of_mul_pos_right nanosPositive
  have countFits : amount.1 * unit.count ≤ wordMax ∧
      (unit.grain = 1 → total % nanosPerSecond + amount.1 * unit.count ≤ wordMax) := by
    have below : total % nanosPerSecond < nanosPerSecond := Nat.mod_lt _ (by decide)
    rcases grain with seconds | ⟨one, short⟩
    · rw [seconds] at product
      have seconds_lt : amount.1 * unit.count * nanosPerSecond < spanLimit := by omega
      have count_lt : amount.1 * unit.count < wordMax + 1 := Nat.lt_of_mul_lt_mul_right seconds_lt
      refine ⟨by omega, fun one => ?_⟩
      rw [seconds] at one
      exact absurd one (by decide)
    · rw [one, Nat.mul_one] at product
      have bound := small short
      rw [product]
      have : nanosPerSecond + nanosPerSecond ≤ wordMax := by decide
      exact ⟨by omega, fun _ => by omega⟩
  have wholeFits : amount.1 ≤ wordMax :=
    Nat.le_trans (Nat.le_mul_of_pos_right _ positive) countFits.1
  simp only [addAmount?, named, Option.bind_eq_bind, Option.bind_some,
    Nat.ofDigitChars_ten_toDigits, word?, if_pos wholeFits]
  rw [addGrains?, if_pos ⟨countFits.1, countFits.2, product ▸ inRange⟩, product]
  rfl

/-! ## Reading all amounts -/

/-- A written amount begins with a digit. -/
theorem writeAmount_eq_cons (amount : Nat × WrittenUnit) :
    ∃ first more, writeAmount amount = first :: more ∧ first.isDigit = true := by
  obtain ⟨first, more, digits, isDigit, -⟩ := exists_toDigits_eq_cons amount.1
  exact ⟨first, more ++ unitName amount, by rw [writeAmount_eq, digits]; rfl, isDigit⟩

theorem not_isBlank_of_isDigit {c : Char} (digit : c.isDigit = true) : isBlank c = false := by
  simp only [Char.isDigit, Bool.and_eq_true, decide_eq_true_eq, ge_iff_le] at digit
  have low : 48 ≤ c.toNat := UInt32.le_iff_toNat_le.mp digit.1
  have high : c.toNat ≤ 57 := UInt32.le_iff_toNat_le.mp digit.2
  simp only [isBlank, inRanges, blankRanges, List.any_cons, List.any_nil, Bool.or_false,
    Bool.or_eq_false_iff, Bool.and_eq_false_iff, decide_eq_false_iff_not]
  omega

/-- So do written amounts. -/
theorem writeAmounts_eq_cons {amounts : List (Nat × WrittenUnit)} (nonempty : amounts ≠ []) :
    ∃ first more, List.intercalate [' '] (amounts.map writeAmount) = first :: more ∧
      first.isDigit = true := by
  cases amounts with
  | nil => exact absurd rfl nonempty
  | cons amount others =>
      obtain ⟨first, more, text, isDigit⟩ := writeAmount_eq_cons amount
      cases others with
      | nil => exact ⟨first, more, by simpa using text, isDigit⟩
      | cons second others =>
          rw [List.map_cons, List.map_cons, List.intercalate_cons_cons, text]
          exact ⟨first, _, rfl, isDigit⟩

/-- There are not more amounts than characters, the one after the end included. -/
theorem length_le_length_writeAmounts (amounts : List (Nat × WrittenUnit)) :
    amounts.length ≤ (List.intercalate [' '] (amounts.map writeAmount)).length + 1 := by
  induction amounts with
  | nil => exact Nat.zero_le _
  | cons amount others ih =>
      cases others with
      | nil => simp
      | cons second others =>
          rw [List.map_cons, List.map_cons, List.intercalate_cons_cons, ← List.map_cons]
          simp only [List.length_append, List.length_cons, List.length_nil] at ih ⊢
          omega

/-- The last amount ends the sum. -/
theorem sumAmounts?_last {total fuel : Nat} {amount : Nat × WrittenUnit}
    (written : amount.2 ∈ writtenUnits) (fits : Fits total amount) :
    sumAmounts? (fuel + 1) total (writeAmount amount) =
      some (total + amount.1 * amount.2.nanos) := by
  obtain ⟨first, more, text, isDigit⟩ := writeAmount_eq_cons amount
  have split := splitAmount_writeAmount written [] stops_nil
  rw [List.append_nil] at split
  rw [text] at split ⊢
  simp only [sumAmounts?, if_pos isDigit, split, addAmount?_eq written fits]

/-- After an amount and a blank the sum goes on with the next amount. -/
theorem sumAmounts?_next {total fuel : Nat} {amount : Nat × WrittenUnit} {next : List Char}
    (written : amount.2 ∈ writtenUnits) (fits : Fits total amount)
    (digitNext : ∃ first more, next = first :: more ∧ first.isDigit = true) :
    sumAmounts? (fuel + 1) total (writeAmount amount ++ ' ' :: next) =
      sumAmounts? fuel (total + amount.1 * amount.2.nanos) next := by
  obtain ⟨first, more, text, isDigit⟩ := writeAmount_eq_cons amount
  have split := splitAmount_writeAmount written (' ' :: next)
    (stops_cons.mpr (by decide))
  obtain ⟨digit, others, nextText, nextDigit⟩ := digitNext
  have skipped : (' ' :: next).dropWhile isBlank = next := by
    rw [List.dropWhile_cons_of_pos (by decide), nextText]
    exact dropWhile_of_stops (stops_cons.mpr (not_isBlank_of_isDigit nextDigit))
  rw [text] at split ⊢
  rw [List.cons_append] at split ⊢
  have notDigit : ¬ (' ').isDigit = true := by decide
  have blank : isBlank ' ' = true := by decide
  simp only [sumAmounts?, if_pos isDigit, split, addAmount?_eq written fits, if_neg notDigit,
    if_pos blank, skipped]
  rw [nextText]

/-- Written amounts are read back as their sum. -/
theorem sumAmounts?_writeAmounts {amounts : List (Nat × WrittenUnit)} {total fuel : Nat}
    (nonempty : amounts ≠ []) (enough : amounts.length ≤ fuel)
    (written : ∀ amount ∈ amounts, amount.2 ∈ writtenUnits)
    (short : ∀ amount ∈ amounts, amount.2.nanos < nanosPerSecond →
      amount.1 * amount.2.nanos < nanosPerSecond)
    (inRange : total + totalNanos amounts < spanLimit) :
    sumAmounts? fuel total (List.intercalate [' '] (amounts.map writeAmount)) =
      some (total + totalNanos amounts) := by
  induction amounts generalizing total fuel with
  | nil => exact absurd rfl nonempty
  | cons amount others ih =>
      rw [totalNanos_cons] at inRange
      have firstWritten := written amount List.mem_cons_self
      have fits : Fits total amount := ⟨by omega, short amount List.mem_cons_self⟩
      obtain ⟨fuel, rfl⟩ : ∃ less, fuel = less + 1 := by
        cases fuel with
        | zero => simp at enough
        | succ less => exact ⟨less, rfl⟩
      cases others with
      | nil =>
          rw [List.map_singleton, List.intercalate_singleton, sumAmounts?_last firstWritten fits]
          simp
      | cons second others =>
          have rest : second :: others ≠ [] := by simp
          rw [List.map_cons, List.map_cons, List.intercalate_cons_cons, List.append_assoc,
            List.singleton_append, ← List.map_cons,
            sumAmounts?_next firstWritten fits (writeAmounts_eq_cons rest),
            ih rest (by simpa using enough) (fun a mem => written a (List.mem_cons_of_mem _ mem))
              (fun a mem => short a (List.mem_cons_of_mem _ mem)) (by omega),
            totalNanos_cons amount, Nat.add_assoc]

/-- The amounts that are written for a span. -/
def Span.amounts (s : Span) : List (Nat × WrittenUnit) :=
  (breakDown writtenUnits s.nanos).filter (·.1 ≠ 0)

theorem Span.totalNanos_amounts (s : Span) : totalNanos s.amounts = s.nanos := by
  rw [amounts, totalNanos_filter, totalNanos_writtenUnits]

/-- Writing a span and reading it back loses nothing. -/
theorem Span.read?_write (s : Span) : Span.read? s.write = some s := by
  by_cases empty : s.nanos = 0
  · have isZero : s = .zero := Span.ext empty
    rw [isZero]
    decide +kernel
  · have nonempty : s.amounts ≠ [] := by
      intro noAmounts
      have total := s.totalNanos_amounts
      rw [noAmounts, totalNanos_nil] at total
      exact empty total.symm
    have written : ∀ amount ∈ s.amounts, amount.2 ∈ writtenUnits := by
      intro amount mem
      exact unit_mem_of_mem_breakDown (List.mem_filter.mp mem).1
    have short : ∀ amount ∈ s.amounts, amount.2.nanos < nanosPerSecond →
        amount.1 * amount.2.nanos < nanosPerSecond := by
      intro amount mem
      exact amount_lt_of_mem_breakDown (by decide)
        (Or.inr ⟨⟨nanosPerSecond, "s", "s"⟩, by simp [writtenUnits], rfl⟩)
        (List.mem_filter.mp mem).1
    have inRange : 0 + totalNanos s.amounts < spanLimit := by
      rw [s.totalNanos_amounts, Nat.zero_add]
      exact s.nanos_lt
    have text : s.write = List.intercalate [' '] (s.amounts.map writeAmount) := by
      rw [write, if_neg empty, amounts]
    have sum : sumAmounts? (s.write.length + 1) 0 s.write = some s.nanos := by
      rw [text, sumAmounts?_writeAmounts nonempty (length_le_length_writeAmounts _) written
        short inRange, s.totalNanos_amounts, Nat.zero_add]
    obtain ⟨first, more, cons, isDigit⟩ := writeAmounts_eq_cons nonempty
    have notZero : s.write ≠ ['0'] := by
      intro lone
      have noUnit : sumAmounts? 2 0 ['0'] = none := by decide +kernel
      rw [lone] at sum
      exact absurd (noUnit.symm.trans sum) (by simp)
    have noBlank : s.write.dropWhile isBlank = s.write := by
      rw [text, cons]
      exact dropWhile_of_stops (stops_cons.mpr (not_isBlank_of_isDigit isDigit))
    rw [read?, if_neg notZero, noBlank, sum, Option.map_some]
    exact congrArg some (Span.ext (nanos_ofNanos s.nanos_lt))

end LoadShape.Time
