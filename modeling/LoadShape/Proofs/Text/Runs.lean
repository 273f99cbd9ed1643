import LoadShape.Text.Numeral

/-!
# Runs of characters

Readers take a run of characters of one class from the front of a text.  A run is found
whole if the text stops the class after it; numerals are runs of digits.
-/

namespace LoadShape.Text

/-! ## Where a run ends -/

/-- The text does not begin with a character of the class. -/
def Stops (inClass : Char → Bool) (cs : List Char) : Prop :=
  ∀ c rest, cs = c :: rest → inClass c = false

variable {inClass : Char → Bool}

@[simp]
theorem stops_nil : Stops inClass [] := by
  intro c rest h
  cases h

@[simp]
theorem stops_cons {c : Char} {rest : List Char} :
    Stops inClass (c :: rest) ↔ inClass c = false := by
  constructor
  · intro h
    exact h c rest rfl
  · intro h d others heq
    cases heq
    exact h

/-- The run in front of a stop is found whole. -/
theorem takeWhile_run {run rest : List Char} (members : ∀ c ∈ run, inClass c = true)
    (stops : Stops inClass rest) : (run ++ rest).takeWhile inClass = run := by
  rw [List.takeWhile_append_of_pos members]
  cases rest with
  | nil => simp
  | cons c rest => simp [stops c rest rfl]

/-- The rest behind a run is found whole. -/
theorem dropWhile_run {run rest : List Char} (members : ∀ c ∈ run, inClass c = true)
    (stops : Stops inClass rest) : (run ++ rest).dropWhile inClass = rest := by
  rw [List.dropWhile_append_of_pos members]
  cases rest with
  | nil => simp
  | cons c rest => simp [stops c rest rfl]

theorem dropWhile_of_stops {cs : List Char} (stops : Stops inClass cs) :
    cs.dropWhile inClass = cs :=
  dropWhile_run (by simp : ∀ c ∈ [], inClass c = true) stops

/-! ## Numerals -/

theorem isDigit_of_mem_toDigits {n : Nat} {c : Char} (mem : c ∈ Nat.toDigits 10 n) :
    c.isDigit = true :=
  Nat.isDigit_of_mem_toDigits (by decide) (by decide) mem

/-- A numeral has a first digit, and it is zero only in the numeral of zero. -/
theorem exists_toDigits_eq_cons (n : Nat) :
    ∃ first more, Nat.toDigits 10 n = first :: more ∧ first.isDigit = true ∧
      (∀ c ∈ more, c.isDigit = true) ∧ (first = '0' → more = []) := by
  induction n using Nat.base_induction 10 (by decide) with
  | single n small =>
      refine ⟨n.digitChar, [], Nat.toDigits_of_lt_base small, ?_, by simp, by simp⟩
      simpa [Nat.isDigit_digitChar] using small
  | digit n last lastSmall positive ih =>
      obtain ⟨first, more, digits, firstDigit, moreDigits, leading⟩ := ih
      have written : Nat.toDigits 10 (10 * n + last) = first :: (more ++ [last.digitChar]) := by
        rw [← Nat.toDigits_append_toDigits (by decide) positive lastSmall, digits,
          Nat.toDigits_of_lt_base lastSmall]
        rfl
      refine ⟨first, more ++ [last.digitChar], written, firstDigit, ?_, ?_⟩
      · intro c mem
        rcases List.mem_append.mp mem with inMore | isLast
        · exact moreDigits c inMore
        · rw [List.mem_singleton.mp isLast, Nat.isDigit_digitChar]
          simpa using lastSmall
      · intro zero
        have value : Nat.ofDigitChars 10 (Nat.toDigits 10 n) 0 = n :=
          Nat.ofDigitChars_ten_toDigits
        rw [digits, leading zero, zero] at value
        -- the digits in front of the last one would be those of zero
        have none : n = 0 := value.symm
        omega

end LoadShape.Text
