import EdnTokens.Text.Basic

/-!
# Numerals

Numbers are written with the digits `0` to `9` and, in bases up to sixteen, the letters `a` to `f`,
which may also be read in upper case. Reading a numeral back gives the number it was written for
(`valueIn_toDigits`).
-/

namespace EdnTokens.Text

/-- The decimal numeral of a number. -/
def ofNat (n : Nat) : Text :=
  Nat.toDigits 10 n

/-- The value of a digit in bases up to sixteen; anything else has value sixteen, which is no digit
in any of them. -/
def digitValue (c : Char) : Nat :=
  if c.isDigit then c.toNat - '0'.toNat
  else if 'a' ≤ c && c ≤ 'f' then c.toNat - 'a'.toNat + 10
  else if 'A' ≤ c && c ≤ 'F' then c.toNat - 'A'.toNat + 10
  else 16

/-- The number that digits denote in a base. -/
def valueIn (base : Nat) (t : Text) : Nat :=
  t.foldl (fun n c => n * base + digitValue c) 0

/-- A digit behind a numeral multiplies its value by the base and adds its own. -/
theorem valueIn_concat (base : Nat) (t : Text) (c : Char) :
    valueIn base (t ++ [c]) = valueIn base t * base + digitValue c := by
  simp [valueIn]

/-- The character of a digit has its value. -/
theorem digitValue_digitChar {n : Nat} (h : n < 16) : digitValue n.digitChar = n := by
  have all : ∀ n < 16, digitValue n.digitChar = n := by decide
  exact all n h

/-- The numeral of a number denotes that number. -/
theorem valueIn_toDigits {base : Nat} (h₁ : 1 < base) (h₂ : base ≤ 16) (n : Nat) :
    valueIn base (Nat.toDigits base n) = n := by
  induction n using Nat.strongRecOn with
  | _ n ih =>
    by_cases h : n < base
    · rw [Nat.toDigits_of_lt_base h, ← List.nil_append [n.digitChar], valueIn_concat,
        digitValue_digitChar (by omega)]
      simp [valueIn]
    · have hdiv : n / base < n := Nat.div_lt_self (by omega) h₁
      have hmod : n % base < base := Nat.mod_lt n (by omega)
      rw [Nat.toDigits_of_base_le h₁ (by omega), valueIn_concat, ih _ hdiv,
        digitValue_digitChar (by omega), Nat.mul_comm, Nat.div_add_mod]

/-- A numeral consists of digits of its base. -/
theorem digitValue_lt_of_mem_toDigits {base : Nat} (h₁ : 1 < base) (h₂ : base ≤ 16) {n : Nat}
    {c : Char} (hc : c ∈ Nat.toDigits base n) : digitValue c < base := by
  induction n using Nat.strongRecOn with
  | _ n ih =>
    by_cases h : n < base
    · rw [Nat.toDigits_of_lt_base h, List.mem_singleton] at hc
      rw [hc, digitValue_digitChar (by omega)]
      exact h
    · have hdiv : n / base < n := Nat.div_lt_self (by omega) h₁
      have hmod : n % base < base := Nat.mod_lt n (by omega)
      rw [Nat.toDigits_of_base_le h₁ (by omega), List.mem_append, List.mem_singleton] at hc
      rcases hc with hc | hc
      · exact ih _ hdiv hc
      · rw [hc, digitValue_digitChar (by omega)]
        exact hmod

/-- The numeral of a number other than zero begins with a digit other than zero. -/
theorem head?_toDigits {n : Nat} (h : n ≠ 0) : (Nat.toDigits 10 n).head? ≠ some '0' := by
  induction n using Nat.strongRecOn with
  | _ n ih =>
    by_cases hlt : n < 10
    · have all : ∀ n < 10, n ≠ 0 → n.digitChar ≠ '0' := by decide
      rw [Nat.toDigits_of_lt_base hlt]
      simpa using all n hlt h
    · have hne : Nat.toDigits 10 (n / 10) ≠ [] := Nat.toDigits_ne_nil
      rw [Nat.toDigits_of_base_le (by decide) (by omega), List.head?_append,
        List.head?_eq_some_head hne, Option.some_or, ← List.head?_eq_some_head hne]
      exact ih _ (Nat.div_lt_self (by omega) (by decide)) (by omega)

/-- A decimal numeral consists of decimal digits. -/
theorem notMem_ofNat {c : Char} (h : c.isDigit = false) (n : Nat) : c ∉ ofNat n := by
  intro hc
  rw [Nat.isDigit_of_mem_toDigits (by decide) (by decide) hc] at h
  cases h

end EdnTokens.Text
