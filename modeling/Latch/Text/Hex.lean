/-!
# Hexadecimal digits

* `Hex.value?` — the value of a digit in either case;
* `Hex.upper`, `Hex.lower` — the digit of a value below 16.
-/

namespace Latch.Hex

def value? (c : Char) : Option Nat :=
  if '0' ≤ c && c ≤ '9' then some (c.toNat - '0'.toNat)
  else if 'a' ≤ c && c ≤ 'f' then some (c.toNat - 'a'.toNat + 10)
  else if 'A' ≤ c && c ≤ 'F' then some (c.toNat - 'A'.toNat + 10)
  else none

def upper (n : Nat) : Char :=
  if n < 10 then Char.ofNat ('0'.toNat + n) else Char.ofNat ('A'.toNat + (n - 10))

def lower (n : Nat) : Char :=
  if n < 10 then Char.ofNat ('0'.toNat + n) else Char.ofNat ('a'.toNat + (n - 10))

theorem value?_lt {c : Char} {n : Nat} (h : value? c = some n) : n < 16 := by
  -- a digit is no larger than the last one of its range
  have hRange : ∀ first last : Char, (first ≤ c && c ≤ last) = true → c.toNat ≤ last.toNat := by
    intro first last h
    exact UInt32.le_iff_toNat_le.mp (of_decide_eq_true (Bool.and_eq_true_iff.mp h).2)
  have hDigit := hRange '0' '9'
  have hSmall := hRange 'a' 'f'
  have hLarge := hRange 'A' 'F'
  simp only [Char.reduceToNat] at hDigit hSmall hLarge
  unfold value? at h
  simp only [Char.reduceToNat] at h
  grind

theorem value?_upper {n : Nat} (h : n < 16) : value? (upper n) = some n := by
  revert n
  decide

theorem value?_lower {n : Nat} (h : n < 16) : value? (lower n) = some n := by
  revert n
  decide

end Latch.Hex
