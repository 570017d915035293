import Mathlib.Data.List.Basic
import Mathlib.Tactic.Common
import Mathlib.Tactic.Ring

/-! # Numerals and the order of texts

Texts are compared character by character, a proper beginning of a text coming
before it (`textLe`).  `Before` holds of two texts that differ at a place where
the first has the smaller character, so that what follows does not matter.
Decimal numerals of one length are compared as their values are
(`before_of_numeral_lt`), and `pad` writes a number with leading zeros.
-/

namespace HamZaboon.Library

/-! ## The order of texts -/

def textLe : List Char → List Char → Bool
  | [], _ => true
  | _ :: _, [] => false
  | a :: as, b :: bs => if a = b then textLe as bs else a.toNat < b.toNat

/-- The texts differ, first at a place where the first has the smaller character. -/
inductive Before : List Char → List Char → Prop
  | here {a b : Char} (xs ys : List Char) : a.toNat < b.toNat → Before (a :: xs) (b :: ys)
  | there (a : Char) {xs ys : List Char} : Before xs ys → Before (a :: xs) (a :: ys)

namespace Before

theorem append {xs ys : List Char} (h : Before xs ys) (s t : List Char) :
    Before (xs ++ s) (ys ++ t) := by
  induction h with
  | here xs ys hlt => exact .here _ _ hlt
  | there a _ ih => exact .there a ih

theorem prepend {xs ys : List Char} (s : List Char) (h : Before xs ys) :
    Before (s ++ xs) (s ++ ys) := by
  induction s with
  | nil => exact h
  | cons a s ih => exact .there a ih

theorem textLe {xs ys : List Char} (h : Before xs ys) : textLe xs ys = true := by
  induction h with
  | @here a b xs ys hlt =>
    have hne : a ≠ b := by
      rintro rfl
      omega
    simp [Library.textLe, hne, hlt]
  | there a _ ih => simpa [Library.textLe] using ih

end Before

/-! ## Decimal numerals -/

def isAsciiDigit (c : Char) : Bool := 48 ≤ c.toNat && c.toNat ≤ 57

theorem isAsciiDigit_iff {c : Char} : isAsciiDigit c = true ↔ 48 ≤ c.toNat ∧ c.toNat ≤ 57 := by
  simp [isAsciiDigit]

/-- The number a text of digits writes. -/
def numeral : List Char → Nat
  | [] => 0
  | c :: cs => (c.toNat - 48) * 10 ^ cs.length + numeral cs

theorem numeral_append (xs ys : List Char) :
    numeral (xs ++ ys) = numeral xs * 10 ^ ys.length + numeral ys := by
  induction xs with
  | nil => simp [numeral]
  | cons c xs ih =>
    simp only [List.cons_append, numeral, ih, List.length_append, pow_add]
    ring

theorem numeral_lt {xs : List Char} (h : xs.all isAsciiDigit = true) :
    numeral xs < 10 ^ xs.length := by
  induction xs with
  | nil => exact Nat.one_pos
  | cons c xs ih =>
    obtain ⟨hc, hxs⟩ := by simpa only [List.all_cons, Bool.and_eq_true] using h
    have hdigit := isAsciiDigit_iff.mp hc
    have hrest := ih hxs
    have hhead : (c.toNat - 48) * 10 ^ xs.length ≤ 9 * 10 ^ xs.length :=
      Nat.mul_le_mul_right _ (by omega)
    rw [numeral, List.length_cons, pow_succ]
    omega

theorem numeral_cons_lt {a b : Char} {xs ys : List Char} (hlength : xs.length = ys.length)
    (ha : isAsciiDigit a = true) (hxs : xs.all isAsciiDigit = true) (h : a.toNat < b.toNat) :
    numeral (a :: xs) < numeral (b :: ys) := by
  have ha' := isAsciiDigit_iff.mp ha
  have hstep : (a.toNat - 48 + 1) * 10 ^ ys.length ≤ (b.toNat - 48) * 10 ^ ys.length :=
    Nat.mul_le_mul_right _ (by omega)
  rw [Nat.add_mul, Nat.one_mul] at hstep
  have hrest := numeral_lt hxs
  rw [hlength] at hrest
  rw [numeral, numeral, hlength]
  omega

theorem before_of_numeral_lt {xs ys : List Char} (hlength : xs.length = ys.length)
    (hxs : xs.all isAsciiDigit = true) (hys : ys.all isAsciiDigit = true)
    (h : numeral xs < numeral ys) : Before xs ys := by
  induction xs generalizing ys with
  | nil =>
    obtain rfl := List.length_eq_zero_iff.mp hlength.symm
    exact absurd h (Nat.lt_irrefl _)
  | cons a xs ih =>
    cases ys with
    | nil => exact absurd hlength (by simp)
    | cons b ys =>
      obtain ⟨-, hxs'⟩ := by simpa only [List.all_cons, Bool.and_eq_true] using hxs
      obtain ⟨hb, hys'⟩ := by simpa only [List.all_cons, Bool.and_eq_true] using hys
      have hlength' : xs.length = ys.length := by simpa using hlength
      rcases Nat.lt_trichotomy a.toNat b.toNat with hlt | heq | hgt
      · exact .here _ _ hlt
      · obtain rfl : a = b := Char.toNat_inj.mp heq
        rw [numeral, numeral, hlength'] at h
        exact .there a (ih hlength' hxs' hys' (by omega))
      · exact absurd h (numeral_cons_lt hlength'.symm hb hys' hgt).asymm

theorem eq_of_numeral_eq {xs ys : List Char} (hlength : xs.length = ys.length)
    (hxs : xs.all isAsciiDigit = true) (hys : ys.all isAsciiDigit = true)
    (h : numeral xs = numeral ys) : xs = ys := by
  induction xs generalizing ys with
  | nil => exact (List.length_eq_zero_iff.mp hlength.symm).symm
  | cons a xs ih =>
    cases ys with
    | nil => exact absurd hlength (by simp)
    | cons b ys =>
      obtain ⟨ha, hxs'⟩ := by simpa only [List.all_cons, Bool.and_eq_true] using hxs
      obtain ⟨hb, hys'⟩ := by simpa only [List.all_cons, Bool.and_eq_true] using hys
      have hlength' : xs.length = ys.length := by simpa using hlength
      rcases Nat.lt_trichotomy a.toNat b.toNat with hlt | heq | hgt
      · exact absurd h (numeral_cons_lt hlength' ha hxs' hlt).ne
      · obtain rfl : a = b := Char.toNat_inj.mp heq
        rw [numeral, numeral, hlength'] at h
        rw [ih hlength' hxs' hys' (by omega)]
      · exact absurd h (numeral_cons_lt hlength'.symm hb hys' hgt).ne'

/-- A numeral whose value with zeros put behind is smaller comes first, when what
follows it is smaller than every digit. -/
theorem before_of_scaled_lt {xs ys : List Char} (hlength : xs.length ≤ ys.length)
    (hxs : xs.all isAsciiDigit = true) (hys : ys.all isAsciiDigit = true)
    (h : numeral xs * 10 ^ (ys.length - xs.length) < numeral ys) {c : Char} (hc : c.toNat < 48)
    (s t : List Char) : Before (xs ++ c :: s) (ys ++ t) := by
  obtain ⟨head, tail, rfl, hhead⟩ : ∃ head tail, ys = head ++ tail ∧ head.length = xs.length :=
    ⟨ys.take xs.length, ys.drop xs.length, (List.take_append_drop _ _).symm, by simp [hlength]⟩
  rw [List.all_append, Bool.and_eq_true] at hys
  have htail : (head ++ tail).length - xs.length = tail.length := by
    rw [List.length_append, hhead, Nat.add_sub_cancel_left]
  have htailLt := numeral_lt hys.2
  rw [htail, numeral_append] at h
  rw [List.append_assoc]
  rcases Nat.lt_trichotomy (numeral xs) (numeral head) with hless | heq | hmore
  · exact (before_of_numeral_lt hhead.symm hxs hys.1 hless).append _ _
  · rw [eq_of_numeral_eq hhead.symm hxs hys.1 heq]
    refine Before.prepend head ?_
    rcases tail with _ | ⟨d, tail⟩
    · rw [heq] at h
      simp [numeral] at h
    · have hd := isAsciiDigit_iff.mp (List.all_eq_true.mp hys.2 d List.mem_cons_self)
      exact .here _ _ (by omega)
  · have hstep := Nat.mul_le_mul_right (10 ^ tail.length) (Nat.succ_le_of_lt hmore)
    rw [Nat.succ_mul] at hstep
    omega

/-- The last `width` digits of `n`, with leading zeros. -/
def pad : Nat → Nat → List Char
  | 0, _ => []
  | width + 1, n => pad width (n / 10) ++ [Nat.digitChar (n % 10)]

@[simp] theorem length_pad (width n : Nat) : (pad width n).length = width := by
  induction width generalizing n with
  | zero => rfl
  | succ width ih => simp [pad, ih]

theorem digits_pad (width n : Nat) : (pad width n).all isAsciiDigit = true := by
  induction width generalizing n with
  | zero => rfl
  | succ width ih =>
    have hdigit : isAsciiDigit (Nat.digitChar (n % 10)) = true := by
      rw [isAsciiDigit_iff, Nat.toNat_digitChar_of_lt_ten (Nat.mod_lt n (by omega))]
      omega
    simp [pad, ih, hdigit]

theorem numeral_pad {width n : Nat} (h : n < 10 ^ width) : numeral (pad width n) = n := by
  induction width generalizing n with
  | zero =>
    rw [pow_zero, Nat.lt_one_iff] at h
    rw [h]
    rfl
  | succ width ih =>
    rw [pow_succ] at h
    have hdigit := Nat.toNat_digitChar_of_lt_ten (Nat.mod_lt n (show 0 < 10 by omega))
    rw [pad, numeral_append, ih (Nat.div_lt_of_lt_mul (by omega))]
    simp only [numeral, List.length_cons, List.length_nil, hdigit]
    omega

theorem pad_numeral {xs : List Char} (h : xs.all isAsciiDigit = true) :
    pad xs.length (numeral xs) = xs := by
  refine eq_of_numeral_eq (length_pad _ _) (digits_pad _ _) h ?_
  exact numeral_pad (numeral_lt h)

end HamZaboon.Library
