/-
# Big-endian byte strings

A natural number written in base 256, most significant byte first, in the two forms a
serialiser needs: the MINIMAL form (no leading zero byte, zero is the empty string) and the
form of a FIXED WIDTH (cut off on the left, padded with zero bytes on the left).

Both are inverted by `toNat`.  That is all an encoding ever has to know about them: the
minimal form is injective (`ofNat_inj`), the fixed-width form is injective below its modulus
(`ofNatWidth_inj`), and their lengths are bounded by what they denote.
-/
import Mathlib.Tactic.Ring
import Mathlib.Data.List.Induction

namespace ProbeChain

open List

/-- A byte string. -/
abbrev Bytes := List UInt8

namespace BigEndian

/-! ## 1. Reading -/

/-- The number a big-endian byte string denotes. -/
def toNat (bs : Bytes) : Nat := bs.foldl (fun n b => n * 256 + b.toNat) 0

@[simp] theorem toNat_nil : toNat [] = 0 := rfl

@[simp] theorem toNat_concat (bs : Bytes) (b : UInt8) :
    toNat (bs ++ [b]) = toNat bs * 256 + b.toNat := by
  simp [toNat, foldl_append]

/-- A string of `k` bytes denotes a number below `256 ^ k`. -/
theorem toNat_lt (bs : Bytes) : toNat bs < 256 ^ bs.length := by
  induction bs using reverseRecOn with
  | nil => simp
  | append_singleton bs b ih =>
    rw [toNat_concat, length_append, length_singleton, pow_succ]
    have hb : b.toNat < 256 := b.toNat_lt
    omega

/-! ## 2. The minimal form -/

/-- The digits of `n`, written with at most `fuel` bytes. -/
def ofNatFuel : Nat → Nat → Bytes
  | 0, _ => []
  | fuel + 1, n => if n = 0 then [] else ofNatFuel fuel (n / 256) ++ [UInt8.ofNat (n % 256)]

/-- The minimal big-endian form.  `n` itself is more fuel than the digits can use. -/
def ofNat (n : Nat) : Bytes := ofNatFuel n n

theorem toNat_ofNatFuel : ∀ (fuel n : Nat), n ≤ fuel → toNat (ofNatFuel fuel n) = n
  | 0, n, h => by simp [ofNatFuel]; omega
  | fuel + 1, n, h => by
    simp only [ofNatFuel]
    split
    · simp [*]
    · have ih := toNat_ofNatFuel fuel (n / 256) (by omega)
      rw [toNat_concat, ih, UInt8.toNat_ofNat']
      omega

/-- Writing and reading back. -/
@[simp] theorem toNat_ofNat (n : Nat) : toNat (ofNat n) = n := toNat_ofNatFuel n n (le_refl _)

/-- **The minimal form is injective.** -/
theorem ofNat_inj {m n : Nat} (h : ofNat m = ofNat n) : m = n := by
  have := congrArg toNat h
  simpa using this

theorem ofNatFuel_length_le : ∀ (fuel k n : Nat), n < 256 ^ k → (ofNatFuel fuel n).length ≤ k
  | 0, _, _, _ => by simp [ofNatFuel]
  | fuel + 1, k, n, h => by
    simp only [ofNatFuel]
    split
    · simp
    · cases k with
      | zero => simp at h; omega
      | succ k =>
        have ih := ofNatFuel_length_le fuel k (n / 256) (by rw [pow_succ] at h; omega)
        simp only [length_append, length_singleton]
        omega

/-- A number below `256 ^ k` needs at most `k` bytes. -/
theorem ofNat_length_le {k n : Nat} (h : n < 256 ^ k) : (ofNat n).length ≤ k :=
  ofNatFuel_length_le n k n h

/-- Only zero has no byte. -/
theorem ofNat_length_pos {n : Nat} (h : n ≠ 0) : 0 < (ofNat n).length := by
  rcases Nat.eq_zero_or_pos (ofNat n).length with h0 | h0
  · have : toNat (ofNat n) = 0 := by rw [length_eq_zero_iff.mp h0]; rfl
    exact absurd (by simpa using this) h
  · exact h0

theorem ofNatFuel_head : ∀ (fuel n : Nat), n ≤ fuel → (ofNatFuel fuel n).head? ≠ some 0
  | 0, _, _ => by simp [ofNatFuel]
  | fuel + 1, n, h => by
    simp only [ofNatFuel]
    split
    · simp
    next hn =>
      -- the leading byte is the last one written: either the only one, or one written before
      have ih := ofNatFuel_head fuel (n / 256) (by omega)
      have hback := toNat_ofNatFuel fuel (n / 256) (by omega)
      cases hd : ofNatFuel fuel (n / 256) with
      | cons b bs => rw [hd] at ih; simpa using ih
      | nil =>
        rw [hd, toNat_nil] at hback
        simp only [nil_append, head?_cons, ne_eq, Option.some.injEq]
        intro h0
        have := congrArg UInt8.toNat h0
        rw [UInt8.toNat_ofNat'] at this
        simp at this
        omega

/-- The minimal form has no leading zero byte. -/
theorem ofNat_head (n : Nat) : (ofNat n).head? ≠ some 0 := ofNatFuel_head n n (le_refl _)

theorem toNat_cons (b : UInt8) (bs : Bytes) :
    toNat (b :: bs) = b.toNat * 256 ^ bs.length + toNat bs := by
  induction bs using reverseRecOn with
  | nil => simp [toNat]
  | append_singleton bs c ih =>
    rw [← cons_append, toNat_concat, ih, toNat_concat, length_append, length_singleton,
      pow_succ]
    ring

/-- A number of `k + 1` bytes, without the first. -/
theorem toNat_tail_ofNat {k n : Nat} (hlo : 256 ^ k ≤ n) (hhi : n < 256 ^ (k + 1)) :
    ofNat n ≠ [] ∧ toNat (ofNat n).tail = n % 256 ^ k := by
  have hlength : (ofNat n).length = k + 1 := by
    refine le_antisymm (ofNat_length_le hhi) ?_
    by_contra hlt
    have hlt' := toNat_lt (ofNat n)
    rw [toNat_ofNat] at hlt'
    have hpow : 256 ^ (ofNat n).length ≤ 256 ^ k := Nat.pow_le_pow_right (by decide) (by omega)
    omega
  have hback := toNat_ofNat n
  cases hn : ofNat n with
  | nil =>
    rw [hn] at hlength
    cases hlength
  | cons b bs =>
    rw [hn, length_cons] at hlength
    have hbs : bs.length = k := by omega
    rw [hn, toNat_cons, hbs] at hback
    have hlt := toNat_lt bs
    rw [hbs] at hlt
    refine ⟨cons_ne_nil b bs, ?_⟩
    rw [tail_cons, ← hback, Nat.add_comm, Nat.add_mul_mod_self_right, Nat.mod_eq_of_lt hlt]

/-! ## 3. The fixed-width form -/

/-- The `w` low bytes of `n`, the most significant first. -/
def ofNatWidth : Nat → Nat → Bytes
  | 0, _ => []
  | w + 1, n => UInt8.ofNat (n / 256 ^ w % 256) :: ofNatWidth w n

@[simp] theorem ofNatWidth_length : ∀ w n : Nat, (ofNatWidth w n).length = w
  | 0, _ => rfl
  | w + 1, n => by simp [ofNatWidth, ofNatWidth_length w]

theorem toNat_ofNatWidth_mod : ∀ w n : Nat, toNat (ofNatWidth w n) = n % 256 ^ w
  | 0, n => by simp [ofNatWidth, Nat.mod_one]
  | w + 1, n => by
    rw [ofNatWidth, toNat_cons, ofNatWidth_length, toNat_ofNatWidth_mod w n, UInt8.toNat_ofNat',
      Nat.mod_mod, pow_succ, Nat.mod_mul, Nat.add_comm, Nat.mul_comm]

theorem toNat_ofNatWidth (w n : Nat) (h : n < 256 ^ w) : toNat (ofNatWidth w n) = n := by
  rw [toNat_ofNatWidth_mod, Nat.mod_eq_of_lt h]

/-- What stands above the `w` low bytes does not matter. -/
theorem ofNatWidth_add : ∀ w m n : Nat, ofNatWidth w (m * 256 ^ w + n) = ofNatWidth w n
  | 0, _, _ => rfl
  | w + 1, m, n => by
    have hm : m * 256 ^ (w + 1) = m * 256 * 256 ^ w := by rw [pow_succ]; ring
    rw [ofNatWidth, ofNatWidth, hm, ofNatWidth_add w (m * 256) n, Nat.add_comm,
      Nat.add_mul_div_right _ _ (Nat.pow_pos (by decide)), Nat.add_mul_mod_self_right]

theorem ofNatWidth_toNat : ∀ bs : Bytes, ofNatWidth bs.length (toNat bs) = bs
  | [] => rfl
  | b :: bs => by
    have hlow : toNat bs < 256 ^ bs.length := toNat_lt bs
    have hhead : (b.toNat * 256 ^ bs.length + toNat bs) / 256 ^ bs.length % 256 = b.toNat := by
      rw [Nat.add_comm, Nat.add_mul_div_right _ _ (Nat.pow_pos (by decide)), Nat.div_eq_of_lt hlow,
        Nat.zero_add, Nat.mod_eq_of_lt b.toNat_lt]
    rw [length_cons, ofNatWidth, toNat_cons, hhead, ofNatWidth_add, ofNatWidth_toNat bs,
      UInt8.ofNat_toNat]

/-- **The fixed-width form is injective below its modulus.** -/
theorem ofNatWidth_inj {w m n : Nat} (hm : m < 256 ^ w) (hn : n < 256 ^ w)
    (h : ofNatWidth w m = ofNatWidth w n) : m = n := by
  have := congrArg toNat h
  rwa [toNat_ofNatWidth w m hm, toNat_ofNatWidth w n hn] at this

end BigEndian

end ProbeChain
