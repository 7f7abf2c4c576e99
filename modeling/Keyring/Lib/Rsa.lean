/-
RSA signatures with PKCS #1 v1.5 padding.

A number is raised to the private exponent and, to check it, to the public one.  That the
second undoes the first is Fermat's little theorem for each prime factor and the Chinese
remainder theorem for their product; it needs the exponents to be inverse modulo `p - 1` and
`q - 1`, and no more.  What is signed is the encoded digest as a number below the modulus,
and what is transmitted are octets, so the round trips between the two are proved here too.
-/
import Mathlib.FieldTheory.Finite.Basic
import Mathlib.Data.Nat.Size

namespace Rsa

/-! ### Exponents -/

/-- Raising to a power that is 1 modulo `p - 1` does nothing modulo a prime `p`. -/
theorem pow_modEq_of_modEq_one {p k : Nat} (hp : p.Prime) (hpos : 0 < k)
    (hk : k ≡ 1 [MOD p - 1]) (m : Nat) : m ^ k ≡ m [MOD p] := by
  have : Fact p.Prime := ⟨hp⟩
  obtain ⟨t, ht⟩ : p - 1 ∣ k - 1 := (Nat.modEq_iff_dvd' hpos).mp hk.symm
  have hsplit : k = 1 + (p - 1) * t := by omega
  rw [← ZMod.natCast_eq_natCast_iff, Nat.cast_pow]
  by_cases hm : (m : ZMod p) = 0
  · rw [hm, zero_pow hpos.ne']
  · rw [hsplit, pow_add, pow_one, pow_mul, ZMod.pow_card_sub_one_eq_one hm, one_pow, mul_one]

/-- The exponents of a key pair are inverse to each other. -/
structure Inverse (p q e d : Nat) : Prop where
  left : e * d ≡ 1 [MOD p - 1]
  right : e * d ≡ 1 [MOD q - 1]

theorem Inverse.pos {p q e d : Nat} (h : Inverse p q e d) (hp : p.Prime) (hq : q.Prime)
    (hne : p ≠ q) : 0 < e * d := by
  -- zero is one only modulo one, and only one of the primes is two
  by_contra hzero
  have hed : e * d = 0 := by omega
  have hleft := (Nat.modEq_iff_dvd' (Nat.zero_le 1)).mp (hed ▸ h.left)
  have hright := (Nat.modEq_iff_dvd' (Nat.zero_le 1)).mp (hed ▸ h.right)
  have hp2 := hp.two_le
  have hq2 := hq.two_le
  have hp1 := Nat.le_of_dvd Nat.one_pos hleft
  have hq1 := Nat.le_of_dvd Nat.one_pos hright
  omega

/-- **The public exponent undoes the private one.** -/
theorem pow_pow_modEq {p q e d : Nat} (hp : p.Prime) (hq : q.Prime) (hne : p ≠ q)
    (h : Inverse p q e d) (m : Nat) : (m ^ d) ^ e ≡ m [MOD p * q] := by
  have hpos := h.pos hp hq hne
  have hcoprime : p.Coprime q := (Nat.coprime_primes hp hq).mpr hne
  rw [← pow_mul, Nat.mul_comm d e, ← Nat.modEq_and_modEq_iff_modEq_mul hcoprime]
  exact ⟨pow_modEq_of_modEq_one hp hpos h.left m, pow_modEq_of_modEq_one hq hpos h.right m⟩

/-- The same with both powers reduced, as they are computed. -/
theorem mod_pow_mod_pow {p q e d m : Nat} (hp : p.Prime) (hq : q.Prime) (hne : p ≠ q)
    (h : Inverse p q e d) (hm : m < p * q) : (m ^ d % (p * q)) ^ e % (p * q) = m := by
  have hround : (m ^ d) ^ e % (p * q) = m % (p * q) := pow_pow_modEq hp hq hne h m
  rw [← Nat.pow_mod, hround, Nat.mod_eq_of_lt hm]

/-! ### Octets -/

/-- The number that octets spell, the first of them the most significant. -/
def os2ip (octets : List UInt8) : Nat := octets.foldl (fun n octet => 256 * n + octet.toNat) 0

/-- The last `k` octets of a number. -/
def i2osp : Nat → Nat → List UInt8
  | 0, _ => []
  | k + 1, n => i2osp k (n / 256) ++ [UInt8.ofNat n]

@[simp] theorem os2ip_nil : os2ip [] = 0 := rfl

theorem os2ip_concat (octets : List UInt8) (octet : UInt8) :
    os2ip (octets ++ [octet]) = 256 * os2ip octets + octet.toNat := by
  simp [os2ip]

theorem os2ip_lt (octets : List UInt8) : os2ip octets < 256 ^ octets.length := by
  induction octets using List.reverseRecOn with
  | nil => simp
  | append_singleton octets octet ih =>
      have hoctet := octet.toNat_lt
      rw [os2ip_concat, List.length_append, List.length_singleton, pow_succ]
      omega

/-- A leading zero does not count. -/
theorem os2ip_zero_cons (octets : List UInt8) : os2ip (0 :: octets) = os2ip octets := rfl

@[simp] theorem length_i2osp (k : Nat) : ∀ n, (i2osp k n).length = k := by
  induction k with
  | zero => exact fun n => rfl
  | succ k ih =>
      intro n
      rw [i2osp, List.length_append, ih, List.length_singleton]

theorem os2ip_i2osp (k : Nat) : ∀ n, n < 256 ^ k → os2ip (i2osp k n) = n := by
  induction k with
  | zero =>
      intro n hn
      rw [pow_zero, Nat.lt_one_iff] at hn
      rw [hn]
      rfl
  | succ k ih =>
      intro n hn
      have hdiv : n / 256 < 256 ^ k := by
        rw [pow_succ] at hn
        omega
      have hlast : (UInt8.ofNat n).toNat = n % 256 := UInt8.toNat_ofNat'
      rw [i2osp, os2ip_concat, ih _ hdiv, hlast]
      omega

/-- **Octets are the number they spell, written out.** -/
theorem i2osp_os2ip (octets : List UInt8) : i2osp octets.length (os2ip octets) = octets := by
  induction octets using List.reverseRecOn with
  | nil => rfl
  | append_singleton octets octet ih =>
      have hoctet := octet.toNat_lt
      have hdiv : (256 * os2ip octets + octet.toNat) / 256 = os2ip octets := by omega
      have hlast : UInt8.ofNat (256 * os2ip octets + octet.toNat) = octet := by
        apply UInt8.toNat_inj.mp
        rw [UInt8.toNat_ofNat']
        omega
      rw [os2ip_concat, List.length_append, List.length_singleton, i2osp, hdiv, hlast, ih]

/-- The octets a modulus takes. -/
def octetLength (n : Nat) : Nat := (Nat.size n + 7) / 8

theorem lt_octetLength (n : Nat) : n < 256 ^ octetLength n := by
  have hsize : Nat.size n ≤ 8 * octetLength n := by
    unfold octetLength
    omega
  calc n < 2 ^ Nat.size n := Nat.lt_size_self n
    _ ≤ 2 ^ (8 * octetLength n) := Nat.pow_le_pow_right (by decide) hsize
    _ = 256 ^ octetLength n := by rw [pow_mul]; norm_num

/-- A modulus has its first octet. -/
theorem octetLength_le {n k : Nat} (h : k + 1 = octetLength n) : 256 ^ k ≤ n := by
  have hsize : 8 * k < Nat.size n := by
    unfold octetLength at h
    omega
  calc 256 ^ k = 2 ^ (8 * k) := by rw [pow_mul]; norm_num
    _ ≤ n := Nat.lt_size.mp hsize

/-! ### Signatures -/

/-- A digest with the description of its algorithm, padded to `k` octets. -/
def encode (info digest : List UInt8) (k : Nat) : Option (List UInt8) :=
  let t := info ++ digest
  if k < t.length + 11 then none
  else some (0 :: 1 :: (List.replicate (k - t.length - 3) 0xff ++ 0 :: t))

theorem encode_spec {info digest em : List UInt8} {k : Nat} (h : encode info digest k = some em) :
    em.length = k ∧ os2ip em < 256 ^ (k - 1) := by
  unfold encode at h
  by_cases hshort : k < (info ++ digest).length + 11
  · rw [if_pos hshort] at h
    cases h
  · rw [if_neg hshort] at h
    obtain rfl := Option.some.inj h
    constructor
    · simp only [List.length_cons, List.length_append, List.length_replicate] at hshort ⊢
      omega
    · -- the encoding starts with a zero, so it is below any number of its length
      rw [os2ip_zero_cons]
      refine lt_of_lt_of_le (os2ip_lt _) (Nat.pow_le_pow_right (by decide) ?_)
      simp only [List.length_cons, List.length_append, List.length_replicate] at hshort ⊢
      omega

/-- The signature of a digest. -/
def sign (n d : Nat) (info digest : List UInt8) : Option (List UInt8) :=
  (encode info digest (octetLength n)).map fun em => i2osp (octetLength n) (os2ip em ^ d % n)

/-- The check of a signature: the public exponent gives back the encoded digest. -/
def verify (n e : Nat) (info digest signature : List UInt8) : Bool :=
  match encode info digest (octetLength n) with
  | none => false
  | some em =>
      signature.length == octetLength n && decide (os2ip signature < n) &&
        i2osp (octetLength n) (os2ip signature ^ e % n) == em

/-- **What the private key signs, the public key verifies.** -/
theorem verify_sign {p q e d : Nat} {info digest signature : List UInt8} (hp : p.Prime)
    (hq : q.Prime) (hne : p ≠ q) (hinv : Inverse p q e d)
    (h : sign (p * q) d info digest = some signature) :
    verify (p * q) e info digest signature = true := by
  obtain ⟨em, hem, rfl⟩ := Option.map_eq_some_iff.mp h
  obtain ⟨hlength, hlt⟩ := encode_spec hem
  have hpos : 0 < p * q := Nat.mul_pos hp.pos hq.pos
  have hmod : os2ip em ^ d % (p * q) < p * q := Nat.mod_lt _ hpos
  have hem_lt : os2ip em < p * q := by
    cases hk : octetLength (p * q) with
    | zero =>
        have hlt' := lt_octetLength (p * q)
        rw [hk, pow_zero] at hlt'
        omega
    | succ k =>
        rw [hk, Nat.add_sub_cancel] at hlt
        exact lt_of_lt_of_le hlt (octetLength_le hk.symm)
  have hsignature := os2ip_i2osp (octetLength (p * q)) (os2ip em ^ d % (p * q))
    (hmod.trans (lt_octetLength (p * q)))
  have hback : i2osp (octetLength (p * q)) (os2ip em) = em := by
    rw [← hlength]
    exact i2osp_os2ip em
  unfold verify
  simp only [hem, length_i2osp, hsignature, mod_pow_mod_pow hp hq hne hinv hem_lt, hback, hmod,
    beq_self_eq_true, decide_true, Bool.and_true]

end Rsa
