import Mathlib.Tactic

/-! Little-endian byte strings of a fixed length and the numbers they denote. -/

namespace Nvcr.LittleEndian

/-- The `n` low bytes of a number, least significant first. -/
def leBytes : ℕ → ℕ → List UInt8
  | 0, _ => []
  | n + 1, v => UInt8.ofNat v :: leBytes n (v / 256)

/-- The number a byte string denotes. -/
def leValue : List UInt8 → ℕ
  | [] => 0
  | b :: bs => b.toNat + 256 * leValue bs

@[simp] theorem leBytes_length (n v : ℕ) : (leBytes n v).length = n := by
  induction n generalizing v with
  | zero => rfl
  | succ n ih => simp [leBytes, ih]

theorem leValue_leBytes (n v : ℕ) : leValue (leBytes n v) = v % 256 ^ n := by
  induction n generalizing v with
  | zero => simp [leBytes, leValue, Nat.mod_one]
  | succ n ih =>
      rw [leBytes, leValue, ih, pow_succ, Nat.mul_comm (256 ^ n), Nat.mod_mul]
      simp

theorem leValue_leBytes_of_lt {n v : ℕ} (h : v < 256 ^ n) : leValue (leBytes n v) = v := by
  rw [leValue_leBytes, Nat.mod_eq_of_lt h]

theorem leValue_lt (bs : List UInt8) : leValue bs < 256 ^ bs.length := by
  induction bs with
  | nil => simp [leValue]
  | cons b bs ih =>
      have hb := b.toNat_lt
      rw [leValue, List.length_cons, pow_succ]
      omega

theorem leBytes_leValue (bs : List UInt8) : leBytes bs.length (leValue bs) = bs := by
  induction bs with
  | nil => rfl
  | cons b bs ih =>
      have hb := b.toNat_lt
      have hhead : UInt8.ofNat (b.toNat + 256 * leValue bs) = b := by
        apply UInt8.toNat_inj.mp
        rw [UInt8.toNat_ofNat']
        omega
      have hdiv : (b.toNat + 256 * leValue bs) / 256 = leValue bs := by omega
      rw [List.length_cons, leBytes, leValue, hhead, hdiv, ih]

end Nvcr.LittleEndian
