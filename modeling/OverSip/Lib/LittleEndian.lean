import Mathlib.Algebra.Ring.Nat
import Mathlib.Data.List.Basic
import Mathlib.Tactic.Common

/-!
# Words in memory

`store w n` is a word of `w` bytes as a little-endian machine has it in memory, and `load` reads one.
`toNetwork` is `htons` (and `htonl`): the bytes of a word in the opposite order. `loadNetwork` reads a word
that is in network byte order.
-/

namespace OverSip

namespace LittleEndian

/-- The word of which these are the bytes in memory. -/
def load : List UInt8 → ℕ
  | [] => 0
  | b :: bs => b.toNat + 256 * load bs

/-- The bytes of a word; what does not fit is dropped. -/
def store : ℕ → ℕ → List UInt8
  | 0, _ => []
  | w + 1, n => UInt8.ofNat n :: store w (n / 256)

/-- The word with its bytes in the opposite order. -/
def toNetwork (w n : ℕ) : ℕ := load (store w n).reverse

/-- The word of which these are the bytes in network byte order. -/
def loadNetwork (bs : List UInt8) : ℕ := load bs.reverse

@[simp] theorem length_store (w n : ℕ) : (store w n).length = w := by
  induction w generalizing n with
  | zero => rfl
  | succ w ih =>
    show (store w (n / 256)).length + 1 = w + 1
    rw [ih]

theorem store_load (bs : List UInt8) : store bs.length (load bs) = bs := by
  induction bs with
  | nil => rfl
  | cons b bs ih =>
    show UInt8.ofNat (b.toNat + 256 * load bs) :: store bs.length ((b.toNat + 256 * load bs) / 256) = b :: bs
    have hb := b.toNat_lt
    have hdiv : (b.toNat + 256 * load bs) / 256 = load bs := by omega
    have hmod : UInt8.ofNat (b.toNat + 256 * load bs) = b := by
      apply UInt8.toNat_inj.mp
      rw [UInt8.toNat_ofNat']
      omega
    rw [hdiv, hmod, ih]

theorem load_store (w n : ℕ) : load (store w n) = n % 256 ^ w := by
  induction w generalizing n with
  | zero => exact (Nat.mod_one n).symm
  | succ w ih =>
    show (UInt8.ofNat n).toNat + 256 * load (store w (n / 256)) = n % 256 ^ (w + 1)
    have hbyte : (UInt8.ofNat n).toNat = n % 256 := UInt8.toNat_ofNat'
    rw [ih, hbyte, Nat.pow_succ', Nat.mod_mul]

/-- A word in network byte order, as it is in memory. -/
theorem store_toNetwork (w n : ℕ) : store w (toNetwork w n) = (store w n).reverse := by
  have hlen : (store w n).reverse.length = w := by
    rw [List.length_reverse, length_store]
  calc store w (toNetwork w n) = store (store w n).reverse.length (load (store w n).reverse) := by
        rw [hlen]
        rfl
    _ = (store w n).reverse := store_load _

theorem loadNetwork_store_toNetwork (w n : ℕ) : loadNetwork (store w (toNetwork w n)) = n % 256 ^ w := by
  unfold loadNetwork
  rw [store_toNetwork, List.reverse_reverse, load_store]

end LittleEndian

end OverSip
