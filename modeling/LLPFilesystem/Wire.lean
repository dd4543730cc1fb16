import Mathlib.Data.Int.Order.Basic
import Mathlib.Tactic.NormNum
import LLPFilesystem.Codec

/-!
# The external data representation

The routines of which those of a remote procedure call are put together, byte by byte and
in both directions. Everything takes a multiple of four bytes; numbers have their first
byte first.

A routine refuses a value that is not of the type it is for, as the numbers here have no
bound of their own. Of what it reads it refuses what is too short, and counts beyond a
bound.
-/

namespace Xdr.Wire

open Codec

/-- `xdr_u_long` and `xdr_u_int`. -/
def uLong : Codec UInt8 ℕ := bigEndian 4

/-- `xdr_u_quad_t`. -/
def uQuad : Codec UInt8 ℕ := bigEndian 8

/-- `xdr_int` and `xdr_enum`: a negative number as its two's complement. -/
def int : Codec UInt8 ℤ :=
  uLong.lift (fun n => some ((n : ℤ).bmod (2 ^ 32)))
    (fun z => if -2 ^ 31 ≤ z ∧ z < 2 ^ 31 then some (z % 2 ^ 32).toNat else none)
    fun n z h => by
      split at h
      · next hz =>
        obtain rfl := Option.some.inj h
        rw [Int.toNat_of_nonneg (Int.emod_nonneg z (by norm_num))]
        refine congrArg some ?_
        rw [show (2 : ℤ) ^ 32 = ((2 ^ 32 : ℕ) : ℤ) from rfl, Int.emod_bmod]
        exact Int.bmod_eq_of_le (by norm_num; exact hz.1) (by norm_num; exact hz.2)
      · exact absurd h.symm (Option.some_ne_none _)

/-- `xdr_bool`: anything but zero is read as true. -/
def bool : Codec UInt8 Bool :=
  uLong.view (fun n => n ≠ 0) (fun b => if b then 1 else 0) (by rintro (_ | _) <;> rfl)

/-- `xdr_opaque`: so many bytes, and up to three more to a multiple of four. -/
def fixed (n : ℕ) : Codec UInt8 (List UInt8) :=
  ((symbol.exactly n).pair (skip 0 ((4 - n % 4) % 4))).view Prod.fst (fun bs => (bs, ()))
    fun _ => rfl

/-- `xdr_bytes` and `xdr_string`: the number of bytes, and the bytes. -/
def bytes (maxsize : ℕ) : Codec UInt8 (List UInt8) :=
  ((uLong.guard (· ≤ maxsize)).sigma fixed).view (fun x => x.2) (fun bs => ⟨bs.length, bs⟩)
    fun _ => rfl

/-- `xdr_array`. -/
def array {α : Type} (maxsize : ℕ) (c : Codec UInt8 α) : Codec UInt8 (List α) :=
  (uLong.guard (· ≤ maxsize)).array c

/-- A list that is linked through `xdr_pointer`. -/
def pointers {α : Type} (c : Codec UInt8 α) : Codec UInt8 (List α) :=
  linked bool (by decide) c

/-! ## What is put down -/

variable {α : Type} {c : Codec UInt8 α} {n maxsize : ℕ} {z : ℤ} {bs : List UInt8}

@[simp] theorem isSome_uLong : (uLong.encode n).isSome ↔ n < 2 ^ 32 := isSome_bigEndian

@[simp] theorem isSome_uQuad : (uQuad.encode n).isSome ↔ n < 2 ^ 64 := isSome_bigEndian

theorem isSome_int : (int.encode z).isSome ↔ -2 ^ 31 ≤ z ∧ z < 2 ^ 31 := by
  rw [int, encode_lift]
  split
  · next h =>
    refine ⟨fun _ => h, fun _ => ?_⟩
    rw [Option.bind_some, isSome_uLong]
    omega
  · next h => exact ⟨fun hs => absurd hs Bool.false_ne_true, fun hs => absurd hs h⟩

@[simp] theorem isSome_bool (b : Bool) : (bool.encode b).isSome := by
  show (uLong.encode (if b then 1 else 0)).isSome
  rw [isSome_uLong]
  cases b <;> decide

theorem isSome_guard :
    ((uLong.guard (· ≤ maxsize)).encode n).isSome ↔ n ≤ maxsize ∧ n < 2 ^ 32 := by
  rw [Codec.guard, encode_lift]
  split
  · next h =>
    rw [Option.bind_some, isSome_uLong]
    exact (and_iff_right h).symm
  · next h => exact ⟨fun hs => absurd hs Bool.false_ne_true, fun hs => absurd hs.1 h⟩

theorem isSome_fixed : ((fixed n).encode bs).isSome ↔ bs.length = n := by
  rw [fixed, encode_view, isSome_pair, isSome_exactly]
  exact ⟨fun h => h.1.1, fun h => ⟨⟨h, fun _ _ => rfl⟩, rfl⟩⟩

theorem isSome_bytes :
    ((bytes maxsize).encode bs).isSome ↔ bs.length ≤ maxsize ∧ bs.length < 2 ^ 32 := by
  show (((uLong.guard (· ≤ maxsize)).pair (fixed bs.length)).encode (bs.length, bs)).isSome ↔ _
  rw [isSome_pair, isSome_guard, isSome_fixed, and_iff_left rfl]

theorem isSome_pointers {as : List α} :
    ((pointers c).encode as).isSome ↔ ∀ a ∈ as, (c.encode a).isSome :=
  isSome_linked (isSome_bool true) (isSome_bool false)

/-- A word, a negative one, and three bytes. -/
example : (uLong.encode 258, int.encode (-1), (bytes 64).encode [1, 2, 3])
    = (some [0, 0, 1, 2], some [255, 255, 255, 255], some [0, 0, 0, 3, 1, 2, 3, 0]) := by decide

end Xdr.Wire
