import Mathlib.Algebra.Order.Ring.Nat
import Mathlib.Data.List.Basic
import Mathlib.Tactic.Ring

/-!
# Bytes in memory

Memory is read as a function from positions to bytes, so a pointer is such a
function and pointer arithmetic a shift (`Buf.shift`). The three things a
program does with bytes are here with the lemmas that compute them: copying
a block (`Buf.blit`), storing a number in little-endian order (`leNat`,
`leByte`), and reading a string up to its terminating zero (`cString`).

Positions past the end of an allocation are positions like any other: what a
buffer holds there is whatever the function says.
-/

/-- The memory a pointer points to. -/
abbrev Buf := ℕ → UInt8

namespace Buf

/-- Pointer arithmetic: `b + k`. -/
def shift (b : Buf) (k : ℕ) : Buf := fun i => b (k + i)

/-- Copying `n` bytes of `src` to position `at'` of `dst`. -/
def blit (dst : Buf) (at' : ℕ) (src : Buf) (n : ℕ) : Buf :=
  fun i => if at' ≤ i ∧ i < at' + n then src (i - at') else dst i

variable {dst src : Buf} {at' n i k : ℕ}

@[simp] theorem shift_apply (b : Buf) (k i : ℕ) : b.shift k i = b (k + i) := rfl

@[simp] theorem shift_zero (b : Buf) : b.shift 0 = b :=
  funext fun i => congrArg b (Nat.zero_add i)

@[simp] theorem shift_shift (b : Buf) (k n : ℕ) : (b.shift k).shift n = b.shift (k + n) :=
  funext fun i => congrArg b (Nat.add_assoc k n i).symm

theorem blit_of_mem (h : at' ≤ i) (h' : i < at' + n) :
    blit dst at' src n i = src (i - at') := by
  rw [blit, if_pos ⟨h, h'⟩]

theorem blit_of_lt (h : i < at') : blit dst at' src n i = dst i := by
  rw [blit, if_neg (fun hc => absurd hc.1 (Nat.not_le_of_lt h))]

theorem blit_of_le (h : at' + n ≤ i) : blit dst at' src n i = dst i := by
  rw [blit, if_neg (fun hc => absurd hc.2 (Nat.not_lt_of_le h))]

/-- The copied block, read back. -/
theorem blit_add (h : i < n) : blit dst at' src n (at' + i) = src i := by
  rw [blit_of_mem (Nat.le_add_right _ _) (Nat.add_lt_add_left h _),
    Nat.add_sub_cancel_left]

/-- A copy depends on the bytes copied only. -/
theorem blit_congr {src' : Buf} (h : ∀ i < n, src' i = src i) :
    blit dst at' src' n = blit dst at' src n := by
  funext i
  unfold blit
  split
  · next hi => exact h _ (by omega)
  · rfl

/-- Copying nothing changes nothing. -/
@[simp] theorem blit_zero (dst src : Buf) (at' : ℕ) : blit dst at' src 0 = dst :=
  funext fun i => by
    rcases Nat.lt_or_ge i at' with h | h
    · exact blit_of_lt h
    · exact blit_of_le h

/-- **Adjacent blocks**, stored one after the other, are one block. -/
theorem blit_blit (dst src : Buf) (o n m : ℕ) :
    (dst.blit o src n).blit (o + n) (src.shift n) m = dst.blit o src (n + m) := by
  funext i
  unfold Buf.blit
  by_cases h₂ : o + n ≤ i ∧ i < o + n + m
  · rw [if_pos h₂, if_pos (by omega)]
    exact congrArg src (by omega)
  · rw [if_neg h₂]
    by_cases h₁ : o ≤ i ∧ i < o + n
    · rw [if_pos h₁, if_pos (by omega)]
    · rw [if_neg h₁, if_neg (by omega)]

/-- **A block stored in some bytes splices it in** between those before and
those behind it, which it may extend. -/
theorem map_range_blit {m o : ℕ} (h : o ≤ m) :
    (List.range (max m (o + n))).map (dst.blit o src n)
      = ((List.range m).map dst).take o ++ (List.range n).map src
        ++ ((List.range m).map dst).drop (o + n) := by
  have hbefore : (((List.range m).map dst).take o).length = o := by
    simp [h]
  refine List.ext_getElem (by simp; omega) (fun i hi hi' => ?_)
  rw [List.getElem_map, List.getElem_range]
  rcases Nat.lt_or_ge i o with hlt | hge
  · rw [List.getElem_append_left (by simp; omega), List.getElem_append_left (by omega),
      List.getElem_take, List.getElem_map, List.getElem_range, blit_of_lt hlt]
  · rcases Nat.lt_or_ge i (o + n) with hlt | hge'
    · rw [List.getElem_append_left (by simp; omega), List.getElem_append_right (by omega),
        List.getElem_map, List.getElem_range, blit_of_mem hge hlt]
      congr 1
      omega
    · rw [List.getElem_append_right (by simp; omega), List.getElem_drop, List.getElem_map,
        List.getElem_range, blit_of_le hge']
      congr 1
      simp
      omega

end Buf

/-! ## Numbers in little-endian order -/

/-- The number whose `n` bytes, least significant first, start at `off`. -/
def leNat (m : Buf) : ℕ → ℕ → ℕ
  | _, 0 => 0
  | off, n + 1 => (m off).toNat + 256 * leNat m (off + 1) n

/-- The `i`-th byte of a number, least significant first. -/
def leByte (v i : ℕ) : UInt8 := UInt8.ofNat (v / 256 ^ i)

theorem leNat_lt (m : Buf) (off n : ℕ) : leNat m off n < 256 ^ n := by
  induction n generalizing off with
  | zero => exact Nat.one_pos
  | succ n ih =>
    have hb := (m off).toNat_lt
    have hr := ih (off + 1)
    rw [leNat, pow_succ]
    omega

/-- A stored number depends on its own bytes only. -/
theorem leNat_congr {m m' : Buf} {off off' n : ℕ}
    (h : ∀ i < n, m (off + i) = m' (off' + i)) :
    leNat m off n = leNat m' off' n := by
  induction n generalizing off off' with
  | zero => rfl
  | succ n ih =>
    rw [leNat, leNat, show m off = m' off' from h 0 (Nat.succ_pos n),
      ih (fun i hi => ?_)]
    have hs := h (i + 1) (Nat.succ_lt_succ hi)
    rwa [← Nat.add_assoc, ← Nat.add_assoc, Nat.add_right_comm off,
      Nat.add_right_comm off'] at hs

theorem leByte_succ (v i : ℕ) : leByte v (i + 1) = leByte (v / 256) i := by
  rw [leByte, leByte, pow_succ', Nat.div_div_eq_div_mul]

/-- **Reading back a stored number** gives it modulo the width. -/
theorem leNat_of_leByte {m : Buf} {off n v : ℕ}
    (h : ∀ i < n, m (off + i) = leByte v i) :
    leNat m off n = v % 256 ^ n := by
  induction n generalizing off v with
  | zero => rw [leNat, pow_zero, Nat.mod_one]
  | succ n ih =>
    have h0 : m off = leByte v 0 := h 0 (Nat.succ_pos n)
    have hr : leNat m (off + 1) n = v / 256 % 256 ^ n := ih (fun i hi => by
      rw [← leByte_succ, Nat.add_right_comm, Nat.add_assoc]
      exact h (i + 1) (Nat.succ_lt_succ hi))
    rw [leNat, h0, hr, leByte, pow_zero, Nat.div_one, UInt8.toNat_ofNat',
      pow_succ' 256 n, Nat.mod_mul]

/-- **Storing a number that was read** gives its bytes back. -/
theorem leByte_leNat {m : Buf} {off n i : ℕ} (hi : i < n) :
    leByte (leNat m off n) i = m (off + i) := by
  induction n generalizing off i with
  | zero => exact absurd hi (Nat.not_lt_zero i)
  | succ n ih =>
    have hb := (m off).toNat_lt
    cases i with
    | zero =>
      rw [leByte, leNat, pow_zero, Nat.div_one, Nat.add_zero off]
      refine UInt8.toNat_inj.mp ?_
      rw [UInt8.toNat_ofNat', Nat.add_mul_mod_self_left, Nat.mod_eq_of_lt hb]
    | succ i =>
      rw [leByte_succ, leNat, Nat.add_mul_div_left _ _ (by norm_num),
        Nat.div_eq_of_lt hb, Nat.zero_add, ih (Nat.lt_of_succ_lt_succ hi)]
      exact congrArg m (by omega)

/-! ## Strings -/

/-- The string at a pointer: the bytes before the first zero, and at most
`bound` of them. -/
def cString (m : Buf) (bound : ℕ) : List UInt8 :=
  ((List.range bound).map m).takeWhile (· ≠ 0)

/-- A string with a terminating zero inside the bound. -/
theorem cString_eq {m : Buf} {n bound : ℕ} (hn : n < bound) (h0 : m n = 0)
    (h : ∀ i < n, m i ≠ 0) : cString m bound = (List.range n).map m := by
  obtain ⟨k, rfl⟩ := Nat.exists_eq_add_of_lt hn
  have hsplit : (List.range (n + k + 1)).map m
      = (List.range n).map m ++ (m n :: (List.range k).map fun i => m (n + 1 + i)) := by
    rw [Nat.add_assoc, List.range_add, List.map_append, List.range_succ_eq_map]
    simp [Function.comp_def, Nat.add_right_comm, ← Nat.add_assoc]
  rw [cString, hsplit, List.takeWhile_append_of_pos (by
    intro x hx
    obtain ⟨i, hi, rfl⟩ := List.mem_map.mp hx
    exact decide_eq_true (h i (List.mem_range.mp hi))),
    List.takeWhile_cons_of_neg (by simp [h0]), List.append_nil]

/-- A string depends on the bytes up to its terminating zero. -/
theorem cString_congr {m m' : Buf} {n bound : ℕ} (hn : n < bound) (h0 : m n = 0)
    (h : ∀ i ≤ n, m' i = m i) : cString m' bound = cString m bound := by
  induction n using Nat.strong_induction_on with
  | _ n ih =>
    by_cases hz : ∃ k < n, m k = 0
    · obtain ⟨k, hk, hmk⟩ := hz
      exact ih k hk (by omega) hmk (fun i hi => h i (by omega))
    · have hne : ∀ i < n, m i ≠ 0 := fun i hi hmi => hz ⟨i, hi, hmi⟩
      rw [cString_eq hn h0 hne, cString_eq hn (by rw [h n (Nat.le_refl n), h0])
        (fun i hi => by rw [h i (by omega)]; exact hne i hi)]
      exact List.map_congr_left fun i hi => h i (by have := List.mem_range.mp hi; omega)
