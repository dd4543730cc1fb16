import Mathlib.Data.Int.Notation
import Mathlib.Data.List.TakeWhile
import Mathlib.Data.Nat.Notation

/-!
# Texts as the C library reads and writes them

A text is a list of bytes. What the string functions do with one is here:
where a string in a buffer ends (`Text.cstr`), whether it starts with a literal
(`Text.startsWith`), which word a scan finds behind one (`Text.word`), and what a
bounded print leaves of it (`Text.snprintf`).
-/

namespace Text

/-- The bytes of a literal. -/
def ascii (literal : String) : List UInt8 :=
  literal.toList.map fun c => UInt8.ofNat c.toNat

/-- A number in decimal. -/
def decimal (n : ℤ) : List UInt8 := ascii (toString n)

/-- The string in a buffer: the bytes before the first zero. -/
def cstr (buffer : List UInt8) : List UInt8 := buffer.takeWhile (· ≠ 0)

/-- What `isspace` accepts. -/
def isSpace (c : UInt8) : Bool := c == 32 || (9 ≤ c && c ≤ 13)

/-- **The word a scan finds**: white space is skipped, and the bytes up to the
next white space are taken. -/
def word (text : List UInt8) : List UInt8 :=
  (text.dropWhile isSpace).takeWhile fun c => !isSpace c

/-- Whether a buffer starts with the bytes of a literal. -/
def startsWith (buffer : List UInt8) (literal : String) : Bool :=
  (ascii literal).isPrefixOf buffer

/-- What a print into `size` bytes leaves of a text: its last byte is the
terminating zero. -/
def snprintf (size : ℕ) (text : List UInt8) : List UInt8 := text.take (size - 1)

variable {buffer rest : List UInt8} {literal : String} {a b : UInt8}

theorem cstr_eq_nil : cstr buffer = [] ↔ buffer = [] ∨ buffer.head? = some 0 := by
  cases buffer with
  | nil => exact ⟨fun _ => .inl rfl, fun _ => rfl⟩
  | cons c buffer =>
    by_cases hc : c = 0
    · subst hc
      exact ⟨fun _ => .inr rfl, fun _ => rfl⟩
    · have hcons : cstr (c :: buffer) = c :: cstr buffer :=
        List.takeWhile_cons_of_pos (decide_eq_true hc)
      rw [hcons]
      refine ⟨fun h => absurd h (List.cons_ne_nil _ _), ?_⟩
      rintro (h | h)
      · exact absurd h (List.cons_ne_nil _ _)
      · exact absurd (Option.some.inj h) hc

/-- A text without a zero is a string as it is. -/
theorem cstr_of_notMem (h : 0 ∉ buffer) : cstr buffer = buffer :=
  List.takeWhile_eq_self_iff.mpr fun _ hc => decide_eq_true fun h0 => h (h0 ▸ hc)

theorem length_snprintf (size : ℕ) (text : List UInt8) :
    (snprintf (size + 1) text).length = min size text.length := List.length_take

/-- A text that fits is printed whole. -/
theorem snprintf_of_length_le {size : ℕ} {text : List UInt8} (h : text.length ≤ size) :
    snprintf (size + 1) text = text := List.take_of_length_le h

/-- A word holds no white space. -/
theorem isSpace_of_mem_word {text : List UInt8} (h : a ∈ word text) : isSpace a = false := by
  have hword := List.mem_takeWhile_imp h
  rwa [Bool.not_eq_true'] at hword

/-- **A word behind a space** and before white space is what a scan finds. -/
theorem word_cons {name : List UInt8} (hname : name ≠ []) (hspace : ∀ c ∈ name, isSpace c = false)
    (hb : isSpace b = true) : word (32 :: (name ++ b :: rest)) = name := by
  obtain ⟨c, name, rfl⟩ := List.exists_cons_of_ne_nil hname
  have hskip : (32 :: (c :: name ++ b :: rest)).dropWhile isSpace = c :: name ++ b :: rest := by
    rw [List.dropWhile_cons_of_pos (by decide), List.cons_append,
      List.dropWhile_cons_of_neg (by rw [hspace c List.mem_cons_self]; exact Bool.false_ne_true)]
  rw [word, hskip, List.takeWhile_append_of_pos (fun x hx => by rw [hspace x hx]; rfl),
    List.takeWhile_cons_of_neg (by rw [hb]; exact Bool.false_ne_true), List.append_nil]

theorem startsWith_iff : startsWith buffer literal = true ↔ ascii literal <+: buffer :=
  List.isPrefixOf_iff_prefix

/-- A buffer shorter than the literal does not start with it. -/
theorem startsWith_of_length_lt (h : buffer.length < (ascii literal).length) :
    startsWith buffer literal = false :=
  Bool.eq_false_iff.mpr fun hs =>
    Nat.not_le_of_lt h (startsWith_iff.mp hs).length_le

/-- **A last byte that the literal does not hold** is no part of a literal at the
start. -/
theorem startsWith_concat (h : a ∉ ascii literal) :
    startsWith (buffer ++ [a]) literal = startsWith buffer literal := by
  refine Bool.eq_iff_iff.mpr ?_
  rw [startsWith_iff, startsWith_iff]
  refine ⟨fun hp => ?_, fun hp => hp.trans (List.prefix_append _ _)⟩
  rcases List.prefix_concat_iff.mp hp with heq | hp
  · exact absurd (heq ▸ List.mem_append_right _ (List.mem_singleton_self a)) h
  · exact hp

end Text
