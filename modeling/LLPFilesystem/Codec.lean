import Mathlib.Algebra.Order.Ring.Nat
import Mathlib.Data.List.Basic
import Mathlib.Tactic.Ring

/-!
# Codecs

A routine that goes both ways: it puts a value down as a list of symbols, and reads it
back from the front of one. It may refuse a value, and it may refuse what it reads. What
it puts down it reads back, whatever follows; so what has been cut short is refused
(`Codec.decode_cut`).

The laws are part of the routine, and each combinator carries them over, so that a
routine put together from others needs no proof of its own. There are the combinators for
one value after the other (`Codec.pair`), for a value seen in another way (`Codec.lift`,
`Codec.view`), for a tag that says what follows (`Codec.switch`), for so many values of a
kind (`Codec.exactly`, `Codec.array`), and for values each of which says that there is one
more (`Codec.linked`).
-/

/-- **A codec**: what a value is put down as, and what is read back from the front of
some symbols, with what is left of these. -/
structure Codec (σ α : Type*) where
  encode : α → Option (List σ)
  decode : List σ → Option (α × List σ)
  /-- What has been put down is read back, whatever follows. -/
  decode_encode : ∀ {a w}, encode a = some w → ∀ rest, decode (w ++ rest) = some (a, rest)
  /-- What is read does not depend on what follows. -/
  decode_append : ∀ {w a rest}, decode w = some (a, rest) →
    ∀ more, decode (w ++ more) = some (a, rest ++ more)

namespace Codec

variable {σ τ α β : Type*}

/-! ## What the laws give -/

section Laws

variable {c : Codec σ α} {a : α} {u v w : List σ}

/-- What has been put down is read back, to the end. -/
theorem decode_of_encode (h : c.encode a = some w) : c.decode w = some (a, []) := by
  have hw := c.decode_encode h []
  rwa [List.append_nil] at hw

/-- **What has been cut short is refused.** -/
theorem decode_cut (h : c.encode a = some (u ++ v)) (hv : v ≠ []) : c.decode u = none := by
  refine Option.eq_none_iff_forall_ne_some.mpr fun x hx => ?_
  obtain ⟨b, rest⟩ := x
  -- what would be read from the part would be read from the whole, which leaves nothing
  have happ := c.decode_append hx v
  rw [decode_of_encode h] at happ
  have hnil : [] = rest ++ v := congrArg Prod.snd (Option.some.inj happ)
  exact hv (List.append_eq_nil_iff.mp hnil.symm).2

end Laws

/-! ## Combinators -/

/-- Nothing is put down. -/
def void : Codec σ Unit where
  encode _ := some []
  decode w := some ((), w)
  decode_encode := by
    rintro ⟨⟩ w h rest
    obtain rfl := Option.some.inj h
    rfl
  decode_append := by
    rintro w ⟨⟩ rest h more
    obtain rfl : w = rest := congrArg Prod.snd (Option.some.inj h)
    rfl

/-- One symbol. -/
def symbol : Codec σ σ where
  encode a := some [a]
  decode
    | [] => none
    | a :: w => some (a, w)
  decode_encode := by
    rintro a w h rest
    obtain rfl := Option.some.inj h
    rfl
  decode_append := by
    rintro (_ | ⟨b, w⟩) a rest h more
    · exact absurd h.symm (Option.some_ne_none _)
    · obtain ⟨rfl, rfl⟩ := Prod.mk.inj (Option.some.inj h)
      rfl

/-- As many symbols as are asked for, which say nothing. -/
def skip (z : σ) (n : ℕ) : Codec σ Unit where
  encode _ := some (List.replicate n z)
  decode w := if n ≤ w.length then some ((), w.drop n) else none
  decode_encode := by
    rintro ⟨⟩ w h rest
    obtain rfl := Option.some.inj h
    rw [if_pos (by simp), List.drop_left' (List.length_replicate ..)]
  decode_append := by
    rintro w ⟨⟩ rest h more
    split at h
    · next hn =>
      obtain rfl : w.drop n = rest := congrArg Prod.snd (Option.some.inj h)
      rw [if_pos (hn.trans (by simp)), List.drop_append_of_le_length hn]
    · exact absurd h.symm (Option.some_ne_none _)

/-- **A value seen in another way**: `f` is what is made of a value that has been read,
and `g` the value that stands for one to be put down. Either may refuse. -/
def lift (c : Codec σ α) (f : α → Option β) (g : β → Option α)
    (h : ∀ a b, g b = some a → f a = some b) : Codec σ β where
  encode b := (g b).bind c.encode
  decode w := (c.decode w).bind fun x => (f x.1).map fun b => (b, x.2)
  decode_encode := by
    intro b w hb rest
    obtain ⟨a, ha, hw⟩ := Option.bind_eq_some_iff.mp hb
    rw [c.decode_encode hw rest, Option.bind_some, h _ _ ha]
    rfl
  decode_append := by
    intro w b rest hb more
    obtain ⟨x, hx, hb⟩ := Option.bind_eq_some_iff.mp hb
    obtain ⟨b', hf, hb⟩ := Option.map_eq_some_iff.mp hb
    obtain ⟨rfl, rfl⟩ := Prod.mk.inj hb
    rw [c.decode_append hx more, Option.bind_some, hf]
    rfl

/-- The same, where neither refuses. -/
def view (c : Codec σ α) (f : α → β) (g : β → α) (h : ∀ b, f (g b) = b) : Codec σ β :=
  c.lift (fun a => some (f a)) (fun b => some (g b)) fun _ b ha =>
    congrArg some ((congrArg f (Option.some.inj ha)).symm.trans (h b))

/-- Only values of which something holds. -/
def guard (c : Codec σ α) (p : α → Prop) [DecidablePred p] : Codec σ α :=
  c.lift (fun a => if p a then some a else none) (fun a => if p a then some a else none)
    fun a b h => by
      split at h
      · next hp =>
        obtain rfl := Option.some.inj h
        exact if_pos hp
      · exact absurd h.symm (Option.some_ne_none _)

/-- **A value that says what follows it.** -/
def sigma {β : τ → Type*} (c : Codec σ τ) (d : (t : τ) → Codec σ (β t)) :
    Codec σ (Σ t, β t) where
  encode x := (c.encode x.1).bind fun u => ((d x.1).encode x.2).map (u ++ ·)
  decode w := (c.decode w).bind fun x => ((d x.1).decode x.2).map fun y => (⟨x.1, y.1⟩, y.2)
  decode_encode := by
    rintro ⟨t, b⟩ w h rest
    obtain ⟨u, hu, h⟩ := Option.bind_eq_some_iff.mp h
    obtain ⟨v, hv, rfl⟩ := Option.map_eq_some_iff.mp h
    rw [List.append_assoc, c.decode_encode hu, Option.bind_some, (d t).decode_encode hv]
    rfl
  decode_append := by
    intro w x rest h more
    obtain ⟨⟨t, w'⟩, hc, h⟩ := Option.bind_eq_some_iff.mp h
    obtain ⟨⟨b, w''⟩, hd, h⟩ := Option.map_eq_some_iff.mp h
    obtain ⟨rfl, rfl⟩ := Prod.mk.inj h
    rw [c.decode_append hc more, Option.bind_some, (d t).decode_append hd more]
    rfl

/-- **One value after the other.** -/
def pair (c : Codec σ α) (d : Codec σ β) : Codec σ (α × β) :=
  (c.sigma fun _ => d).view (fun x => (x.1, x.2)) (fun x => ⟨x.1, x.2⟩) fun _ => rfl

/-- **What follows a tag**: one thing after the tag `t₀`, and another after any other. -/
inductive Switch (t₀ : τ) (α β : Type*) where
  | taken (a : α)
  | other (t : τ) (h : t ≠ t₀) (b : β)
  deriving DecidableEq

/-- A value of the first of two kinds. -/
def left (c : Codec σ α) : Codec σ (α ⊕ β) :=
  c.lift (fun a => some (.inl a)) Sum.getLeft? fun _ _ h =>
    congrArg some (Sum.getLeft?_eq_some_iff.mp h).symm

/-- A value of the second of two kinds. -/
def right (d : Codec σ β) : Codec σ (α ⊕ β) :=
  d.lift (fun b => some (.inr b)) Sum.getRight? fun _ _ h =>
    congrArg some (Sum.getRight?_eq_some_iff.mp h).symm

/-- **A tag, and what follows it.** -/
def switch [DecidableEq τ] (tag : Codec σ τ) (t₀ : τ) (c : Codec σ α) (d : Codec σ β) :
    Codec σ (Switch t₀ α β) :=
  (tag.sigma fun t => if t = t₀ then c.left else d.right).lift
    (fun
      | ⟨_, .inl a⟩ => some (.taken a)
      | ⟨t, .inr b⟩ => if h : t = t₀ then none else some (.other t h b))
    (fun
      | .taken a => some ⟨t₀, .inl a⟩
      | .other t _ b => some ⟨t, .inr b⟩)
    (by
      rintro x (a | ⟨t, h, b⟩) hx
      · obtain rfl := Option.some.inj hx
        rfl
      · obtain rfl := Option.some.inj hx
        exact dif_neg h)

/-- A value that may be there: a flag says so. -/
def option (flag : Codec σ Bool) (c : Codec σ α) : Codec σ (Option α) :=
  (flag.switch true c void).view
    (fun
      | .taken a => some a
      | .other _ _ _ => none)
    (fun
      | some a => .taken a
      | none => .other false Bool.false_ne_true ())
    (by rintro (_ | a) <;> rfl)

/-- So many values of a kind. -/
def exactly (c : Codec σ α) : ℕ → Codec σ (List α)
  | 0 => void.lift (fun _ => some []) (fun as => if as = [] then some () else none) fun _ _ h => by
      split at h
      · next has => rw [has]
      · exact absurd h.symm (Option.some_ne_none _)
  | n + 1 => (c.pair (exactly c n)).lift (fun x => some (x.1 :: x.2))
      (fun
        | [] => none
        | a :: as => some (a, as))
      (by
        rintro x (_ | ⟨a, as⟩) hx
        · exact absurd hx.symm (Option.some_ne_none _)
        · obtain rfl := Option.some.inj hx
          rfl)

/-- Some values of a kind, behind their number. -/
def array (count : Codec σ ℕ) (c : Codec σ α) : Codec σ (List α) :=
  (count.sigma c.exactly).view (fun x => x.2) (fun as => ⟨as.length, as⟩) fun _ => rfl

/-- Fewer than so many values, each behind a flag that says that there is one more. -/
def linkedBelow (flag : Codec σ Bool) (c : Codec σ α) : ℕ → Codec σ (List α)
  | 0 => void.lift (fun _ => none) (fun _ => none) fun _ _ h =>
    absurd h.symm (Option.some_ne_none _)
  | n + 1 => (flag.option (c.pair (linkedBelow flag c n))).view
      (fun
        | some x => x.1 :: x.2
        | none => [])
      (fun
        | a :: as => some (a, as)
        | [] => none)
      (by rintro (_ | ⟨a, as⟩) <;> rfl)

/-! ## Which values are put down -/

section Encodes

variable {c : Codec σ α} {d : Codec σ β} {count : Codec σ ℕ} {flag : Codec σ Bool}
  {tag : Codec σ τ} {t₀ : τ}

theorem encode_lift {f : α → Option β} {g : β → Option α}
    {h : ∀ a b, g b = some a → f a = some b} (b : β) :
    (c.lift f g h).encode b = (g b).bind c.encode := rfl

@[simp] theorem encode_view {f : α → β} {g : β → α} {h : ∀ b, f (g b) = b} (b : β) :
    (c.view f g h).encode b = c.encode (g b) := rfl

theorem encode_pair (x : α × β) :
    (c.pair d).encode x = (c.encode x.1).bind fun u => (d.encode x.2).map (u ++ ·) := rfl

/-- Two values are put down if each is. -/
@[simp] theorem isSome_pair {x : α × β} :
    ((c.pair d).encode x).isSome ↔ (c.encode x.1).isSome ∧ (d.encode x.2).isSome := by
  rw [encode_pair]
  cases c.encode x.1 with
  | none => exact ⟨fun h => absurd h Bool.false_ne_true, fun h => absurd h.1 Bool.false_ne_true⟩
  | some u =>
    rw [Option.bind_some, Option.isSome_map]
    exact (and_iff_right rfl).symm

theorem encode_switch_taken [DecidableEq τ] (a : α) :
    (tag.switch t₀ c d).encode (.taken a)
      = (tag.encode t₀).bind fun u => (c.encode a).map (u ++ ·) := by
  show ((tag.encode t₀).bind fun u =>
    ((if t₀ = t₀ then c.left else d.right).encode (.inl a)).map (u ++ ·)) = _
  rw [if_pos rfl]
  rfl

theorem encode_switch_other [DecidableEq τ] {t : τ} (h : t ≠ t₀) (b : β) :
    (tag.switch t₀ c d).encode (.other t h b)
      = (tag.encode t).bind fun u => (d.encode b).map (u ++ ·) := by
  show ((tag.encode t).bind fun u =>
    ((if t = t₀ then c.left else d.right).encode (.inr b)).map (u ++ ·)) = _
  rw [if_neg h]
  rfl

theorem isSome_switch_taken [DecidableEq τ] {a : α} :
    ((tag.switch t₀ c d).encode (.taken a)).isSome
      ↔ (tag.encode t₀).isSome ∧ (c.encode a).isSome := by
  rw [encode_switch_taken]
  exact isSome_pair (x := (t₀, a))

theorem isSome_switch_other [DecidableEq τ] {t : τ} {h : t ≠ t₀} {b : β} :
    ((tag.switch t₀ c d).encode (.other t h b)).isSome
      ↔ (tag.encode t).isSome ∧ (d.encode b).isSome := by
  rw [encode_switch_other]
  exact isSome_pair (x := (t, b))

theorem encode_option_some (a : α) :
    (flag.option c).encode (some a) = (flag.encode true).bind fun u =>
      (c.encode a).map (u ++ ·) :=
  encode_switch_taken a

@[simp] theorem isSome_option_some {a : α} :
    ((flag.option c).encode (some a)).isSome ↔ (flag.encode true).isSome ∧ (c.encode a).isSome :=
  isSome_switch_taken

@[simp] theorem isSome_option_none :
    ((flag.option c).encode none).isSome ↔ (flag.encode false).isSome :=
  (isSome_switch_other (h := Bool.false_ne_true)).trans (and_iff_left rfl)

/-- So many values are put down if each is. -/
theorem isSome_exactly {n : ℕ} {as : List α} :
    ((c.exactly n).encode as).isSome ↔ as.length = n ∧ ∀ a ∈ as, (c.encode a).isSome := by
  induction n generalizing as with
  | zero =>
    show (Option.bind (if as = [] then some () else none) void.encode).isSome ↔ _
    split
    · next h =>
      subst h
      exact ⟨fun _ => ⟨rfl, fun _ ha => absurd ha List.not_mem_nil⟩, fun _ => rfl⟩
    · next h =>
      exact ⟨fun hs => absurd hs Bool.false_ne_true,
        fun hs => absurd (List.length_eq_zero_iff.mp hs.1) h⟩
  | succ n ih =>
    cases as with
    | nil =>
      exact ⟨fun h => absurd h Bool.false_ne_true, fun h => absurd h.1 (Nat.succ_ne_zero n).symm⟩
    | cons a as =>
      show ((c.pair (c.exactly n)).encode (a, as)).isSome ↔ _
      rw [isSome_pair, ih, List.length_cons, Nat.add_right_cancel_iff, List.forall_mem_cons]
      exact and_left_comm

end Encodes

/-! ## Values that say that there is one more -/

/-- **One codec does at least what the other does.** -/
structure Le (c c' : Codec σ α) : Prop where
  encode : ∀ {a w}, c.encode a = some w → c'.encode a = some w
  decode : ∀ {w x}, c.decode w = some x → c'.decode w = some x

section Linked

variable {c c' : Codec σ α} {d d' : Codec σ β} {flag : Codec σ Bool} {tag : Codec σ τ}

theorem Le.refl (c : Codec σ α) : Le c c := ⟨id, id⟩

theorem Le.trans {c'' : Codec σ α} (h : Le c c') (h' : Le c' c'') : Le c c'' :=
  ⟨fun ha => h'.encode (h.encode ha), fun hw => h'.decode (h.decode hw)⟩

theorem Le.lift (hc : Le c c') {f : α → Option β} {g : β → Option α}
    {h : ∀ a b, g b = some a → f a = some b} : Le (c.lift f g h) (c'.lift f g h) where
  encode := fun hb => by
    obtain ⟨a, ha, hw⟩ := Option.bind_eq_some_iff.mp hb
    exact Option.bind_eq_some_iff.mpr ⟨a, ha, hc.encode hw⟩
  decode := fun hw => by
    obtain ⟨x, hx, hw⟩ := Option.bind_eq_some_iff.mp hw
    exact Option.bind_eq_some_iff.mpr ⟨x, hc.decode hx, hw⟩

theorem Le.sigma {β : τ → Type*} {d d' : (t : τ) → Codec σ (β t)} (hd : ∀ t, Le (d t) (d' t)) :
    Le (tag.sigma d) (tag.sigma d') where
  encode := fun {x _} hx => by
    obtain ⟨u, hu, hx⟩ := Option.bind_eq_some_iff.mp hx
    obtain ⟨v, hv, hx⟩ := Option.map_eq_some_iff.mp hx
    exact Option.bind_eq_some_iff.mpr
      ⟨u, hu, Option.map_eq_some_iff.mpr ⟨v, (hd x.1).encode hv, hx⟩⟩
  decode := fun hw => by
    obtain ⟨x, hx, hw⟩ := Option.bind_eq_some_iff.mp hw
    obtain ⟨y, hy, hw⟩ := Option.map_eq_some_iff.mp hw
    exact Option.bind_eq_some_iff.mpr
      ⟨x, hx, Option.map_eq_some_iff.mpr ⟨y, (hd x.1).decode hy, hw⟩⟩

theorem Le.view (hc : Le c c') {f : α → β} {g : β → α} {h : ∀ b, f (g b) = b} :
    Le (c.view f g h) (c'.view f g h) := hc.lift

theorem Le.pair (hd : Le d d') : Le (c.pair d) (c.pair d') :=
  Le.view (Le.sigma fun _ => hd)

theorem Le.option (hc : Le c c') : Le (flag.option c) (flag.option c') := by
  refine Le.view (Le.lift (Le.sigma fun t => ?_))
  split
  · exact hc.lift
  · exact Le.refl _

theorem linkedBelow_le_succ (n : ℕ) : Le (linkedBelow flag c n) (linkedBelow flag c (n + 1)) := by
  induction n with
  | zero =>
    refine ⟨fun {a w} h => absurd h.symm (Option.some_ne_none _), fun {w x} h => ?_⟩
    exact absurd h.symm (Option.some_ne_none _)
  | succ n ih =>
    have hstep : Le (flag.option (c.pair (linkedBelow flag c n)))
        (flag.option (c.pair (linkedBelow flag c (n + 1)))) := ih.pair.option
    exact hstep.view

theorem linkedBelow_le {n m : ℕ} (h : n ≤ m) :
    Le (linkedBelow flag c n) (linkedBelow flag c m) := by
  induction h with
  | refl => exact Le.refl _
  | step _ ih => exact ih.trans (linkedBelow_le_succ _)

/-- Each value takes a symbol at least, that of its flag. -/
theorem length_le_of_linkedBelow (hflag : flag.encode true ≠ some []) {n : ℕ} {as : List α}
    {w : List σ} (h : (linkedBelow flag c n).encode as = some w) : as.length ≤ w.length := by
  induction n generalizing as w with
  | zero => exact absurd h.symm (Option.some_ne_none _)
  | succ n ih =>
    cases as with
    | nil => exact Nat.zero_le _
    | cons a as =>
      have hsome : (flag.option (c.pair (linkedBelow flag c n))).encode (some (a, as)) = some w := h
      rw [encode_option_some] at hsome
      obtain ⟨u, hu, hsome⟩ := Option.bind_eq_some_iff.mp hsome
      obtain ⟨v, hv, rfl⟩ := Option.map_eq_some_iff.mp hsome
      rw [encode_pair] at hv
      obtain ⟨v₁, hv₁, hv⟩ := Option.bind_eq_some_iff.mp hv
      obtain ⟨v₂, hv₂, rfl⟩ := Option.map_eq_some_iff.mp hv
      have hne : u ≠ [] := fun hnil => hflag (hnil ▸ hu)
      have hlen := List.length_pos_iff.mpr hne
      have hrest : as.length ≤ v₂.length := ih hv₂
      simp only [List.length_cons, List.length_append]
      omega

/-- **Values each behind a flag** that says that there is one more. As each takes a symbol,
there are no more of them than symbols. -/
def linked (flag : Codec σ Bool) (hflag : flag.encode true ≠ some []) (c : Codec σ α) :
    Codec σ (List α) where
  encode as := (linkedBelow flag c (as.length + 1)).encode as
  decode w := (linkedBelow flag c (w.length + 1)).decode w
  decode_encode := by
    intro as w h rest
    have hlen := length_le_of_linkedBelow hflag h
    have hle : as.length + 1 ≤ (w ++ rest).length + 1 := by
      rw [List.length_append]
      omega
    exact (linkedBelow_le hle).decode ((linkedBelow flag c _).decode_encode h rest)
  decode_append := by
    intro w as rest h more
    have hle : w.length + 1 ≤ (w ++ more).length + 1 := by
      rw [List.length_append]
      omega
    exact (linkedBelow_le hle).decode ((linkedBelow flag c _).decode_append h more)

theorem isSome_linkedBelow (htrue : (flag.encode true).isSome) (hfalse : (flag.encode false).isSome)
    {n : ℕ} {as : List α} (hn : as.length < n) :
    ((linkedBelow flag c n).encode as).isSome ↔ ∀ a ∈ as, (c.encode a).isSome := by
  induction as generalizing n with
  | nil =>
    obtain _ | n := n
    · exact absurd hn (Nat.not_lt_zero _)
    · refine ⟨fun _ _ ha => absurd ha List.not_mem_nil, fun _ => ?_⟩
      exact isSome_option_none.mpr hfalse
  | cons a as ih =>
    obtain _ | n := n
    · exact absurd hn (Nat.not_lt_zero _)
    · have hn' : as.length < n := Nat.lt_of_succ_lt_succ hn
      show ((flag.option (c.pair (linkedBelow flag c n))).encode (some (a, as))).isSome ↔ _
      rw [isSome_option_some, isSome_pair, ih hn', List.forall_mem_cons, and_iff_right htrue]

/-- Such values are put down if each is. -/
theorem isSome_linked {hflag : flag.encode true ≠ some []} (htrue : (flag.encode true).isSome)
    (hfalse : (flag.encode false).isSome) {as : List α} :
    ((linked flag hflag c).encode as).isSome ↔ ∀ a ∈ as, (c.encode a).isSome := by
  show ((linkedBelow flag c (as.length + 1)).encode as).isSome ↔ _
  exact isSome_linkedBelow htrue hfalse (Nat.lt_succ_self _)

end Linked

/-! ## Numbers -/

/-- A byte that counts `m` times, before a number that is smaller than `m`. -/
def digit (m : ℕ) (c : Codec UInt8 ℕ) : Codec UInt8 ℕ :=
  (symbol.pair c).lift (fun x => some (x.1.toNat * m + x.2))
    (fun n => if n < m * 256 then some (UInt8.ofNat (n / m), n % m) else none)
    fun x n h => by
      split at h
      · next hn =>
        obtain rfl := Option.some.inj h
        have hlt : n / m < 256 := Nat.div_lt_of_lt_mul hn
        show some ((UInt8.ofNat (n / m)).toNat * m + n % m) = some n
        rw [UInt8.toNat_ofNat_of_lt' hlt, Nat.div_add_mod']
      · exact absurd h.symm (Option.some_ne_none _)

/-- **A number in so many bytes**, the first of which counts most. -/
def bigEndian : ℕ → Codec UInt8 ℕ
  | 0 => void.lift (fun _ => some 0) (fun n => if n = 0 then some () else none) fun _ _ h => by
      split at h
      · next hn => rw [hn]
      · exact absurd h.symm (Option.some_ne_none _)
  | k + 1 => digit (256 ^ k) (bigEndian k)

/-- A number is put down if it fits. -/
theorem isSome_bigEndian {k n : ℕ} : ((bigEndian k).encode n).isSome ↔ n < 256 ^ k := by
  induction k generalizing n with
  | zero =>
    show (Option.bind (if n = 0 then some () else none) void.encode).isSome ↔ _
    split
    · next h => exact ⟨fun _ => by rw [h]; exact Nat.one_pos, fun _ => rfl⟩
    · next h =>
      exact ⟨fun hs => absurd hs Bool.false_ne_true, fun hs => absurd (Nat.lt_one_iff.mp hs) h⟩
  | succ k ih =>
    rw [bigEndian, digit, encode_lift, Nat.pow_succ]
    split
    · next h =>
      refine ⟨fun _ => h, fun _ => ?_⟩
      rw [Option.bind_some, isSome_pair]
      exact ⟨rfl, ih.mpr (Nat.mod_lt _ (Nat.pow_pos (by decide)))⟩
    · next h => exact ⟨fun hs => absurd hs Bool.false_ne_true, fun hs => absurd hs h⟩

end Codec
