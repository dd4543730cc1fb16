import LLPFilesystem.NfsCalls
import Mathlib.Data.List.Infix

/-!
# Reading a file from its start to its end

A client that wants a whole file sends one `READ` after the other, each at the offset
where the last one ended, and stops at the first reply that says `eof`. The server says
`eof` whenever no byte was read. That is so at the end of the file, and it is so when
no byte was asked for.

What the client has received is a prefix of the file at every point
(`received_reading`), each request for some bytes that the server survives brings it further
or to the end, and so it stops with the whole file exactly if it asks for no bytes at all only
when none remain, and never with a handle that the server cannot put a zero behind
(`reading_reconstructs_iff`).
-/

namespace Nfs

open Text

variable {b : ℕ → Backing} {s : ℕ → Statics} {file content : List UInt8} {counts : ℕ → ℕ}
  {n m offset count : ℕ}

/-- **A readable file**: it can be opened, memory is there, and reading so many bytes
delivers its bytes – at least one if one is asked for and remains. -/
structure Readable (b : Backing) (path content : List UInt8) (count : ℕ) : Prop where
  size : content.length < 2 ^ 63
  opens : b.open' path = true
  seeks : ∀ offset : ℕ, offset ≤ content.length → b.lseek path offset = true
  allocates : ∀ n ≤ count, b.malloc n = true
  reads : ∀ offset : ℕ, offset ≤ content.length → ∃ bytes,
    b.pread path offset count = some bytes ∧ bytes <+: content.drop offset
    ∧ (0 < count → offset < content.length → bytes ≠ [])

/-! ## The client -/

/-- **A client** that reads a file: where it is, what it has received, and whether it
has stopped. -/
structure Reader where
  offset : ℕ := 0
  received : List UInt8 := []
  stopped : Bool := false

/-- What the client makes of what it is told. It goes on after the bytes it has got, and
stops when it is told that there are no more. -/
def Reader.hear (x : Reader) (told : Option (Procedure.Result .read)) : Reader :=
  if x.stopped then x
  else
    match told with
    | some (.taken r) =>
      { offset := x.offset + r.count
        received := x.received ++ r.data
        stopped := r.eof }
    | _ => x

/-- **The client after some requests.** The `n`-th asks for `counts n` bytes, and is
served by whatever stands behind the server then, in whatever state earlier calls have
left it. -/
def reading (b : ℕ → Backing) (s : ℕ → Statics) (file : List UInt8) (counts : ℕ → ℕ) :
    ℕ → Reader
  | 0 => {}
  | n + 1 =>
    (reading b s file counts n).hear
      (ask (b n) (s n) .read ⟨file, (reading b s file counts n).offset, counts n⟩)

/-- **The reading reconstructs the file**: the client stops, it has the bytes of the file
then, and each reply before that is a success that carries as many bytes as it says,
no more than were asked for, and says `eof` only if no bytes remain. -/
structure Reconstructs (b : ℕ → Backing) (s : ℕ → Statics) (file content : List UInt8)
    (counts : ℕ → ℕ) : Prop where
  stops : ∃ n, (reading b s file counts n).stopped = true
  received : ∀ n, (reading b s file counts n).stopped = true →
    (reading b s file counts n).received = content
  replies : ∀ n, (reading b s file counts n).stopped = false → ∃ r,
    ask (b n) (s n) .read ⟨file, (reading b s file counts n).offset, counts n⟩
      = some (.taken r)
    ∧ r.data.length = r.count ∧ r.count ≤ counts n
    ∧ (r.eof = true → content.length ≤ (reading b s file counts n).offset)

/-! ## One reply -/

/-- An offset that fits is the offset the server reads at. -/
theorem toInt_offset (h : offset < 2 ^ 63) : (BitVec.ofNat 64 offset).toInt = offset := by
  rw [BitVec.toInt_ofNat']
  exact Int.bmod_eq_of_le_mul_two (by omega) (by omega)

/-- **What a `READ` is told**, inside a readable file or at its end: what has been read,
and `eof` if that is nothing. -/
theorem ask_read {b : Backing} {s : Statics} (hs : s.Reached) (hfile : file.length ≤ nfs3Fhsize)
    (hterm : b.Terminates file) (hb : Readable b (pathOf file) content count)
    (hoffset : offset ≤ content.length) (hcount : count < 2 ^ 32) :
    ∃ bytes, bytes <+: content.drop offset ∧ bytes.length ≤ count
      ∧ (0 < count → offset < content.length → bytes ≠ [])
      ∧ ask b s .read ⟨file, offset, count⟩
        = some (.taken ⟨none, bytes.length, bytes.isEmpty, bytes⟩) := by
  obtain ⟨bytes, hread, hprefix, hne⟩ := hb.reads offset hoffset
  have hlen : bytes.length ≤ count := b.pread_le _ _ _ _ hread
  have hlt : offset < 2 ^ 63 := hoffset.trans_lt hb.size
  have hresult : (dispatch b s (.read file offset count)).read
      = ⟨nfs3Ok, {}, bytes.length, bytes.isEmpty, bytes⟩ := by
    show nfsproc3Read3Svc b file offset count s.read = _
    unfold nfsproc3Read3Svc fillREAD3resStream
    rw [toInt_offset hlt, if_pos hb.opens, if_pos (hb.seeks offset hoffset),
      if_pos (hb.allocates count (Nat.le_refl _)), hread, hs.regular.read.fileAttributes]
    cases bytes with
    | nil => rfl
    | cons byte bytes => exact if_pos (hb.allocates _ hlen)
  have hargs := isSome_readArgs hfile (hlt.trans (by norm_num)) hcount
  refine ⟨bytes, hprefix, hlen, hne, (ask_eq_some_iff hs.regular hargs).mpr ⟨hterm, ?_, ?_⟩⟩
  · show (dispatch b s (.read file offset count)).read.Fits
    rw [hresult]
    exact fun _ => hlen.trans_lt hcount
  · show (dispatch b s (.read file offset count)).read.shown = _
    rw [hresult]
    rfl

/-- A client that is told something has a server that survives the handle. -/
theorem terminates_of_ask {b : Backing} {s : Statics} (hs : s.Reached)
    {told : Procedure.Result .read} (h : ask b s .read ⟨file, offset, count⟩ = some told) :
    b.Terminates file := by
  obtain ⟨packet, hpacket, -⟩ := Option.bind_eq_some_iff.mp h
  exact ((ask_eq_some_iff hs.regular (Option.isSome_of_eq_some hpacket)).mp h).1

/-! ## The run -/

/-- A client that has stopped does nothing more. -/
theorem reading_succ_of_stopped (h : (reading b s file counts n).stopped = true) :
    reading b s file counts (n + 1) = reading b s file counts n := if_pos h

section Run

variable (hs : ∀ n, (s n).Reached) (hfile : file.length ≤ nfs3Fhsize)
  (hb : ∀ n, Readable (b n) (pathOf file) content (counts n)) (hlt : ∀ n, counts n < 2 ^ 32)

include hs

/-- A client that is told nothing is where it was. -/
theorem reading_succ_of_not_terminates (h : ¬ (b n).Terminates file) :
    reading b s file counts (n + 1) = reading b s file counts n := by
  have hnone : ask (b n) (s n) .read ⟨file, (reading b s file counts n).offset, counts n⟩ = none :=
    Option.eq_none_iff_forall_ne_some.mpr fun _ htold => h (terminates_of_ask (hs n) htold)
  rw [reading, hnone]
  unfold Reader.hear
  split <;> rfl

include hfile hb hlt

/-- **One request**: the client appends what has been read, which are the next bytes of
the file, and stops if there were none. -/
theorem reading_succ (hterm : (b n).Terminates file)
    (hoffset : (reading b s file counts n).offset ≤ content.length)
    (h : (reading b s file counts n).stopped = false) :
    ∃ bytes, bytes <+: content.drop (reading b s file counts n).offset
      ∧ (0 < counts n → (reading b s file counts n).offset < content.length → bytes ≠ [])
      ∧ (counts n = 0 → bytes = [])
      ∧ reading b s file counts (n + 1)
        = ⟨(reading b s file counts n).offset + bytes.length,
          (reading b s file counts n).received ++ bytes, bytes.isEmpty⟩ := by
  obtain ⟨bytes, hprefix, hcount, hne, htold⟩ :=
    ask_read (hs n) hfile hterm (hb n) hoffset (hlt n)
  refine ⟨bytes, hprefix, hne, fun h0 => ?_, ?_⟩
  · exact List.eq_nil_of_length_eq_zero (Nat.le_zero.mp (h0 ▸ hcount))
  · rw [reading, htold, Reader.hear, h]
    rfl

/-- **The client has received a prefix of the file** at every point, up to its
offset. -/
theorem received_reading (n : ℕ) :
    (reading b s file counts n).offset ≤ content.length
      ∧ (reading b s file counts n).received
        = content.take (reading b s file counts n).offset := by
  induction n with
  | zero => exact ⟨Nat.zero_le _, rfl⟩
  | succ n ih =>
    obtain ⟨hoffset, hreceived⟩ := ih
    by_cases h : (reading b s file counts n).stopped = true
    · rw [reading_succ_of_stopped h]
      exact ⟨hoffset, hreceived⟩
    by_cases hterm : (b n).Terminates file
    · obtain ⟨bytes, ⟨rest, hrest⟩, -, -, hsucc⟩ :=
        reading_succ hs hfile hb hlt hterm hoffset (Bool.eq_false_iff.mpr h)
      have hsplit : content = content.take (reading b s file counts n).offset
          ++ (bytes ++ rest) := by rw [hrest, List.take_append_drop]
      have hlen : (content.take (reading b s file counts n).offset).length
          = (reading b s file counts n).offset := List.length_take_of_le hoffset
      rw [hsucc]
      constructor
      · show _ + bytes.length ≤ content.length
        rw [hsplit, List.length_append, List.length_append, hlen]
        exact Nat.add_le_add_left (Nat.le_add_right _ _) _
      · show _ ++ bytes = _
        rw [hreceived]
        conv_rhs => rw [hsplit]
        rw [← List.append_assoc, List.take_left' (by rw [List.length_append, hlen])]
    · rw [reading_succ_of_not_terminates hs hterm]
      exact ⟨hoffset, hreceived⟩

omit hs hfile hb hlt in
/-- The client never goes back. -/
theorem offset_reading_mono (h : n ≤ m) :
    (reading b s file counts n).offset ≤ (reading b s file counts m).offset := by
  induction m, h using Nat.le_induction with
  | base => exact Nat.le_refl _
  | succ m _ ih =>
    refine Nat.le_trans ih ?_
    show _ ≤ (Reader.hear _ _).offset
    unfold Reader.hear
    split
    · exact Nat.le_refl _
    · split
      · exact Nat.le_add_right _ _
      · exact Nat.le_refl _

/-- **The client gets on**: for any offset it either stops or comes so far. -/
theorem exists_offset_le
    (hterm : ∀ n, (reading b s file counts n).stopped = false → (b n).Terminates file)
    (hcounts : ∀ N, ∃ n, N ≤ n ∧ 0 < counts n) (offset : ℕ) :
    ∃ n, (reading b s file counts n).stopped = true
      ∨ offset ≤ (reading b s file counts n).offset := by
  induction offset with
  | zero => exact ⟨0, .inr (Nat.zero_le _)⟩
  | succ offset ih =>
    obtain ⟨N, hstop | hN⟩ := ih
    · exact ⟨N, .inl hstop⟩
    · obtain ⟨n, hn, hcount⟩ := hcounts N
      by_cases h : (reading b s file counts n).stopped = true
      · exact ⟨n, .inl h⟩
      · have hgo := Bool.eq_false_iff.mpr h
        obtain ⟨bytes, -, -, -, hsucc⟩ := reading_succ hs hfile hb hlt (hterm n hgo)
          (received_reading hs hfile hb hlt n).1 hgo
        refine ⟨n + 1, ?_⟩
        rw [hsucc]
        cases bytes with
        | nil => exact .inl rfl
        | cons byte bytes =>
          right
          show offset + 1 ≤ _ + (bytes.length + 1)
          exact Nat.add_le_add (Nat.le_trans hN (offset_reading_mono hn)) (Nat.le_add_left _ _)

/-- A client that asks for some bytes again and again stops. -/
theorem exists_stopped
    (hterm : ∀ n, (reading b s file counts n).stopped = false → (b n).Terminates file)
    (hcounts : ∀ N, ∃ n, N ≤ n ∧ 0 < counts n) :
    ∃ n, (reading b s file counts n).stopped = true := by
  obtain ⟨n, hstop | hle⟩ :=
    exists_offset_le hs hfile hb hlt hterm hcounts (content.length + 1)
  · exact ⟨n, hstop⟩
  · exact absurd (Nat.le_trans hle (received_reading hs hfile hb hlt n).1)
      (Nat.not_succ_le_self _)

/-- If no empty request is made while bytes remain, the client stops at the end of the
file only. -/
theorem offset_of_stopped
    (hzero : ∀ n, (reading b s file counts n).stopped = false → counts n = 0 →
      content.length ≤ (reading b s file counts n).offset)
    (hstop : (reading b s file counts n).stopped = true) :
    content.length ≤ (reading b s file counts n).offset := by
  induction n with
  | zero => exact absurd hstop Bool.false_ne_true
  | succ n ih =>
    by_cases h : (reading b s file counts n).stopped = true
    · rw [reading_succ_of_stopped h]
      exact ih h
    have hgo := Bool.eq_false_iff.mpr h
    by_cases hterm : (b n).Terminates file
    · obtain ⟨bytes, -, hne, -, hsucc⟩ := reading_succ hs hfile hb hlt hterm
        (received_reading hs hfile hb hlt n).1 hgo
      rw [hsucc] at hstop ⊢
      have hnil : bytes = [] := List.isEmpty_iff.mp hstop
      refine Nat.le_trans ?_ (Nat.le_add_right _ _)
      by_contra hlt'
      have hpos : 0 < counts n := Nat.pos_of_ne_zero fun h0 => hlt' (hzero n hgo h0)
      exact hne hpos (Nat.lt_of_not_le hlt') hnil
    · rw [reading_succ_of_not_terminates hs hterm] at hstop
      exact absurd hstop h

/-- **When a file is read as it is.** For a readable file of any length, any sequence of
counts with infinitely many positive ones, and any short reads, a sequential reading
reconstructs the file exactly if, until the client stops, the server can put a zero behind
the handle, and no request for zero bytes is made while bytes remain. -/
theorem reading_reconstructs_iff (hcounts : ∀ N, ∃ n, N ≤ n ∧ 0 < counts n) :
    Reconstructs b s file content counts
      ↔ ∀ n, (reading b s file counts n).stopped = false → (b n).Terminates file
        ∧ (counts n = 0 → content.length ≤ (reading b s file counts n).offset) := by
  constructor
  · intro h n hgo
    obtain ⟨r, htold, -, -, -⟩ := h.replies n hgo
    have hterm := terminates_of_ask (hs n) htold
    refine ⟨hterm, fun h0 => ?_⟩
    have hoffset : (reading b s file counts n).offset ≤ content.length ∧ _ :=
      received_reading hs hfile hb hlt n
    -- the reply to the empty request says that the file ends here
    obtain ⟨bytes, -, -, hnil, hsucc⟩ := reading_succ hs hfile hb hlt hterm hoffset.1 hgo
    obtain rfl := hnil h0
    have hdone : (reading b s file counts (n + 1)).stopped = true := by
      rw [hsucc]
      rfl
    have hreceived := h.received (n + 1) hdone
    rw [hsucc] at hreceived
    have hall : content.take (reading b s file counts n).offset = content :=
      hoffset.2.symm.trans ((List.append_nil _).symm.trans hreceived)
    have hlen := congrArg List.length hall
    rw [List.length_take_of_le hoffset.1] at hlen
    exact Nat.le_of_eq hlen.symm
  · intro h
    refine ⟨exists_stopped hs hfile hb hlt (fun n hgo => (h n hgo).1) hcounts,
      fun n hstop => ?_, fun n hgo => ?_⟩
    · rw [(received_reading hs hfile hb hlt n).2]
      exact List.take_of_length_le
        (offset_of_stopped hs hfile hb hlt (fun n hgo => (h n hgo).2) hstop)
    · obtain ⟨bytes, -, hcount, hne, htold⟩ := ask_read (hs n) hfile (h n hgo).1 (hb n)
        (received_reading hs hfile hb hlt n).1 (hlt n)
      refine ⟨_, htold, rfl, hcount, fun heof => ?_⟩
      have hnil : bytes = [] := List.isEmpty_iff.mp heof
      by_contra hlt'
      exact hne (Nat.pos_of_ne_zero fun h0 => hlt' ((h n hgo).2 h0)) (Nat.lt_of_not_le hlt') hnil

end Run

/-! ## A file of three bytes -/

/-- A file system with one file, which is always read as far as asked for. -/
def holding (path content : List UInt8) : Backing :=
  { nowhere with
    open' := fun p => p = path
    lseek := fun _ offset => 0 ≤ offset
    pread := fun _ offset count => some ((content.drop offset.toNat).take count)
    pread_le := fun _ _ _ _ h => Option.some.inj h ▸ List.length_take_le _ _ }

theorem readable_holding {path : List UInt8} (h : content.length < 2 ^ 63) :
    Readable (holding path content) path content count where
  size := h
  opens := decide_eq_true rfl
  seeks offset _ := decide_eq_true (Int.natCast_nonneg offset)
  allocates _ _ := rfl
  reads offset _ := by
    refine ⟨(content.drop offset).take count, rfl, List.take_prefix _ _,
      fun hcount hoffset hnil => ?_⟩
    rcases List.take_eq_nil_iff.mp hnil with h0 | hdrop
    · exact absurd h0 (Nat.ne_of_gt hcount)
    · exact absurd (List.drop_eq_nil_iff.mp hdrop) (Nat.not_le_of_lt hoffset)

/-- Two bytes at a time. -/
theorem reading_reconstructs_abc :
    Reconstructs (fun _ => holding (ascii "/f") (ascii "abc")) (fun _ => {}) (ascii "/f")
      (ascii "abc") (fun _ => 2) := by
  have hb : ∀ n : ℕ, Readable ((fun _ => holding (ascii "/f") (ascii "abc")) n)
      (pathOf (ascii "/f")) (ascii "abc") ((fun _ => 2) n) := fun _ => readable_holding (by decide)
  refine (reading_reconstructs_iff (fun _ => Statics.reached_zero) (by decide) hb
    (fun _ => show 2 < 2 ^ 32 by decide) (fun N => ⟨N, Nat.le_refl N, ?_⟩)).mpr
    fun _ _ => ⟨by decide, fun h => absurd h (by decide)⟩
  show 0 < 2
  decide

/-- **A first request for nothing.** The reply says `eof` at the start of a file of
three bytes, and the client stops with none of them. -/
theorem reading_stops_at_once :
    (∀ count, Readable (holding (ascii "/f") (ascii "abc")) (pathOf (ascii "/f")) (ascii "abc")
      count)
    ∧ ask (holding (ascii "/f") (ascii "abc")) {} .read ⟨ascii "/f", 0, 0⟩
      = some (.taken ⟨none, 0, true, []⟩)
    ∧ ¬ Reconstructs (fun _ => holding (ascii "/f") (ascii "abc")) (fun _ => {}) (ascii "/f")
        (ascii "abc") (fun n => if n = 0 then 0 else 3) := by
  refine ⟨fun _ => readable_holding (by decide), by decide, fun h => ?_⟩
  exact absurd (h.received 1 (by decide)) (by decide)

end Nfs
