import LLPFilesystem.FatInsert
import LLPFilesystem.FatOneFile
import LLPFilesystem.FatRefusal

/-!
# Reads that fail

A cluster is read by one function, which compares what `pread` returned with what was
asked for, and all who call it assert that it was not less. A short read is noticed so.
But the two are compared as `unsigned int`s, and `-1` is the largest of these: a failed
read passes for a whole one, and the buffer keeps what it held.

A run is followed read by read (`Watched`): a read is full, or it is short and the run
stops there, or it fails and the run goes on. So no failed read is taken for data exactly
if none fails (`failed_reads_heeded_iff`).
-/

namespace Fat

variable {env : Env} {s t : Server} {c d k n size : ℕ} {l : List ℕ} {α β : Type}
  {sizes : ℕ → ℕ} {o : Outcome Fault Server α} {buf : Buf}

/-! ## What is read -/

/-- The bytes that the rounds of the reading loop ask for, the first of them from within
a cluster. -/
def pieceSize (bytePerCluster : ℕ) : ℕ → ℕ → ℕ → ℕ
  | within, remaining, 0 => min remaining (bytePerCluster - within)
  | within, remaining, k + 1 =>
    pieceSize bytePerCluster 0 (remaining - min remaining (bytePerCluster - within)) k

/-- **The functions that read clusters.** -/
inductive Reading : Type → Type where
  | find (clusterNum : ℕ) (name : List UInt8) : Reading (Option FatDirEntry)
  | update (clusterNum : ℕ) (dirEntry : FatDirEntry) (remove : Bool) : Reading ℤ
  | add (clusterNum : ℕ) (dirName : List UInt8) (firstClusterNum : ℕ) (type : UInt16) :
    Reading ℤ
  | isEmpty (clusterNum : ℕ) : Reading Bool
  | list (clusterNum offset : ℕ) (filler : Filler) : Reading (List Listed)
  | read (dirEntry : FatDirEntry) (buf : Buf) (size offset : ℕ) : Reading (ℤ × Buf)
  | modify (cluster : Buf) (clusterNum offset : ℕ) (src : Buf) (n : ℕ) : Reading Buf

namespace Reading

/-- The function as a program. -/
def prog : {α : Type} → Reading α → FatM α
  | _, .find c name => findDirEntryByName c name
  | _, .update c e remove => updateDirEntry c e remove
  | _, .add c name first type => addDirEntryToCluster c name first type
  | _, .isEmpty c => isDirEmpty c
  | _, .list c offset filler => readDirEntries c offset filler
  | _, .read e buf size offset => readFile e buf size offset
  | _, .modify cluster c offset src n => modifyCluster cluster c offset src n

/-- How many bytes its reads ask for. -/
def request (s : Server) : {α : Type} → Reading α → ℕ → ℕ
  | _, .read e _ size offset =>
    pieceSize s.superblock.bytePerCluster (u32 offset % s.superblock.bytePerCluster)
      (min (sub32 e.size.toNat (u32 offset)) (u32 size))
  | _, _ => fun _ => s.superblock.bytePerCluster

/-- What the callers promise: a directory is a chain of data clusters, and so is a
file. -/
def Sound (s : Server) : {α : Type} → Reading α → Prop
  | _, .find c _ | _, .update c _ _ | _, .add c _ _ _ | _, .isEmpty c =>
    ∃ l, l ≠ [] ∧ s.Chain c l
  | _, .list c _ _ => ∃ l, s.Chain c l
  | _, .read e _ _ _ => ∃ l, s.Chain e.firstCluster.toNat l
  | _, .modify _ c _ _ _ => s.superblock.IsData c

end Reading

/-- The server after one more read. -/
def Server.readOnce (s : Server) : Server := { s with preads := s.preads + 1 }

/-- **No failed read is taken for data**: after the first read that does not deliver all
that was asked for, the run stops with a failed assertion, and nothing has been written. -/
def Heeds (env : Env) (o : Outcome Fault Server α) (sizes : ℕ → ℕ) (s : Server) : Prop :=
  ∀ k, s.preads + k < o.state.preads → (env.pread (s.preads + k)).moved (sizes k) < sizes k →
    o = .stop .assertion { s with preads := s.preads + k + 1 }

/-- None of the reads that a run makes fails. -/
def NoneFails (env : Env) (o : Outcome Fault Server α) (s : Server) : Prop :=
  ∀ k, s.preads + k < o.state.preads → env.pread (s.preads + k) ≠ .failed

/-! ## A run, read by read -/

theorem Server.readOnce_add (s : Server) (k : ℕ) :
    s.readOnce.preads + k = s.preads + (k + 1) := Nat.succ_add_eq_add_succ s.preads k

theorem Heeds.rest (h : Heeds env o sizes s) :
    Heeds env o (fun k => sizes (k + 1)) s.readOnce := by
  intro k hk hlt
  rw [s.readOnce_add] at hk hlt ⊢
  exact h (k + 1) hk hlt

theorem Heeds.of_rest (h : (env.pread s.preads).moved (sizes 0) = sizes 0)
    (hrest : Heeds env o (fun k => sizes (k + 1)) s.readOnce) : Heeds env o sizes s := by
  intro k hk hlt
  cases k with
  | zero => exact absurd h (Nat.ne_of_lt hlt)
  | succ k =>
    rw [← s.readOnce_add] at hk hlt ⊢
    exact hrest k hk hlt

theorem NoneFails.rest (h : NoneFails env o s) : NoneFails env o s.readOnce := by
  intro k hk
  rw [s.readOnce_add] at hk ⊢
  exact h (k + 1) hk

theorem NoneFails.of_rest (h : env.pread s.preads ≠ .failed)
    (hrest : NoneFails env o s.readOnce) : NoneFails env o s := by
  intro k hk
  cases k with
  | zero => exact h
  | succ k =>
    rw [← s.readOnce_add] at hk ⊢
    exact hrest k hk

/-- **A run as its reads**: it makes no more of them, or the next one is short and stops
it, or is full, or fails – and then does not stop it. -/
inductive Watched (env : Env) (o : Outcome Fault Server α) : (ℕ → ℕ) → Server → Prop where
  | done {sizes : ℕ → ℕ} {s : Server} (h : o.state.preads = s.preads) : Watched env o sizes s
  | short {sizes : ℕ → ℕ} {s : Server} (hne : env.pread s.preads ≠ .failed)
    (h : o = .stop .assertion s.readOnce) : Watched env o sizes s
  | full {sizes : ℕ → ℕ} {s : Server} (hne : env.pread s.preads ≠ .failed)
    (h : (env.pread s.preads).moved (sizes 0) = sizes 0)
    (hrest : Watched env o (fun k => sizes (k + 1)) s.readOnce) : Watched env o sizes s
  | failed {sizes : ℕ → ℕ} {s : Server} (h : env.pread s.preads = .failed)
    (hpos : 0 < sizes 0) (hne : o ≠ .stop .assertion s.readOnce)
    (hrest : Watched env o (fun k => sizes (k + 1)) s.readOnce) : Watched env o sizes s

namespace Watched

/-- A run does not unmake reads. -/
theorem le (h : Watched env o sizes s) : s.preads ≤ o.state.preads := by
  induction h with
  | done h => exact Nat.le_of_eq h.symm
  | short _ h =>
    rw [h]
    exact Nat.le_succ _
  | full _ _ _ ih => exact Nat.le_of_succ_le ih
  | failed _ _ _ _ ih => exact Nat.le_of_succ_le ih

/-- No read is left. -/
theorem not_lt (h : o.state.preads = s.preads) : ¬ s.preads + k < o.state.preads := by
  rw [h]
  exact Nat.not_lt_of_le (Nat.le_add_right _ _)

/-- The read that stops the run is the next one. -/
theorem eq_zero (h : o = .stop .assertion s.readOnce) (hk : s.preads + k < o.state.preads) :
    k = 0 := by
  rw [h] at hk
  exact Nat.le_zero.mp (Nat.le_of_add_le_add_left (Nat.le_of_lt_succ hk))

/-- A run that reads does not stop before. -/
theorem ne_stop (h : Watched env o sizes s.readOnce) {f : Fault} : o ≠ .stop f s := by
  intro heq
  have hle := h.le
  rw [heq] at hle
  exact absurd hle (Nat.not_succ_le_self _)

/-- A run with another value at its end makes the same reads. -/
theorem map {o' : Outcome Fault Server β} (h : Watched env o sizes s)
    (hstate : o'.state = o.state) (hstop : ∀ t, o' = .stop .assertion t ↔ o = .stop .assertion t) :
    Watched env o' sizes s := by
  induction h with
  | done h => exact .done (hstate ▸ h)
  | short hne h => exact .short hne ((hstop _).mpr h)
  | full hne h _ ih => exact .full hne h ih
  | failed h hpos hne _ ih => exact .failed h hpos (fun heq => hne ((hstop _).mp heq)) ih

/-- **If no read fails**, the first short one stops the run. -/
theorem heeds (h : Watched env o sizes s) (hnone : NoneFails env o s) :
    Heeds env o sizes s := by
  induction h with
  | done h => exact fun k hk => absurd hk (not_lt h)
  | short _ h =>
    intro k hk _
    obtain rfl := eq_zero h hk
    exact h
  | full _ hfull _ ih => exact .of_rest hfull (ih hnone.rest)
  | failed h _ _ hrest _ => exact absurd h (hnone 0 hrest.le)

/-- **A failed read is taken for data**, wherever it comes in the run. -/
theorem noneFails (h : Watched env o sizes s) (hheeds : Heeds env o sizes s) :
    NoneFails env o s := by
  induction h with
  | done h => exact fun k hk => absurd hk (not_lt h)
  | short hne h =>
    intro k hk
    obtain rfl := eq_zero h hk
    exact hne
  | full hne _ _ ih => exact .of_rest hne (ih hheeds.rest)
  | @failed sizes s h hpos hne hrest _ =>
    refine absurd (hheeds 0 hrest.le ?_) hne
    show (env.pread s.preads).moved (sizes 0) < sizes 0
    rw [h]
    exact hpos

end Watched

/-! ## One read -/

/-- **A read of a cluster** is short, and the status says so; or it is full; or it fails,
and the status does not say so, and the buffer is what it was. -/
theorem readClusterFromDisk_cases (env : Env) (hg : s.superblock.Geometry)
    (hc : c < s.superblock.clusterCount) (hn : n ≤ s.superblock.bytePerCluster) (buf : Buf) :
    (env.pread s.preads ≠ .failed
        ∧ ∃ buf', (readClusterFromDisk buf c 0 n).run env s = .ok (-1, buf') s.readOnce)
      ∨ (env.pread s.preads ≠ .failed ∧ (env.pread s.preads).moved n = n
        ∧ ∃ buf', (readClusterFromDisk buf c 0 n).run env s = .ok (0, buf') s.readOnce)
      ∨ (env.pread s.preads = .failed
        ∧ (readClusterFromDisk buf c 0 n).run env s = .ok (0, buf) s.readOnce) := by
  have hb := hg.bytePerCluster_lt
  have hrun : (readClusterFromDisk buf c 0 n).run env s = _ :=
    readClusterFromDisk_run hg hc (Nat.le_trans (Nat.le_of_eq (Nat.zero_add n)) hn)
  cases ht : env.pread s.preads with
  | full =>
    rw [ht, if_neg (by simp only [Transfer.result, u32OfInt]; omega)] at hrun
    exact .inr (.inl ⟨nofun, rfl, _, hrun⟩)
  | short m =>
    rw [ht] at hrun
    by_cases hm : m < n
    · rw [if_pos (by simp only [Transfer.result, u32OfInt]; omega)] at hrun
      exact .inl ⟨nofun, _, hrun⟩
    · rw [if_neg (by simp only [Transfer.result, u32OfInt]; omega)] at hrun
      exact .inr (.inl ⟨nofun, Nat.min_eq_right (Nat.le_of_not_lt hm), _, hrun⟩)
  | failed =>
    rw [ht, if_neg (by simp only [Transfer.result, u32OfInt]; omega)] at hrun
    rw [show (Transfer.failed).moved n = 0 from rfl, Buf.blit_zero] at hrun
    exact .inr (.inr ⟨rfl, hrun⟩)

theorem readClusterFromDisk_failed (hg : s.superblock.Geometry)
    (hc : c < s.superblock.clusterCount) (hn : n ≤ s.superblock.bytePerCluster)
    (hfail : env.pread s.preads = .failed) (buf : Buf) :
    (readClusterFromDisk buf c 0 n).run env s = .ok (0, buf) s.readOnce := by
  obtain ⟨hne, -⟩ | ⟨hne, -⟩ | ⟨-, hread⟩ := readClusterFromDisk_cases env hg hc hn buf
  · exact absurd hfail hne
  · exact absurd hfail hne
  · exact hread

/-- **A program that reads a cluster and stops if it was short**, read by read: by what it
does with the buffer. -/
theorem watched_read {g : ℤ × Buf → FatM α} (sizes : ℕ → ℕ) (buf : Buf)
    (hg : s.superblock.Geometry) (hc : c < s.superblock.clusterCount)
    (hn : sizes 0 ≤ s.superblock.bytePerCluster) (hpos : 0 < sizes 0)
    (hstop : ∀ buf' t, (g (-1, buf')).run env t = .stop .assertion t)
    (hrest : ∀ buf', Watched env ((g (0, buf')).run env s.readOnce) (fun k => sizes (k + 1))
        s.readOnce
      ∧ (buf' = buf → (g (0, buf')).run env s.readOnce ≠ .stop .assertion s.readOnce)) :
    Watched env ((readClusterFromDisk buf c 0 (sizes 0) >>= g).run env s) sizes s
      ∧ (readClusterFromDisk buf c 0 (sizes 0) >>= g).run env s ≠ .stop .assertion s := by
  obtain ⟨hread, buf', hrun⟩ | ⟨hread, hfull, buf', hrun⟩ | ⟨hfail, hrun⟩ :=
    readClusterFromDisk_cases env hg hc hn buf
  · rw [Prog.bind_ok _ hrun, hstop]
    refine ⟨.short hread rfl, fun heq => ?_⟩
    exact absurd (congrArg (fun o => o.state.preads) heq) (Nat.succ_ne_self _)
  · rw [Prog.bind_ok _ hrun]
    exact ⟨.full hread hfull (hrest buf').1, (hrest buf').1.ne_stop⟩
  · rw [Prog.bind_ok _ hrun]
    exact ⟨.failed hfail hpos ((hrest buf).2 rfl) (hrest buf).1, (hrest buf).1.ne_stop⟩

/-- The assertion that a read was not short. -/
theorem check_short (y : FatM α) (t : Server) :
    (check ((-1 : ℤ) ≠ -1) >>= fun _ => y).run env t = .stop .assertion t :=
  Prog.bind_stop _ (check_stop (by decide) env t)

theorem check_full (y : FatM α) (t : Server) :
    (check ((0 : ℤ) ≠ -1) >>= fun _ => y).run env t = y.run env t :=
  Prog.bind_ok _ (check_run (by decide) env t)

/-- Reading an entire cluster is reading all its bytes. -/
theorem readEntireCluster_bind (buf : Buf) (c : ℕ) (g : ℤ × Buf → FatM α) :
    (readEntireClusterFromDisk buf c >>= g).run env s
      = (readClusterFromDisk buf c 0 s.superblock.bytePerCluster >>= g).run env s := by
  unfold readEntireClusterFromDisk
  rw [Prog.run_bind_assoc, Prog.bind_ok _ (Prog.run_get env s)]

/-- Loading a cluster is reading it into zeros. -/
theorem loadCluster_bind (c : ℕ) (y : Buf → FatM α) :
    (loadCluster c >>= y).run env s
      = (readClusterFromDisk (s.newCluster env) c 0 s.superblock.bytePerCluster >>= fun r =>
          check (r.1 ≠ -1) >>= fun _ => y r.2).run env s := by
  have hnew : getNewCluster.run env s = .ok (s.newCluster env) s := rfl
  unfold loadCluster
  rw [Prog.run_bind_assoc, Prog.bind_ok _ hnew, Prog.run_bind_assoc, readEntireCluster_bind]
  cases hrun : (readClusterFromDisk (s.newCluster env) c 0
      s.superblock.bytePerCluster).run env s with
  | ok r t =>
    rw [Prog.bind_ok _ hrun, Prog.bind_ok _ hrun, Prog.run_bind_assoc]
    rfl
  | stop f t => rw [Prog.bind_stop _ hrun, Prog.bind_stop _ hrun]

/-- **A program that loads a cluster**, read by read. -/
theorem watched_load {y : Buf → FatM α} (hg : s.superblock.Geometry)
    (hc : c < s.superblock.clusterCount)
    (hrest : ∀ buf, Watched env ((y buf).run env s.readOnce)
        (fun _ => s.superblock.bytePerCluster) s.readOnce
      ∧ (buf = s.newCluster env → (y buf).run env s.readOnce ≠ .stop .assertion s.readOnce)) :
    Watched env ((loadCluster c >>= y).run env s) (fun _ => s.superblock.bytePerCluster) s
      ∧ (loadCluster c >>= y).run env s ≠ .stop .assertion s := by
  rw [loadCluster_bind]
  refine watched_read (fun _ => s.superblock.bytePerCluster) (s.newCluster env) hg hc
    (Nat.le_refl _) hg.page_pos (fun buf t => check_short (y buf) t) (fun buf => ?_)
  rw [check_full]
  exact hrest buf

/-! ## The scans -/

/-- What reads no more, and does not stop with nothing done. -/
def Settles (env : Env) (x : FatM α) (s : Server) : Prop :=
  (x.run env s).state.preads = s.preads ∧ x.run env s ≠ .stop .assertion s

/-- To return is not to stop. -/
theorem ok_ne_stop {a : α} {f : Fault} : (.ok a s : Outcome Fault Server α) ≠ .stop f t := by
  intro heq
  cases heq

/-- To stop for one reason is not to stop for another. -/
theorem stop_ne_stop {f g : Fault} (h : f ≠ g) :
    (.stop f s : Outcome Fault Server α) ≠ .stop g t := by
  intro heq
  cases heq
  exact h rfl

theorem settles_pure (a : α) : Settles env (pure a) s := ⟨rfl, ok_ne_stop⟩

/-- What writes a cluster reads none. -/
theorem settles_writeClusterToDisk (hg : s.superblock.Geometry)
    (hc : c < s.superblock.clusterCount) (buf : Buf) :
    Settles env (writeClusterToDisk buf c) s := by
  unfold Settles
  rw [writeClusterToDisk_run hg hc]
  exact ⟨rfl, ok_ne_stop⟩

/-- **A scan of a directory**, read by read, if what it does at its end reads no more and
does not stop with nothing done – for the end of the chain, if a cluster of zeros gets it
there. -/
theorem watched_scanDir {ok : Superblock → ℕ → Bool} {p : FatDirEntry → Bool}
    {hit : ℕ → Buf → ℕ → FatM α} {miss : ℕ → FatM α} (fuel : ℕ) (hg : s.superblock.Geometry)
    (h : s.Chain c l) (hl : l ≠ []) (hok : ∀ x ∈ l, ok s.superblock x = true)
    (hhit : ∀ x ∈ l, ∀ buf offset k, Settles env (hit x buf offset) { s with preads := k })
    (hmiss : ∀ x ∈ l, ∀ k, ((miss x).run env { s with preads := k }).state.preads = k
      ∧ ((dirSlots s.superblock.bytePerCluster).find?
          (fun offset => p (entryAt (s.newCluster env) offset)) = none →
        Settles env (miss x) { s with preads := k })) :
    Watched env ((scanDir ok p hit miss fuel c).run env s)
        (fun _ => s.superblock.bytePerCluster) s
      ∧ (scanDir ok p hit miss fuel c).run env s ≠ .stop .assertion s := by
  induction fuel generalizing c l s with
  | zero => exact ⟨.done rfl, stop_ne_stop (by decide)⟩
  | succ fuel ih =>
    obtain ⟨a, l, rfl⟩ := List.exists_cons_of_ne_nil hl
    obtain rfl : c = a := h.head_eq
    have hc := h.head_data
    have hnext : (readFatEntry c).run env s.readOnce = .ok (s.next c) s.readOnce :=
      readFatEntry_run (s := s.readOnce) hg hc
    rw [scanDir, Prog.bind_ok _ (Prog.run_get env s),
      Prog.bind_ok _ (check_run (hok c List.mem_cons_self) env s)]
    refine watched_load hg hc.2 (fun buf => ?_)
    cases hfind : (dirSlots s.superblock.bytePerCluster).find?
        (fun offset => p (entryAt buf offset)) with
    | some offset =>
      obtain ⟨hreads, hne⟩ := hhit c List.mem_cons_self buf offset s.readOnce.preads
      exact ⟨.done hreads, fun _ => hne⟩
    | none =>
      dsimp only
      rw [Prog.bind_ok _ hnext]
      by_cases hend : s.next c = endOfChain
      · obtain ⟨hreads, hne⟩ := hmiss c List.mem_cons_self s.readOnce.preads
        rw [if_pos hend]
        exact ⟨.done hreads, fun hbuf => (hne (hbuf ▸ hfind)).2⟩
      · have hl' : l ≠ [] := by
          rintro rfl
          exact hend h.tail.linked
        rw [if_neg hend]
        obtain ⟨hw, hne⟩ := ih (s := s.readOnce) hg (h.tail.preads _) hl'
          (fun x hx => hok x (List.mem_cons_of_mem c hx))
          (fun x hx => hhit x (List.mem_cons_of_mem c hx))
          (fun x hx => hmiss x (List.mem_cons_of_mem c hx))
        exact ⟨hw, fun _ => hne⟩

/-! ## Programs that read no cluster -/

/-- No read has been made in between. -/
structure Server.SameReads (s t : Server) : Prop where
  preads : t.preads = s.preads

theorem Server.SameReads.refl (s : Server) : s.SameReads s := ⟨rfl⟩

theorem Server.SameReads.trans {u : Server} (h : s.SameReads t) (h' : t.SameReads u) :
    s.SameReads u := ⟨h'.preads.trans h.preads⟩

/-- **The program makes no read**, however it ends. -/
abbrev Unread (env : Env) (x : FatM α) : Prop := Prog.Within env Server.SameReads x

namespace Unread

theorem pure (a : α) : Unread env (Pure.pure a) := Prog.Within.pure Server.SameReads.refl a

theorem get : Unread env (MonadState.get : FatM Server) := Prog.Within.get Server.SameReads.refl

theorem fail (f : Fault) : Unread env (Prog.fail f : FatM α) :=
  Prog.Within.fail Server.SameReads.refl f

theorem of_modify {g : Server → Server} (h : ∀ s, (g s).preads = s.preads) :
    Unread env (modify g : FatM PUnit) := fun s => ⟨h s⟩

theorem bind {x : FatM α} {g : α → FatM β} (hx : Unread env x) (hg : ∀ a, Unread env (g a)) :
    Unread env (x >>= g) :=
  Prog.Within.bind (fun _ _ _ => .trans) hx hg

theorem getNewCluster : Unread env getNewCluster :=
  bind Server.SameReads.refl fun _ => get.bind fun _ => pure _

theorem check (q : Prop) [Decidable q] : Unread env (check q) :=
  Prog.Within.ite (fun _ => pure ()) (fun _ => fail _)

theorem readFatEntry (c : ℕ) : Unread env (readFatEntry c) :=
  fun s => ⟨congrArg Server.preads (readFatEntry_within env s)⟩

theorem getDiskOffset (c : ℕ) : Unread env (getDiskOffset c) :=
  get.bind fun s => (check (c < s.superblock.clusterCount)).bind fun _ => pure _

theorem pwrite (buf : Buf) (size offset : ℕ) : Unread env (pwrite buf size offset) :=
  fun _ => ⟨rfl⟩

theorem writeClusterToDisk (buf : Buf) (c : ℕ) : Unread env (writeClusterToDisk buf c) := by
  refine get.bind fun s => (check _).bind fun _ => (getDiskOffset c).bind fun offset => ?_
  exact (pwrite buf _ offset).bind fun _ => pure _

theorem putEntryAt (buf : Buf) (offset : ℕ) (e : FatDirEntry) :
    Unread env (putEntryAt buf offset e) :=
  get.bind fun _ => Prog.Within.ite (fun _ => pure _) fun _ => fail _

theorem writeSuperblockToDisk : Unread env writeSuperblockToDisk :=
  getNewCluster.bind fun _ => get.bind fun _ => writeClusterToDisk _ 0

theorem updateFatEntry (c v : ℕ) (onDisk : Bool) : Unread env (updateFatEntry c v onDisk) := by
  refine get.bind fun s => (check _).bind fun _ => Prog.Within.ite (fun _ => ?_) fun _ => fail _
  refine bind (of_modify fun s => ?_) fun _ => ?_
  · rfl
  · exact Prog.Within.ite (fun _ => get.bind fun s => writeClusterToDisk _ _) fun _ => pure _

theorem followChain (fuel c : ℕ) : Unread env (followChain fuel c) := by
  induction fuel generalizing c with
  | zero => exact fail _
  | succ fuel ih =>
    exact (readFatEntry c).bind fun next => Prog.Within.ite (fun _ => pure _) fun _ => ih next

theorem popWalk (n c : ℕ) : Unread env (popWalk n c) := by
  induction n generalizing c with
  | zero => exact pure _
  | succ n ih =>
    exact Prog.Within.ite (fun _ => pure _) fun _ => (readFatEntry c).bind fun next => ih next

theorem zeroClusters (zeros : Buf) (fuel c : ℕ) : Unread env (zeroClusters zeros fuel c) := by
  induction fuel generalizing c with
  | zero => exact fail _
  | succ fuel ih =>
    exact (writeClusterToDisk zeros c).bind fun _ => (readFatEntry c).bind fun next =>
      Prog.Within.ite (fun _ => pure _) fun _ => ih next

theorem popFreeClusters (n : ℕ) : Unread env (popFreeClusters n) := by
  refine (check _).bind fun _ => get.bind fun s => (popWalk _ _).bind fun x => ?_
  obtain ⟨length, last⟩ := x
  refine Prog.Within.ite (fun _ => pure _) fun _ => (readFatEntry last).bind fun rest => ?_
  refine (of_modify (g := fun s => s.setFree rest) fun _ => rfl).bind fun _ => ?_
  refine writeSuperblockToDisk.bind fun _ => ?_
  refine (updateFatEntry _ _ _).bind fun _ => getNewCluster.bind fun zeros => ?_
  exact (zeroClusters zeros _ _).bind fun _ => pure _

theorem addFreeCluster (c : ℕ) : Unread env (addFreeCluster c) :=
  (popFreeClusters 1).bind fun _ => get.bind fun _ => (followChain _ c).bind fun _ =>
    (updateFatEntry _ _ _).bind fun _ => pure _

theorem extendDirectory (name : List UInt8) (first : ℕ) (type : UInt16) (c : ℕ) :
    Unread env (extendDirectory env name first type c) := by
  refine (get.bind fun _ => pure _).bind fun free =>
    Prog.Within.ite (fun _ => ?_) fun _ => pure _
  exact (addFreeCluster c).bind fun c => getNewCluster.bind fun buf => get.bind fun s =>
    (putEntryAt buf 0 _).bind fun cluster => writeClusterToDisk cluster c

end Unread

/-! ## The loops -/

/-- **The loop of a listing**, read by read. -/
theorem watched_readDirLoop {filler : Filler} (fuel tmpOffset offset : ℕ)
    (taken : List Listed) (hg : s.superblock.Geometry) (h : s.Chain c l) (buf : Buf) :
    Watched env ((readDirLoop filler fuel c buf tmpOffset offset taken).run env s)
        (fun _ => s.superblock.bytePerCluster) s
      ∧ (readDirLoop filler fuel c buf tmpOffset offset taken).run env s
        ≠ .stop .assertion s := by
  induction fuel generalizing c l s buf tmpOffset offset taken with
  | zero => exact ⟨.done rfl, stop_ne_stop (by decide)⟩
  | succ fuel ih =>
    rw [readDirLoop]
    cases l with
    | nil =>
      obtain rfl : c = endOfChain := h.linked
      rw [if_pos (show endOfChain = 0 from rfl)]
      exact ⟨.done rfl, ok_ne_stop⟩
    | cons a l =>
      obtain rfl : c = a := h.head_eq
      have hc := h.head_data
      rw [if_neg (show ¬ c = 0 from hc.ne_end), readEntireCluster_bind]
      have hnext : (readFatEntry c).run env s.readOnce = .ok (s.next c) s.readOnce :=
        readFatEntry_run (s := s.readOnce) hg hc
      refine (watched_read (fun _ => s.superblock.bytePerCluster) buf hg hc.2 (Nat.le_refl _)
        hg.page_pos (fun buf t => check_short _ t) (fun buf => ?_))
      dsimp only
      rw [check_full, Prog.bind_ok _ (Prog.run_get env _)]
      cases hfill : fillSlots filler buf
          (slotsFrom tmpOffset s.readOnce.superblock.bytePerCluster) offset taken with
      | mk goes rest =>
        cases goes with
        | false => exact ⟨.done rfl, fun _ => ok_ne_stop⟩
        | true =>
          dsimp only
          rw [Prog.bind_ok _ hnext]
          have hloop := ih (s := s.readOnce) 0 rest.1 rest.2 hg (h.tail.preads _) buf
          exact ⟨hloop.1, fun _ => hloop.2⟩

/-- **The loop of `fat_read`**, read by read. -/
theorem watched_readLoop (fuel rem off w : ℕ) (hg : s.superblock.Geometry)
    (h : s.Chain c l) (hw : w < s.superblock.bytePerCluster) (buf : Buf) :
    Watched env ((readLoop s.superblock.bytePerCluster fuel c rem off w buf).run env s)
        (pieceSize s.superblock.bytePerCluster w rem) s
      ∧ (readLoop s.superblock.bytePerCluster fuel c rem off w buf).run env s
        ≠ .stop .assertion s := by
  induction fuel generalizing c l s rem off w buf with
  | zero => exact ⟨.done rfl, stop_ne_stop (by decide)⟩
  | succ fuel ih =>
    rw [readLoop]
    by_cases h0 : rem = 0
    · rw [if_pos h0]
      exact ⟨.done rfl, ok_ne_stop⟩
    · rw [if_neg h0]
      dsimp only
      set n := min rem (s.superblock.bytePerCluster - w) with hn
      have hpos : 0 < n := Nat.lt_min.mpr ⟨Nat.pos_of_ne_zero h0, Nat.sub_pos_of_lt hw⟩
      have hle : n ≤ s.superblock.bytePerCluster :=
        Nat.le_trans (Nat.min_le_right _ _) (Nat.sub_le _ _)
      have hc : c < s.superblock.clusterCount := by
        cases l with
        | nil =>
          obtain rfl : c = endOfChain := h.linked
          exact Nat.lt_of_le_of_lt (Nat.zero_le _) hg.room
        | cons a l =>
          obtain rfl : c = a := h.head_eq
          exact h.head_data.2
      refine watched_read (pieceSize s.superblock.bytePerCluster w rem) (buf.shift off) hg hc
        hle hpos (fun buf' t => check_short _ t) (fun buf' => ?_)
      dsimp only
      rw [check_full]
      cases l with
      | nil =>
        obtain rfl : c = endOfChain := h.linked
        have hstop : (readFatEntry endOfChain).run env s.readOnce
            = .stop .outOfBounds s.readOnce :=
          readFatEntry_stop (s := s.readOnce) hg (Nat.lt_of_lt_of_le Nat.one_pos
            (Nat.le_add_right 1 _))
        rw [Prog.bind_stop _ hstop]
        exact ⟨.done rfl, fun _ => stop_ne_stop (by decide)⟩
      | cons a l =>
        obtain rfl : c = a := h.head_eq
        have hnext : (readFatEntry c).run env s.readOnce = .ok (s.next c) s.readOnce :=
          readFatEntry_run (s := s.readOnce) hg h.head_data
        rw [Prog.bind_ok _ hnext]
        have hloop := ih (s := s.readOnce) (rem - n) (off + n) 0 hg (h.tail.preads _)
          hg.page_pos (buf.blit off buf' n)
        exact ⟨hloop.1, fun _ => hloop.2⟩

/-! ## Every function -/

theorem watched_find (name : List UInt8) (hg : s.superblock.Geometry) (h : s.Chain c l)
    (hl : l ≠ []) : Watched env ((findDirEntryByName c name).run env s)
      (fun _ => s.superblock.bytePerCluster) s := by
  rw [findDirEntryByName, Prog.bind_ok _ (Prog.run_get env s)]
  exact (watched_scanDir s.chainFuel hg h hl (fun _ _ => rfl)
    (fun _ _ _ _ _ => settles_pure _) (fun _ _ _ => ⟨rfl, fun _ => settles_pure _⟩)).1

theorem watched_isEmpty (hg : s.superblock.Geometry) (h : s.Chain c l) (hl : l ≠ []) :
    Watched env ((isDirEmpty c).run env s) (fun _ => s.superblock.bytePerCluster) s := by
  rw [isDirEmpty, Prog.bind_ok _ (Prog.run_get env s)]
  refine (watched_scanDir s.chainFuel hg h hl (fun x hx => ?_)
    (fun _ _ _ _ _ => settles_pure _) (fun _ _ _ => ⟨rfl, fun _ => settles_pure _⟩)).1
  have hx' := h.data x hx
  exact decide_eq_true ⟨hg.root ▸ hx'.1, hx'.ne_end⟩

/-- Storing an entry in a slot makes no read, and does not fail an assertion. -/
theorem settles_put (hg : s.superblock.Geometry) (hc : c < s.superblock.clusterCount)
    (offset : ℕ) (e : FatDirEntry) (buf : Buf) :
    Settles env (putEntryAt buf offset e >>= fun cluster => writeClusterToDisk cluster c) s := by
  unfold Settles
  by_cases hin : s.Inside (c, offset)
  · rw [Prog.bind_ok _ (putEntryAt_run hin buf e)]
    exact settles_writeClusterToDisk hg hc _
  · rw [Prog.bind_stop _ (putEntryAt_outside hin buf e)]
    exact ⟨rfl, stop_ne_stop (by decide)⟩

theorem watched_update (e : FatDirEntry) (remove : Bool) (hg : s.superblock.Geometry)
    (h : s.Chain c l) (hl : l ≠ []) : Watched env ((updateDirEntry c e remove).run env s)
      (fun _ => s.superblock.bytePerCluster) s := by
  rw [updateDirEntry, Prog.bind_ok _ (Prog.run_get env s)]
  refine (watched_scanDir s.chainFuel hg h hl (fun _ _ => rfl) (fun x hx buf offset k => ?_)
    (fun _ _ _ => ⟨rfl, fun _ => settles_pure _⟩)).1
  split
  · exact settles_writeClusterToDisk (s := { s with preads := k }) hg (h.data x hx).2 _
  · exact settles_put (s := { s with preads := k }) hg (h.data x hx).2 offset e buf

/-- Skipping clusters stays in the chain, or leaves the table; it reads nothing. -/
theorem skipClusters_cases (env : Env) (hg : s.superblock.Geometry) (h : s.Chain c l) (n : ℕ) :
    (∃ d l', (skipClusters n c).run env s = .ok d s ∧ s.Chain d l')
      ∨ (skipClusters n c).run env s = .stop .outOfBounds s := by
  rcases Nat.lt_or_ge l.length n with hn | hn
  · exact .inr (skipClusters_stop hg h hn)
  · rw [← List.take_append_drop n l] at h
    obtain ⟨d, hrun, hd⟩ := skipClusters_run env hg h
    rw [List.length_take_of_le hn] at hrun
    exact .inl ⟨d, l.drop n, hrun, hd⟩

/-- The first slot of a cluster of zeros is free. -/
theorem find_isFree_newCluster (hg : s.superblock.Geometry) :
    (dirSlots s.superblock.bytePerCluster).find?
      (fun offset => (entryAt (s.newCluster env) offset).isFree) = some 0 := by
  obtain ⟨n, hn⟩ : ∃ n, (s.superblock.bytePerCluster - 0 + (dirEntrySize - 1)) / dirEntrySize
      = n + 1 := Nat.exists_eq_succ_of_ne_zero (Nat.ne_of_gt (Nat.div_pos (by
    have hpos := hg.page_pos
    unfold dirEntrySize
    omega) (by decide)))
  have hfree : (entryAt (s.newCluster env) 0).isFree = true := by
    show (s.newCluster env (0 + 0) == 0) = true
    rw [Server.newCluster_of_lt hg.page_pos]
    rfl
  rw [dirSlots, slotsFrom, hn, List.range'_succ]
  exact List.find?_cons_of_pos hfree

theorem watched_add (name : List UInt8) (first : ℕ) (type : UInt16)
    (hg : s.superblock.Geometry) (h : s.Chain c l) (hl : l ≠ []) :
    Watched env ((addDirEntryToCluster c name first type).run env s)
      (fun _ => s.superblock.bytePerCluster) s := by
  by_cases hfirst : s.superblock.IsData first
  · by_cases hname : NameFits name
    · rw [addDirEntryToCluster_scan hfirst hname]
      refine (watched_scanDir s.chainFuel hg h hl (fun _ _ => rfl) (fun x hx buf offset k => ?_)
        (fun x _ k => ⟨(Unread.extendDirectory name first type x _).preads, fun hfind => ?_⟩)).1
      · unfold Settles
        rw [storeEntry, Prog.bind_ok _ (Prog.run_get env _)]
        exact settles_put (s := { s with preads := k }) hg (h.data x hx).2 offset _ buf
      · rw [find_isFree_newCluster hg] at hfind
        exact absurd hfind (Option.some_ne_none _)
    · rw [addDirEntryToCluster_long hfirst hname]
      exact .done rfl
  · have hcheck : ¬ (1 + s.superblock.clusterPerFat ≤ first
        ∧ first < s.superblock.clusterCount) := hfirst
    rw [addDirEntryToCluster, Prog.bind_ok _ (Prog.run_read env s),
      Prog.bind_ok _ (Prog.run_get env s), Prog.bind_stop _ (check_stop hcheck env s)]
    exact .done rfl

theorem watched_list (filler : Filler) (offset : ℕ) (hg : s.superblock.Geometry)
    (h : s.Chain c l) : Watched env ((readDirEntries c offset filler).run env s)
      (fun _ => s.superblock.bytePerCluster) s := by
  rw [readDirEntries, Prog.bind_ok _ (Prog.run_get env s)]
  obtain ⟨d, l', hskip, hd⟩ | hskip :=
    skipClusters_cases env hg h (offset / s.superblock.bytePerCluster)
  · have hnew : getNewCluster.run env s = .ok (s.newCluster env) s := rfl
    rw [Prog.bind_ok _ hskip, Prog.bind_ok _ hnew]
    exact (watched_readDirLoop s.chainFuel _ offset [] hg hd _).1
  · rw [Prog.bind_stop _ hskip]
    exact .done rfl

theorem watched_readFile (e : FatDirEntry) (buf : Buf) (size offset : ℕ)
    (hg : s.superblock.Geometry) (h : s.Chain e.firstCluster.toNat l) :
    Watched env ((readFile e buf size offset).run env s)
      (pieceSize s.superblock.bytePerCluster (u32 offset % s.superblock.bytePerCluster)
        (min (sub32 e.size.toNat (u32 offset)) (u32 size))) s := by
  unfold readFile
  split
  · exact .done rfl
  · rw [Prog.bind_ok _ (Prog.run_get env s)]
    dsimp only
    set r := min (sub32 e.size.toNat (u32 offset)) (u32 size) with hr
    obtain ⟨d, l', hskip, hd⟩ | hskip :=
      skipClusters_cases env hg h (u32 offset / s.superblock.bytePerCluster)
    · rw [Prog.bind_ok _ hskip]
      have hloop : Watched env _ _ s := (watched_readLoop (r + 1) r 0 _ hg hd
        (Nat.mod_lt (u32 offset) hg.page_pos) buf).1
      cases hrun : (readLoop s.superblock.bytePerCluster (r + 1) d r 0
          (u32 offset % s.superblock.bytePerCluster) buf).run env s with
      | ok buf' t =>
        rw [hrun] at hloop
        rw [Prog.bind_ok _ hrun]
        exact hloop.map rfl (fun _ => iff_of_false ok_ne_stop ok_ne_stop)
      | stop f t =>
        rw [hrun] at hloop
        rw [Prog.bind_stop _ hrun]
        refine hloop.map rfl (fun u => ⟨fun heq => ?_, fun heq => ?_⟩)
        · obtain ⟨rfl, rfl⟩ := Outcome.stop.inj heq
          rfl
        · obtain ⟨rfl, rfl⟩ := Outcome.stop.inj heq
          rfl
    · rw [Prog.bind_stop _ hskip]
      exact .done rfl

/-- **Reading, changing and writing back.** A write follows whatever the read did. -/
theorem watched_modify (cluster src : Buf) (off n : ℕ) (hg : s.superblock.Geometry)
    (hc : s.superblock.IsData c) : Watched env ((modifyCluster cluster c off src n).run env s)
      (fun _ => s.superblock.bytePerCluster) s := by
  unfold modifyCluster
  rw [readEntireCluster_bind]
  refine (watched_read (fun _ => s.superblock.bytePerCluster) cluster hg hc.2 (Nat.le_refl _)
    hg.page_pos (fun buf t => check_short _ t) (fun buf => ?_)).1
  have hwrite : (writeClusterToDisk (buf.blit off src n) c).run env s.readOnce = _ :=
    writeClusterToDisk_run hg hc.2
  dsimp only
  rw [check_full, storeCluster, Prog.run_bind_assoc, Prog.bind_ok _ hwrite]
  by_cases hstatus : s.readOnce.writeStatus env ≠ -1
  · rw [Prog.bind_ok _ (check_run hstatus env _)]
    exact ⟨.done rfl, fun _ => ok_ne_stop⟩
  · rw [Prog.bind_stop _ (check_stop hstatus env _)]
    refine ⟨.done rfl, fun _ heq => ?_⟩
    have hwrites := congrArg (fun o => o.state.pwrites.length) heq
    exact absurd hwrites (Nat.succ_ne_self _)

theorem Reading.watched (f : Reading α) (hg : s.superblock.Geometry) (h : f.Sound s) :
    Watched env (f.prog.run env s) (f.request s) s := by
  cases f with
  | find c name =>
    obtain ⟨l, hl, hc⟩ := h
    exact watched_find name hg hc hl
  | update c e remove =>
    obtain ⟨l, hl, hc⟩ := h
    exact watched_update e remove hg hc hl
  | add c name first type =>
    obtain ⟨l, hl, hc⟩ := h
    exact watched_add name first type hg hc hl
  | isEmpty c =>
    obtain ⟨l, hl, hc⟩ := h
    exact watched_isEmpty hg hc hl
  | list c offset filler =>
    obtain ⟨l, hc⟩ := h
    exact watched_list filler offset hg hc
  | read e buf size offset =>
    obtain ⟨l, hc⟩ := h
    exact watched_readFile e buf size offset hg hc
  | modify cluster c offset src n => exact watched_modify cluster src offset n hg h

/-- **When no failed read is taken for data.** For every function that reads clusters and
every outcome of each of its reads: exactly if none of them returns `-1`. A short read
always stops it. -/
theorem failed_reads_heeded_iff (f : Reading α) (hg : s.superblock.Geometry) (h : f.Sound s) :
    Heeds env (f.prog.run env s) (f.request s) s ↔ NoneFails env (f.prog.run env s) s :=
  ⟨(f.watched hg h).noneFails, (f.watched hg h).heeds⟩

/-! ## What a failed read does -/

/-- **An insertion whose first read fails** writes zeros over the directory, and the new
entry in front of them. -/
theorem addDirEntryToCluster_failed {name : List UInt8} {first : ℕ} (type : UInt16)
    (hg : s.superblock.Geometry) (h : s.Chain c (c :: l)) (hfirst : s.superblock.IsData first)
    (hn : NameFits name) (hfail : env.pread s.preads = .failed) :
    (addDirEntryToCluster c name first type).run env s
      = .ok (s.readOnce.writeStatus env) (s.readOnce.writeCluster env
        ((s.newCluster env).blit 0 (s.readOnce.madeEntry env name first type).bytes
          dirEntrySize) c) := by
  have hc := h.head_data
  have hread := readClusterFromDisk_failed hg hc.2 (Nat.le_refl _) hfail (s.newCluster env)
  rw [addDirEntryToCluster_scan hfirst hn, Server.chainFuel, scanDir,
    Prog.bind_ok _ (Prog.run_get env s), Prog.bind_ok _ (check_run rfl env s), loadCluster_bind,
    Prog.bind_ok _ hread, Prog.bind_ok _ (check_run (show (0 : ℤ) ≠ -1 by decide) env _)]
  dsimp only
  rw [find_isFree_newCluster hg]
  exact storeEntry_run (s := s.readOnce) (x := (c, 0)) hg hc
    (Server.inside_zero (s := s.readOnce) hg c) _

namespace Env

/-- A disk that can be written and not read. -/
def failingReads : Env := { Env.ideal with pread := fun _ => .failed }

/-- A disk that reads a hundred bytes at a time. -/
def shortReads : Env := { Env.ideal with pread := fun _ => .short 100 }

end Env

variable {data : Buf}

theorem chain_oneFile : (Server.oneFile 0 data).Chain 4 [4] :=
  (Server.owns_oneFile 0 data).chain (Server.root_mem_onePool [4] (Multiset.mem_singleton_self _))

/-- A short read of the root directory stops the lookup. -/
theorem failed_reads_heeded_oneFile :
    Heeds Env.shortReads ((Reading.find 4 oneName).prog.run Env.shortReads
      (Server.oneFile 0 fun _ => 0)) ((Reading.find 4 oneName).request
        (Server.oneFile 0 fun _ => 0)) (Server.oneFile 0 fun _ => 0) :=
  (failed_reads_heeded_iff (.find 4 oneName) (Server.owns_oneFile 0 _).geometry
    ⟨[4], List.cons_ne_nil 4 [], chain_oneFile⟩).mpr (fun _ _ => nofun)

/-- The root directory holds a file `a`. Its read fails while `b` is inserted: the
insertion succeeds, and the entry of `a` is overwritten. -/
theorem failed_read_overwrites :
    ∃ t, (Reading.add 4 [98] 6 dirEntryTypeFile).prog.run Env.failingReads
        (Server.oneFile 0 fun _ => 0) = .ok 0 t
      ∧ (Server.oneFile 0 fun _ => 0).cluster 4 0 = 97 ∧ t.cluster 4 0 = 98
      ∧ ¬ Heeds Env.failingReads ((Reading.add 4 [98] 6 dirEntryTypeFile).prog.run
          Env.failingReads (Server.oneFile 0 fun _ => 0))
        ((Reading.add 4 [98] 6 dirEntryTypeFile).request (Server.oneFile 0 fun _ => 0))
        (Server.oneFile 0 fun _ => 0) := by
  set s := Server.oneFile 0 fun _ => 0
  have hg : s.superblock.Geometry := (Server.owns_oneFile 0 _).geometry
  have hb : 0 < s.superblock.bytePerCluster := hg.page_pos
  have hfail : Env.failingReads.pread s.preads = .failed := rfl
  have hw : Env.failingReads.WritesFull := fun _ => rfl
  have hdata : s.superblock.IsData 6 := (Server.owns_oneFile 0 _).data 6
    (Pool.mem_cells.mpr (.inl (List.mem_range'.mpr ⟨0, by decide, rfl⟩)))
  have hrun : (Reading.add 4 [98] 6 dirEntryTypeFile).prog.run Env.failingReads s = _ :=
    addDirEntryToCluster_failed dirEntryTypeFile hg chain_oneFile hdata ⟨by decide, by decide⟩
      hfail
  rw [Server.writeStatus_of_writesFull hw] at hrun
  refine ⟨_, hrun, ?_, ?_, fun hheeds => ?_⟩
  · have hslot : (s.slotEntry .ideal (4, 0)).name 0 = 97 :=
      congrArg (fun e : FatDirEntry => e.name 0) (Server.slotEntry_oneFile .ideal)
    have hcluster : s.clusterBuf .ideal 4 0 = s.cluster 4 0 := Server.clusterBuf_of_lt hb
    exact hcluster.symm.trans hslot
  · exact (Server.cluster_writeCluster (s := s.readOnce) hw hb).trans rfl
  · have hlt : s.preads + 0 < ((Reading.add 4 [98] 6 dirEntryTypeFile).prog.run
        Env.failingReads s).state.preads := by
      rw [hrun]
      exact Nat.lt_succ_self _
    have hstop := hheeds 0 hlt (show 0 < s.superblock.bytePerCluster from hb)
    rw [hrun] at hstop
    exact nomatch hstop

end Fat
