import LLPFilesystem.FatContents
import LLPFilesystem.FatOneFile

/-!
# Reading a file

`fat_read` copies the contents of a file piece by piece. The loop reads every
piece from the *start* of its cluster; where the requested range
starts inside a cluster, its first piece is therefore the wrong one
(`readLoop_run`), and the read is right only when the two pieces happen to
agree.
-/

namespace Fat

variable {env : Env} {s t : Server} {c d rem off w size offset : ℕ} {l o : List ℕ}
  {buf : Buf} {p : Pool ℕ} {e : FatDirEntry} {path name : List UInt8} {pl : List ℕ}
  {dirs : Multiset (List ℕ)} {toks : List (List UInt8)}

namespace Server

/-- Copying from a file is copying from its first cluster and then from the
others. -/
theorem blit_fileBuf_cons (s : Server) (hb : 0 < s.superblock.bytePerCluster)
    (buf : Buf) (off rem c : ℕ) (l : List ℕ) :
    (buf.blit off (s.cluster c) (min rem s.superblock.bytePerCluster)).blit
        (off + min rem s.superblock.bytePerCluster) (s.fileBuf l)
        (rem - min rem s.superblock.bytePerCluster)
      = buf.blit off (s.fileBuf (c :: l)) rem := by
  set n := min rem s.superblock.bytePerCluster with hn
  have hfirst : buf.blit off (s.cluster c) n = buf.blit off (s.fileBuf (c :: l)) n :=
    Buf.blit_congr (fun i hi => (paged_cons_of_lt (by omega)).symm)
  have hrest : ∀ i < rem - n, s.fileBuf l i = (s.fileBuf (c :: l)).shift n i := by
    intro i hi
    have hnb : n = s.superblock.bytePerCluster := by omega
    rw [Buf.shift_apply, hnb]
    exact (paged_cons_add hb i).symm
  rw [hfirst, Buf.blit_congr hrest, Buf.blit_blit, Nat.add_sub_cancel' (by omega)]

end Server

/-! ## The loop -/

/-- One round of the reading loop: a piece from the start of the cluster. -/
theorem reads_readLoop_succ (hr : env.ReadsFull) (hg : s.superblock.Geometry)
    (hc : s.superblock.IsData c) (hrem : rem ≠ 0) {n fuel : ℕ}
    (hn : n = min rem (s.superblock.bytePerCluster - w)) {buf' : Buf}
    (hrest : s.Reads env (readLoop s.superblock.bytePerCluster fuel (s.next c)
      (rem - n) (off + n) 0 (buf.blit off (s.cluster c) n)) buf') :
    s.Reads env (readLoop s.superblock.bytePerCluster (fuel + 1) c rem off w buf)
      buf' := by
  rw [readLoop, if_neg hrem]
  dsimp only
  rw [← hn]
  refine (reads_readClusterFromDisk hr hg hc (by omega)).bind
    (Server.Reads.check_bind (show (0 : ℤ) ≠ -1 by decide)
      ((reads_readFatEntry hg hc).bind ?_))
  rwa [show buf.blit off ((buf.shift off).blit 0 (s.cluster c) n) n
      = buf.blit off (s.cluster c) n from Buf.blit_congr (fun i hi => by
    rw [Buf.blit_of_mem (Nat.zero_le i) (by omega), Nat.sub_zero])]

/-- **The loop from the start of a cluster on** copies the file. -/
theorem reads_readLoop (hr : env.ReadsFull) (hg : s.superblock.Geometry) {fuel : ℕ}
    (h : s.Chain c l) (hrem : rem ≤ l.length * s.superblock.bytePerCluster)
    (hf : rem < fuel) :
    s.Reads env (readLoop s.superblock.bytePerCluster fuel c rem off 0 buf)
      (buf.blit off (s.fileBuf l) rem) := by
  induction fuel generalizing c l rem off buf with
  | zero => exact absurd hf (Nat.not_lt_zero _)
  | succ fuel ih =>
    by_cases h0 : rem = 0
    · subst h0
      rw [readLoop, if_pos rfl, Buf.blit_zero]
      exact .pure s env buf
    · cases l with
      | nil =>
        rw [List.length_nil, Nat.zero_mul] at hrem
        exact absurd (Nat.le_zero.mp hrem) h0
      | cons a l =>
        obtain rfl : c = a := h.head_eq
        have hb := hg.page_pos
        have hlen : rem ≤ l.length * s.superblock.bytePerCluster
            + s.superblock.bytePerCluster := by
          rwa [List.length_cons, Nat.add_mul, Nat.one_mul] at hrem
        refine reads_readLoop_succ hr hg h.head_data h0 (by rw [Nat.sub_zero]) ?_
        rw [← s.blit_fileBuf_cons hb buf off rem c l]
        exact ih h.tail (by omega) (by omega)

/-! ## The read -/

/-- **What a read copies** into the buffer, `r` bytes of it being asked for:
the first piece from the start of its cluster, the others from where they
are. -/
def Server.readBuf (s : Server) (o : List ℕ) (buf : Buf) (offset r : ℕ) : Buf :=
  let b := s.superblock.bytePerCluster
  let n := min r (b - offset % b)
  (buf.blit 0 (s.fileBuf (o.drop (offset / b))) n).blit n
    ((s.fileBuf o).shift (offset + n)) (r - n)

/-- **Reading a range of a file that starts before its end.** -/
theorem reads_readFile (hr : env.ReadsFull) (hg : s.superblock.Geometry)
    (h : s.Chain e.firstCluster.toNat o)
    (hlen : e.size.toNat ≤ o.length * s.superblock.bytePerCluster)
    (hoff : offset < e.size.toNat) (hpos : 0 < size) (hsize : size < 2 ^ 31)
    (buf : Buf) : s.Reads env (readFile e buf size offset)
      ((min size (e.size.toNat - offset) : ℕ),
        s.readBuf o buf offset (min size (e.size.toNat - offset))) := by
  have hb := hg.page_pos
  have he := e.size.toNat_lt
  set b := s.superblock.bytePerCluster with hbdef
  set r := min size (e.size.toNat - offset) with hrdef
  have hdm := Nat.div_add_mod offset b
  rw [Nat.mul_comm] at hdm
  have hw := Nat.mod_lt offset hb
  -- the chain from the cluster of the offset on
  have hjl : offset / b < o.length := by
    refine Nat.div_lt_of_lt_mul ?_
    rw [Nat.mul_comm]
    omega
  have hdrop : o.drop (offset / b) = o[offset / b] :: o.drop (offset / b + 1) :=
    List.drop_eq_getElem_cons hjl
  have hsplit : o.take (offset / b) ++ o.drop (offset / b) = o := List.take_append_drop _ _
  have hchain : s.Chain o[offset / b] (o.drop (offset / b)) := by
    have hs := h
    rw [← hsplit, hdrop] at hs
    rw [hdrop]
    exact hs.suffix
  have hskip : s.Reads env (skipClusters (offset / b) e.firstCluster.toNat)
      o[offset / b] := reads_skipClusters hg h (List.getElem?_eq_getElem hjl)
  have hfirst : s.fileBuf (o.drop (offset / b)) = s.fileBuf (o[offset / b] ::
      o.drop (offset / b + 1)) := congrArg s.fileBuf hdrop
  rw [hdrop] at hchain
  rw [readFile, if_neg (by omega)]
  refine Server.Reads.get_bind (fun k => ?_)
  dsimp only
  rw [u32_of_lt (by omega), u32_of_lt (by omega), sub32_of_le he (by omega), Nat.min_comm,
    ← hrdef, ← hbdef]
  refine hskip.bind (Server.Reads.bind (a := s.readBuf o buf offset r) ?_ ?_)
  · refine reads_readLoop_succ hr hg hchain.head_data (by omega) rfl ?_
    rw [Server.readBuf, hfirst, ← hbdef]
    set n := min r (b - offset % b) with hn
    have hpiece : buf.blit 0 (s.fileBuf (o[offset / b] :: o.drop (offset / b + 1))) n
        = buf.blit 0 (s.cluster o[offset / b]) n :=
      Buf.blit_congr (fun i hi => paged_cons_of_lt (by omega))
    have hothers : ∀ i < r - n, (s.fileBuf o).shift (offset + n) i
        = s.fileBuf (o.drop (offset / b + 1)) i := by
      intro i hi
      have hnext : offset + n = (offset / b + 1) * b := by
        rw [Nat.add_mul, Nat.one_mul]
        omega
      rw [Buf.shift_apply, hnext]
      exact (paged_drop hb hjl i).symm
    rw [hpiece, Buf.blit_congr hothers]
    rw [Nat.zero_add]
    refine reads_readLoop hr hg hchain.tail ?_ (by omega)
    rw [List.length_drop, Nat.sub_mul, Nat.add_mul, Nat.one_mul, ← hbdef]
    omega
  · rw [i32_of_lt (by omega)]
    exact .pure s env _

/-- What a read copies, byte by byte. -/
theorem Server.readBuf_of_lt (hb : 0 < s.superblock.bytePerCluster) {r i : ℕ}
    (hj : offset / s.superblock.bytePerCluster ≤ o.length) (hi : i < r) :
    s.readBuf o buf offset r i
      = if i < s.superblock.bytePerCluster - offset % s.superblock.bytePerCluster
        then s.fileBuf o (offset - offset % s.superblock.bytePerCluster + i)
        else s.fileBuf o (offset + i) := by
  have hdm := Nat.div_add_mod offset s.superblock.bytePerCluster
  rw [Nat.mul_comm] at hdm
  rw [Server.readBuf]
  split
  · rw [Buf.blit_of_lt (by omega), Buf.blit_of_mem (Nat.zero_le i) (by omega),
      Nat.sub_zero]
    refine (paged_drop hb hj i).trans (congrArg (s.fileBuf o) ?_)
    omega
  · rw [Buf.blit_of_mem (by omega) (by omega), Buf.shift_apply]
    exact congrArg (s.fileBuf o) (by omega)

/-- The piece of a read that lies in its first cluster holds the same bytes as
the start of that cluster. -/
def Server.FirstPieceAgrees (s : Server) (o : List ℕ) (r offset : ℕ) : Prop :=
  ∀ i < min r (s.superblock.bytePerCluster - offset % s.superblock.bytePerCluster),
    s.fileBuf o (offset - offset % s.superblock.bytePerCluster + i)
      = s.fileBuf o (offset + i)

/-- The bytes a read copies are the ones asked for exactly when its first
piece is. -/
theorem Server.map_readBuf_iff (hb : 0 < s.superblock.bytePerCluster) {r : ℕ}
    (h : offset + r ≤ size) (hr : 0 < r)
    (hlen : size ≤ o.length * s.superblock.bytePerCluster) :
    (List.range r).map (s.readBuf o buf offset r) = ((s.contents o size).drop offset).take r
      ↔ s.FirstPieceAgrees o r offset := by
  have hj : offset / s.superblock.bytePerCluster ≤ o.length :=
    Nat.div_le_of_le_mul (by rw [Nat.mul_comm]; omega)
  rw [Server.take_drop_contents h hlen, List.map_inj_left]
  constructor
  · intro hall i hi
    have hir := hall i (List.mem_range.mpr (by omega))
    rwa [Server.readBuf_of_lt hb hj (by omega), if_pos (by omega)] at hir
  · intro hagree i hi
    have hir := List.mem_range.mp hi
    rw [Server.readBuf_of_lt hb hj hir]
    split
    · next hlt => exact hagree i (by omega)
    · rfl

/-- A lookup by path that succeeds leaves the server as it was, and only
succeeds on a path that is not the root. -/
theorem findDirEntryByPath_ok (h : (findDirEntryByPath path).run env s = .ok (some e) t) :
    0 < strcmp path [slash] ∧ ∃ k, t = { s with preads := k } := by
  refine ⟨?_, (ReadOnly.findDirEntryByPath env path).of_ok h⟩
  by_contra hle
  rw [findDirEntryByPath, if_pos (Int.not_lt.mp hle)] at h
  cases h

/-- **What a read should do**: return the number of bytes there are of the
range asked for, with these bytes of the file in the buffer. -/
def Server.ReadsContents (s : Server) (env : Env) (o : List ℕ) (e : FatDirEntry)
    (path : List UInt8) (buf : Buf) (size offset : ℕ) : Prop :=
  ∃ r buf' s', (fatRead path buf size offset).run env s = .ok (r, buf') s'
    ∧ r = max 0 (min (size : ℤ) (e.size.toNat - offset))
    ∧ (List.range r.toNat).map buf' = ((s.contents o e.size.toNat).drop offset).take r.toNat

/-- A read is right exactly when its first piece is. -/
theorem Server.Owns.readsContents_iff (h : s.Owns p) (hr : env.ReadsFull)
    (ho : o ∈ p.owners) (hhead : o.headD endOfChain = e.firstCluster.toNat)
    (hcap : e.size.toNat ≤ o.length * s.superblock.bytePerCluster)
    (hfind : (findDirEntryByPath path).run env s = .ok (some e) t)
    (hsize : size < 2 ^ 31) :
    s.ReadsContents env o e path buf size offset
    ↔ offset % s.superblock.bytePerCluster = 0 ∨ size = 0 ∨ e.size.toNat ≤ offset
      ∨ s.FirstPieceAgrees o (min size (e.size.toNat - offset)) offset := by
  have hb := h.geometry.page_pos
  obtain ⟨hpath, k, rfl⟩ := findDirEntryByPath_ok hfind
  have hread : (fatRead path buf size offset).run env s
      = (readFile e buf size offset).run env { s with preads := k } := by
    rw [fatRead, Prog.bind_ok _ (check_run hpath env s), Prog.bind_ok _ hfind]
  unfold ReadsContents
  rw [hread]
  by_cases hnone : e.size.toNat ≤ offset ∨ size = 0
  · -- nothing is read, and nothing is asked for
    refine iff_of_true ⟨0, buf, { s with preads := k }, ?_, by omega, rfl⟩ (by tauto)
    rw [readFile, if_pos hnone]
    rfl
  · have hchain := h.chain ho
    rw [hhead] at hchain
    obtain ⟨k', hrun⟩ := reads_readFile hr h.geometry hchain hcap
      (Nat.not_le.mp (fun hle => hnone (Or.inl hle)))
      (Nat.pos_of_ne_zero (fun h0 => hnone (Or.inr h0))) hsize buf k
    set r := min size (e.size.toNat - offset) with hrdef
    have hiff : (List.range r).map (s.readBuf o buf offset r)
        = ((s.contents o e.size.toNat).drop offset).take r
        ↔ s.FirstPieceAgrees o r offset :=
      s.map_readBuf_iff hb (by omega) (by omega) hcap
    constructor
    · rintro ⟨r', buf', s', hrun', hr', hbytes⟩
      rw [hrun] at hrun'
      obtain ⟨rfl, rfl⟩ : (r : ℤ) = r' ∧ s.readBuf o buf offset r = buf' := by
        injection hrun' with hval
        exact Prod.mk.inj hval
      rw [Int.toNat_natCast] at hbytes
      exact Or.inr (Or.inr (Or.inr (hiff.mp hbytes)))
    · intro hcond
      have hagree : s.FirstPieceAgrees o r offset := by
        rcases hcond with h0 | h0 | h0 | h0
        · intro i _
          rw [h0, Nat.sub_zero]
        · exact absurd (Or.inr h0) hnone
        · exact absurd (Or.inl h0) hnone
        · exact h0
      refine ⟨r, s.readBuf o buf offset r, { s with preads := k' }, hrun, by omega, ?_⟩
      rw [Int.toNat_natCast]
      exact hiff.mpr hagree

/-- **A read returns the file exactly when its first piece is right**: it
starts on a cluster boundary, or there is nothing to read, or the piece happens
to hold the bytes the cluster starts with. The path leads to the entry `e`, which
heads the chain `o`. -/
theorem fatRead_readsContents_iff (hr : env.ReadsFull) (h : s.Owns p)
    (hpath : s.Leads env p.owners dirs toks pl name e)
    (ho : o ∈ p.owners) (hhead : o.headD endOfChain = e.firstCluster.toNat)
    (hlen : max 1 ((e.size.toNat + s.superblock.bytePerCluster - 1)
      / s.superblock.bytePerCluster) ≤ o.length)
    (hsize : size < 2 ^ 31) :
    s.ReadsContents env o e (pathOf (toks ++ [name])) buf size offset
    ↔ offset % s.superblock.bytePerCluster = 0 ∨ size = 0 ∨ e.size.toNat ≤ offset
      ∨ s.FirstPieceAgrees o (min size (e.size.toNat - offset)) offset := by
  obtain ⟨k, hfind⟩ := (hpath.reads_find h hr fun _ hd => hd).run
  exact h.readsContents_iff hr ho hhead (le_mul_of_pages_le h.geometry.page_pos
    (Nat.le_trans (Nat.le_max_right _ _) hlen)) hfind hsize

theorem Server.fileBuf_oneFile {n : UInt32} {data : Buf} {i : ℕ} (hi : i < 4096) :
    (oneFile n data).fileBuf [5] i = data i := by
  rw [fileBuf, bytePerCluster_oneFile, paged_cons_of_lt hi, cluster_oneFile hi]

/-- The two bytes of a file: `1`, then `2`. -/
def twoBytes : Buf := fun i => if i = 0 then 1 else 2

/-- Both bytes, read from the start. -/
theorem fatRead_readsContents_oneFile :
    (Server.oneFile 2 twoBytes).ReadsContents .ideal [5] (oneEntry 2) onePath
      (fun _ => 0) 2 0 := by
  exact (fatRead_readsContents_iff Env.ideal_reliable.reads (Server.owns_oneFile 2 twoBytes)
    (Server.leads_oneFile Server.root_mem_owners .ideal 2 twoBytes) Server.file_mem_onePool rfl
    (by rw [Server.bytePerCluster_oneFile]; decide) (by decide)).mpr (Or.inl rfl)

/-- **The second byte, read on its own**, is returned as the first. -/
theorem fatRead_oneFile_wrong :
    (Server.oneFile 2 twoBytes).Owns Server.onePool
      ∧ [5] ∈ Server.onePool.owners ∧ [5].headD endOfChain = (oneEntry 2).firstCluster.toNat
      ∧ (Server.oneFile 2 twoBytes).Leads .ideal Server.onePool.owners {[4]} [] [4] oneName
        (oneEntry 2)
      ∧ ¬ (Server.oneFile 2 twoBytes).ReadsContents .ideal [5] (oneEntry 2) onePath
        (fun _ => 0) 1 1 := by
  obtain ⟨k, hk⟩ := (Server.find_oneFile Env.ideal_reliable.reads 2 twoBytes).run
  have ho := Server.owns_oneFile 2 twoBytes
  refine ⟨ho, Server.file_mem_onePool, rfl,
    Server.leads_oneFile Server.root_mem_owners .ideal 2 twoBytes, ?_⟩
  rw [ho.readsContents_iff Env.ideal_reliable.reads Server.file_mem_onePool rfl
    (by rw [Server.bytePerCluster_oneFile]; decide) hk (by decide),
    Server.bytePerCluster_oneFile]
  rintro (h | h | h | h)
  · exact absurd h (by decide)
  · exact absurd h (by decide)
  · exact absurd h (by decide)
  · have h0 := h 0 (by rw [Server.bytePerCluster_oneFile]; decide)
    rw [Server.bytePerCluster_oneFile, Server.fileBuf_oneFile (by decide),
      Server.fileBuf_oneFile (by decide)] at h0
    exact absurd h0 (by decide)

end Fat
