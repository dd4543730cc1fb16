import LLPFilesystem.FatCreation
import LLPFilesystem.FatTruncate
import Mathlib.Logic.Relation

/-!
# A file over its life

What `fat_mknod` makes is a file at a path (`Server.FileAt`): the path leads to
its directory, its entry lies inside a cluster, and the clusters of its chain
hold what its size says. `fat_write` and `fat_truncate` take such a file to such
a file, whether what they need is granted or refused, so a run of them never
leaves it (`FileOp`, `FileStep`).

A `fat_mknod` whose entry would land in the slot that sticks out of its cluster
does not return, so whatever file it has made has its entry inside.
-/

namespace Fat

variable {env : Env} {s t u : Server} {c k n size offset : ℕ} {f l o pl : List ℕ}
  {os dirs : Multiset (List ℕ)} {x y : ℕ × ℕ} {e e' : FatDirEntry} {buf : Buf}
  {name path : List UInt8} {toks : List (List UInt8)} {r : ℤ}

/-- **A file at the path of `toks` and `name`**: `pl` is the chain of its
directory, `x` the slot of its entry `e` there, `o` its own chain, which its
size does not exceed, and `f` the free list. -/
structure Server.FileAt (s : Server) (env : Env) (toks : List (List UInt8))
    (name : List UInt8) (f o : List ℕ) (os dirs : Multiset (List ℕ)) (pl : List ℕ)
    (x : ℕ × ℕ) (e : FatDirEntry) : Prop where
  file : s.HasFile env f o os pl x e
  covers : e.size.toNat ≤ o.length * s.superblock.bytePerCluster
  nameStr_eq : e.nameStr = name
  names : ∀ x ∈ toks, IsName x
  isName : IsName name
  dirs_owned : ∀ l ∈ dirs, l ∈ os
  parent : pl ∈ dirs
  walk : ∃ r ∈ dirs, r.headD endOfChain = s.superblock.rootClusterStart
    ∧ s.Walk env dirs toks r pl

/-- **A write leaves the other slots of the directories alone.** -/
theorem Server.Written.slotEntry_other (hw : s.Written t env f o os x e k buf size offset)
    (h : s.HasFile env f o os pl x e) (hl : l ∈ os) (hy : y ∈ s.slots l) (hne : y ≠ x) :
    t.slotEntry env y = s.slotEntry env y := by
  have hyl : y.1 ∈ l := (mem_slots.mp hy).1
  obtain ⟨hdata, hyo, hyf⟩ := h.of_other hl hyl
  exact slotEntry_congr hw.bytePerCluster (fun i hi hi' hlt =>
    hw.clusters y.1 hdata hyo (hyf _) i hlt (slots_disjoint h.slot hy hne hi hi'))

/-- Shrinking leaves the other slots of the directories alone. -/
theorem Server.Shrunk.slotEntry_other (hs : s.Shrunk t env f o os x e n)
    (h : s.HasFile env f o os pl x e) (hl : l ∈ os) (hy : y ∈ s.slots l) (hne : y ≠ x) :
    t.slotEntry env y = s.slotEntry env y :=
  slotEntry_congr hs.bytePerCluster (fun i hi hi' hlt =>
    hs.clusters y.1 (h.owns.owner_data (Multiset.mem_cons_of_mem hl) (mem_slots.mp hy).1)
      i hlt (slots_disjoint h.slot hy hne hi hi'))

namespace Server.FileAt

/-- More reads do not matter. -/
theorem preads (h : s.FileAt env toks name f o os dirs pl x e) (k : ℕ) :
    ({ s with preads := k } : Server).FileAt env toks name f o os dirs pl x e := by
  obtain ⟨r, hr, hroot, hw⟩ := h.walk
  have hf := h.file
  exact ⟨⟨hf.owns.preads k, hf.parent, hf.head, hf.found, hf.entry, hf.inside, hf.type⟩,
    h.covers, h.nameStr_eq, h.names, h.isName, h.dirs_owned, h.parent,
    ⟨r, hr, hroot, hw.preads k⟩⟩

theorem readTo (h : s.FileAt env toks name f o os dirs pl x e) (ht : s.ReadTo t) :
    t.FileAt env toks name f o os dirs pl x e := by
  obtain ⟨k, rfl⟩ := ht
  exact h.preads k

/-- **The path leads to the entry.** -/
theorem lookupTarget_run (h : s.FileAt env toks name f o os dirs pl x e)
    (hr : env.ReadsFull) :
    ∃ k, (lookupTarget (pathOf (toks ++ [name]))).run env s
      = .ok (pl.headD endOfChain, e) { s with preads := k } := by
  obtain ⟨r, -, hroot, hw⟩ := h.walk
  have hlook : s.lookup env pl name = some e := h.nameStr_eq ▸ h.file.lookup
  exact (reads_lookupTarget h.file.owns hr
    (fun l hl => Multiset.mem_cons_of_mem (h.dirs_owned l hl)) h.isName h.names hroot hw
    h.parent hlook).run

/-- **The path resolves to the entry.** -/
theorem reads_find (h : s.FileAt env toks name f o os dirs pl x e) (hr : env.ReadsFull) :
    s.Reads env (findDirEntryByPath (pathOf (toks ++ [name]))) (some e) := by
  obtain ⟨r, -, hroot, hw⟩ := h.walk
  have hlook : s.lookup env pl name = some e := h.nameStr_eq ▸ h.file.lookup
  rw [← hlook]
  exact reads_findDirEntryByPath h.file.owns hr
    (fun l hl => Multiset.mem_cons_of_mem (h.dirs_owned l hl)) h.isName h.names hroot hw
    h.parent

/-- **A file whose entry is rewritten under its name** is at the path again. -/
theorem rewritten {f' o' : List ℕ} (h : s.FileAt env toks name f o os dirs pl x e)
    (hfile : t.HasFile env f' o' os pl x e') (hname : e'.nameStr = e.nameStr)
    (hcovers : e'.size.toNat ≤ o'.length * t.superblock.bytePerCluster)
    (hsb : ∃ v, t.superblock = (s.setFree v).superblock)
    (hothers : ∀ l ∈ os, ∀ y ∈ s.slots l, y ≠ x → t.slotEntry env y = s.slotEntry env y) :
    t.FileAt env toks name f' o' os dirs pl x e' := by
  obtain ⟨v, hv⟩ := hsb
  have hb := Server.bytePerCluster_of_setFree ⟨v, hv⟩
  obtain ⟨r, hr, hroot, hw⟩ := h.walk
  refine ⟨hfile, hcovers, hname.trans h.nameStr_eq, h.names, h.isName, h.dirs_owned,
    h.parent, r, hr, ?_, ?_⟩
  · rw [hroot, hv]
    rfl
  · refine hw.map (g := id) (fun l hl => hl) (fun l => rfl)
      (fun l hl tok _ e₁ htype hlook => ?_)
    have hl' := h.dirs_owned l hl
    rw [← hlook]
    refine Server.lookup_congr hb (fun y hy => ?_)
    by_cases hyx : y = x
    · -- the file's own slot: its name leads to a file, and no path goes through it
      refine Or.inr ?_
      rw [hyx, hfile.entry, h.file.entry, hname, and_self, h.nameStr_eq]
      rintro rfl
      have hlp : l = pl := by
        by_contra hne
        have hmem : l ∈ os.erase pl := (Multiset.mem_erase_of_ne hne).mpr hl'
        have hos : os = pl ::ₘ os.erase pl := (Multiset.cons_erase h.file.parent).symm
        have hnd := h.file.owns.nodup
        rw [hos, Multiset.cons_swap] at hnd
        rw [hyx] at hy
        exact Pool.notMem_other hnd h.file.slot_mem l (Multiset.mem_cons_of_mem hmem)
          (Server.mem_slots.mp hy).1
      have hfound : s.lookup env pl name = some e := h.nameStr_eq ▸ h.file.lookup
      rw [hlp, hfound] at hlook
      obtain rfl := Option.some.inj hlook
      rw [h.file.type] at htype
      exact absurd htype (by decide)
    · exact Or.inl (hothers l hl' y hy hyx)

/-! ### What an operation does -/

/-- **What `update_file` does** when it returns: it writes, or the free list is
too short and nothing happens. -/
theorem updateFile_cases (h : s.FileAt env toks name f o os dirs pl x e)
    (hr : env.Reliable) (hsize : 0 < size) (hsum : offset + size < 2 ^ 32)
    (hrun : (updateFile (pl.headD endOfChain) e buf size offset).run env s = .ok r t) :
    s.lacking o (offset + size) ≤ f.length ∧ r = size
        ∧ s.Written t env f o os x e (s.lacking o (offset + size)) buf size offset
      ∨ f.length < s.lacking o (offset + size) ∧ r = -enomem ∧ t = s := by
  have hfile := h.file
  have hfinal : finalByteToWrite size offset = offset + size - 1 := by
    rw [finalByteToWrite_eq hsize, Nat.mod_eq_of_lt (by omega)]
  have hlack : s.lacking o (offset + size)
      = (offset + size - 1) / s.superblock.bytePerCluster + 1 - o.length := rfl
  set need := (offset + size - 1) / s.superblock.bytePerCluster + 1 with hneed
  rcases Nat.lt_trichotomy need (o.length + f.length + 1) with hlt | heq | hgt
  · obtain ⟨t', hrun', hw⟩ := updateFile_run hr hfile buf hsize hsum (by omega)
    rw [hrun] at hrun'
    obtain ⟨rfl, rfl⟩ := Outcome.ok.inj hrun'
    exact Or.inl ⟨by omega, rfl, hw⟩
  · have hstop : (updateFile (pl.headD endOfChain) e buf size offset).run env s
        = .stop .outOfBounds s :=
      updateFile_stop hfile.owns hfile.head hfile.type (by rw [hfinal, ← hneed, heq]) buf
    rw [hrun] at hstop
    cases hstop
  · have href : (updateFile (pl.headD endOfChain) e buf size offset).run env s
        = .ok (-enomem) s :=
      updateFile_refused hfile.owns hfile.head hfile.type (by rw [hfinal]; exact hgt) buf
    rw [hrun] at href
    obtain ⟨rfl, rfl⟩ := Outcome.ok.inj href
    exact Or.inr ⟨by omega, rfl, rfl⟩

/-- **What `fat_write` does** when it returns. -/
theorem fatWrite_cases (h : s.FileAt env toks name f o os dirs pl x e)
    (hr : env.Reliable) (hsize : 0 < size) (hsum : offset + size < 2 ^ 32)
    (hrun : (fatWrite (pathOf (toks ++ [name])) buf size offset).run env s = .ok r t) :
    s.lacking o (offset + size) ≤ f.length ∧ r = size
        ∧ s.Written t env f o os x e (s.lacking o (offset + size)) buf size offset
      ∨ f.length < s.lacking o (offset + size) ∧ r = -enomem ∧ s.ReadTo t := by
  obtain ⟨k, hk⟩ := h.lookupTarget_run hr.reads
  rw [fatWrite, Prog.bind_ok _ hk] at hrun
  rcases (h.preads k).updateFile_cases hr hsize hsum hrun with ⟨hf, hres, hw⟩ | ⟨hf, hres, ht⟩
  · exact Or.inl ⟨hf, hres, hw.owns, hw.superblock, hw.bytes, hw.links, hw.clusters, hw.entry⟩
  · exact Or.inr ⟨hf, hres, k, ht⟩

/-- A write that the free list has room for returns. -/
theorem fatWrite_run (h : s.FileAt env toks name f o os dirs pl x e) (hr : env.Reliable)
    (hsize : 0 < size) (hsum : offset + size < 2 ^ 32)
    (hf : s.lacking o (offset + size) ≤ f.length) (buf : Buf) :
    ∃ t, (fatWrite (pathOf (toks ++ [name])) buf size offset).run env s = .ok (size : ℤ) t := by
  obtain ⟨k, hk⟩ := h.lookupTarget_run hr.reads
  have hle := s.le_lacking o (offset + size)
  obtain ⟨t, hrun, -⟩ := updateFile_run hr (h.preads k).file buf hsize hsum (by
    show (offset + size - 1) / s.superblock.bytePerCluster + 1 ≤ _
    omega)
  refine ⟨t, ?_⟩
  rw [fatWrite, Prog.bind_ok _ hk]
  exact hrun

/-- **What `fat_truncate` does and returns**: nothing, or it writes zeros behind the end of
the file, or the free list is too short for that, or it shrinks the file. A refusal is
reported, unless the number of the zeros looks like the error number. -/
theorem fatTruncate_outcome (h : s.FileAt env toks name f o os dirs pl x e)
    (hr : env.Reliable) (hn : n < 2 ^ 32)
    (hrun : (fatTruncate (pathOf (toks ++ [name])) n).run env s = .ok r t) :
    s.ReadTo t ∧ n = e.size.toNat ∧ r = 0
      ∨ s.ReadTo t ∧ e.size.toNat < n ∧ f.length < s.lacking o n
        ∧ r = (if i32 (n - e.size.toNat) = -enomem then 0 else -1)
      ∨ e.size.toNat < n ∧ s.lacking o n ≤ f.length ∧ r = 0
        ∧ s.Written t env f o os x e (s.lacking o n) (fun _ => 0) (n - e.size.toNat)
          e.size.toNat
      ∨ n < e.size.toNat ∧ r = 0 ∧ s.Shrunk t env f o os x e n := by
  obtain ⟨k, hk⟩ := h.lookupTarget_run hr.reads
  have h' := h.preads k
  rw [fatTruncate, Prog.bind_ok _ hk] at hrun
  dsimp only at hrun
  unfold truncateFile at hrun
  rcases Nat.lt_trichotomy n e.size.toNat with hlt | rfl | hgt
  · rw [if_neg (Nat.ne_of_lt hlt), if_neg (Nat.lt_asymm hlt)] at hrun
    obtain ⟨t', hrun', hs⟩ := shrinkFile_run hr h'.file hlt h'.covers
    rw [hrun] at hrun'
    obtain ⟨rfl, rfl⟩ := Outcome.ok.inj hrun'
    exact Or.inr (Or.inr (Or.inr ⟨hlt, rfl, hs.owns, hs.superblock, hs.links, hs.clusters,
      hs.entry⟩))
  · rw [if_pos rfl] at hrun
    obtain ⟨rfl, rfl⟩ := Outcome.ok.inj hrun
    exact Or.inl ⟨⟨k, rfl⟩, rfl, rfl⟩
  · rw [if_neg (Nat.ne_of_gt hgt), if_pos hgt] at hrun
    have hsum : e.size.toNat + (n - e.size.toNat) = n := by omega
    have hzeros : sub32 (u32 n) e.size.toNat = n - e.size.toNat := by
      rw [u32_of_lt hn, sub32_of_le hn (Nat.le_of_lt hgt)]
    rw [extendFile, hzeros] at hrun
    obtain ⟨r', t', hup, hret⟩ := Prog.bind_eq_ok_iff.mp hrun
    obtain ⟨rfl, rfl⟩ := Outcome.ok.inj hret
    have hcases := h'.updateFile_cases hr (by omega) (by rw [hsum]; exact hn) hup
    rw [hsum] at hcases
    rcases hcases with ⟨hf, rfl, hw⟩ | ⟨hf, rfl, ht⟩
    · -- what has been written fits on the disk, so its size is no negative number
      have hw' : s.Written t' env f o os x e (s.lacking o n) (fun _ => 0) (n - e.size.toNat)
          e.size.toNat :=
        ⟨hw.owns, hw.superblock, hw.bytes, hw.links, hw.clusters, hw.entry⟩
      have hcap : n < 2 ^ 31 := by
        refine Nat.lt_of_le_of_lt ?_ hw.owns.bytes_lt
        rw [hw.bytePerCluster]
        exact Server.le_of_lacking h.file.owns.geometry.page_pos hf
      refine Or.inr (Or.inr (Or.inl ⟨hgt, hf, ?_, hw'⟩))
      rw [i32_of_lt (by omega), if_pos rfl]
    · refine Or.inr (Or.inl ⟨⟨k, ht⟩, hgt, hf, ?_⟩)
      simp only [eq_comm]

/-- **What `fat_truncate` does** when it returns: nothing, or it writes zeros
behind the end of the file, or it shrinks the file. -/
theorem fatTruncate_cases (h : s.FileAt env toks name f o os dirs pl x e)
    (hr : env.Reliable) (hn : n < 2 ^ 32)
    (hrun : (fatTruncate (pathOf (toks ++ [name])) n).run env s = .ok r t) :
    s.ReadTo t ∧ e.size.toNat ≤ n
      ∨ e.size.toNat < n ∧ s.lacking o n ≤ f.length
        ∧ s.Written t env f o os x e (s.lacking o n) (fun _ => 0) (n - e.size.toNat)
          e.size.toNat
      ∨ n < e.size.toNat ∧ s.Shrunk t env f o os x e n := by
  rcases h.fatTruncate_outcome hr hn hrun with
    ⟨ht, hne, -⟩ | ⟨ht, hlt, -⟩ | ⟨hlt, hf, -, hw⟩ | ⟨hlt, -, hs⟩
  · exact Or.inl ⟨ht, Nat.le_of_eq hne.symm⟩
  · exact Or.inl ⟨ht, Nat.le_of_lt hlt⟩
  · exact Or.inr (Or.inl ⟨hlt, hf, hw⟩)
  · exact Or.inr (Or.inr ⟨hlt, hs⟩)

/-- Shrinking returns. -/
theorem fatTruncate_run (h : s.FileAt env toks name f o os dirs pl x e) (hr : env.Reliable)
    (hn : n < e.size.toNat) :
    ∃ t, (fatTruncate (pathOf (toks ++ [name])) n).run env s = .ok 0 t := by
  obtain ⟨k, hk⟩ := h.lookupTarget_run hr.reads
  obtain ⟨t, hrun, -⟩ := shrinkFile_run hr (h.preads k).file hn h.covers
  refine ⟨t, ?_⟩
  rw [fatTruncate, Prog.bind_ok _ hk]
  dsimp only
  rw [truncateFile, if_neg (Nat.ne_of_lt hn), if_neg (Nat.lt_asymm hn)]
  exact hrun

/-! ### The file afterwards -/

/-- The file after a write. -/
theorem written (h : s.FileAt env toks name f o os dirs pl x e)
    (hw : s.Written t env f o os x e (s.lacking o (offset + size)) buf size offset)
    (hf : s.lacking o (offset + size) ≤ f.length) :
    ∃ e', t.FileAt env toks name (f.drop (s.lacking o (offset + size)))
        (o ++ f.take (s.lacking o (offset + size))) os dirs pl x e'
      ∧ e'.size.toNat = max e.size.toNat (offset + size) := by
  obtain ⟨time, hfile⟩ := hw.hasFile h.file
  have hb := h.file.owns.geometry.page_pos
  have hnew := Server.le_of_lacking hb hf
  have hold : e.size.toNat ≤ (o ++ f.take (s.lacking o (offset + size))).length
      * s.superblock.bytePerCluster := by
    refine Nat.le_trans h.covers (Nat.mul_le_mul_right _ ?_)
    rw [List.length_append]
    exact Nat.le_add_right _ _
  have hmax := Nat.max_le.mpr ⟨hold, hnew⟩
  have hcap : max e.size.toNat (offset + size) < 2 ^ 32 := by
    refine Nat.lt_of_le_of_lt hmax (Nat.lt_trans ?_ (show 2 ^ 31 < 2 ^ 32 by decide))
    rw [← hw.bytePerCluster]
    exact hw.owns.bytes_lt
  have hsize : (UInt32.ofNat (max e.size.toNat (offset + size))).toNat
      = max e.size.toNat (offset + size) := UInt32.toNat_ofNat_of_lt' hcap
  refine ⟨_, h.rewritten hfile (FatDirEntry.nameStr_file_congr h.file.type rfl rfl) ?_
    hw.superblock (fun l hl y hy hne => hw.slotEntry_other h.file hl hy hne), hsize⟩
  rw [hw.bytePerCluster]
  exact hsize.symm ▸ hmax

/-- The file after an extension. -/
theorem extended (h : s.FileAt env toks name f o os dirs pl x e)
    (hw : s.Written t env f o os x e (s.lacking o n) (fun _ => 0) (n - e.size.toNat)
      e.size.toNat) (hf : s.lacking o n ≤ f.length) (hn : e.size.toNat < n) :
    ∃ e', t.FileAt env toks name (f.drop (s.lacking o n)) (o ++ f.take (s.lacking o n))
        os dirs pl x e'
      ∧ e'.size.toNat = n := by
  obtain ⟨m, rfl⟩ : ∃ m, n = e.size.toNat + m := ⟨n - e.size.toNat, by omega⟩
  rw [Nat.add_sub_cancel_left] at hw
  obtain ⟨e', he', hsize⟩ := h.written hw hf
  exact ⟨e', he', hsize.trans (Nat.max_eq_right (Nat.le_add_right _ _))⟩

/-- The file after shrinking. -/
theorem shrunk (h : s.FileAt env toks name f o os dirs pl x e)
    (hs : s.Shrunk t env f o os x e n) (hn : n < e.size.toNat) :
    ∃ e', t.FileAt env toks name (o.drop (n / s.superblock.bytePerCluster + 1) ++ f)
        (o.take (n / s.superblock.bytePerCluster + 1)) os dirs pl x e'
      ∧ e'.size.toNat = n := by
  have hb := h.file.owns.geometry.page_pos
  have hsize : (UInt32.ofNat n).toNat = n :=
    UInt32.toNat_ofNat_of_lt' (Nat.lt_trans hn e.size.toNat_lt)
  have hlt := Nat.lt_mul_div_succ n hb
  rw [Nat.mul_comm] at hlt
  refine ⟨_, h.rewritten (hs.hasFile h.file)
    (FatDirEntry.nameStr_file_congr h.file.type rfl rfl) ?_ hs.superblock
    (fun l hl y hy hne => hs.slotEntry_other h.file hl hy hne), hsize⟩
  rw [hs.bytePerCluster, List.length_take_of_le (h.file.div_lt_length hn h.covers)]
  exact hsize.symm ▸ Nat.le_of_lt hlt

end Server.FileAt

/-! ## Runs -/

/-- **An operation on one file.** -/
inductive FileOp where
  /-- Write the first `size` bytes of the buffer at `offset`. -/
  | write (buf : Buf) (size offset : ℕ)
  /-- Set the length. -/
  | truncate (size : ℕ)

namespace FileOp

/-- The code that performs an operation on the file at a path. -/
def code (path : List UInt8) : FileOp → FatM ℤ
  | write buf size offset => fatWrite path buf size offset
  | truncate size => fatTruncate path size

/-- Something is written, and all ranges are below `2 ^ 32`. -/
def InRange : FileOp → Prop
  | write _ size offset => 0 < size ∧ offset + size < 2 ^ 32
  | truncate size => size < 2 ^ 32

end FileOp

/-- One operation on the file at a path, granted or refused. -/
def FileStep (env : Env) (path : List UInt8) (s t : Server) : Prop :=
  ∃ op : FileOp, ∃ r, op.InRange ∧ (op.code path).run env s = .ok r t

/-- **An operation leaves a file at the path.** -/
theorem Server.FileAt.step (h : s.FileAt env toks name f o os dirs pl x e)
    (hr : env.Reliable) (hstep : FileStep env (pathOf (toks ++ [name])) s t) :
    ∃ f' o' e', t.FileAt env toks name f' o' os dirs pl x e' := by
  obtain ⟨op, r, hop, hrun⟩ := hstep
  cases op with
  | write buf size offset =>
    rcases h.fatWrite_cases hr hop.1 hop.2 hrun with ⟨hf, -, hw⟩ | ⟨-, -, ht⟩
    · obtain ⟨e', he', -⟩ := h.written hw hf
      exact ⟨_, _, e', he'⟩
    · exact ⟨f, o, e, h.readTo ht⟩
  | truncate n =>
    rcases h.fatTruncate_cases hr hop hrun with ⟨ht, -⟩ | ⟨hn, hf, hw⟩ | ⟨hn, hs⟩
    · exact ⟨f, o, e, h.readTo ht⟩
    · obtain ⟨e', he', -⟩ := h.extended hw hf hn
      exact ⟨_, _, e', he'⟩
    · obtain ⟨e', he', -⟩ := h.shrunk hs hn
      exact ⟨_, _, e', he'⟩

/-- **A run leaves a file at the path.** -/
theorem Server.FileAt.run (h : s.FileAt env toks name f o os dirs pl x e)
    (hr : env.Reliable)
    (hrun : Relation.ReflTransGen (FileStep env (pathOf (toks ++ [name]))) s t) :
    ∃ f' o' e', t.FileAt env toks name f' o' os dirs pl x e' := by
  induction hrun with
  | refl => exact ⟨f, o, e, h⟩
  | tail _ hstep ih =>
    obtain ⟨f', o', e', h'⟩ := ih
    exact h'.step hr hstep

/-! ## Making the file -/

/-- The name is not found. -/
theorem Server.HasParent.reads_find (h : s.HasParent env f os dirs toks pl name)
    (hr : env.ReadsFull) :
    s.Reads env (findDirEntryByPath (pathOf (toks ++ [name]))) none := by
  obtain ⟨r, -, hroot, hw⟩ := h.walk
  rw [← h.absent]
  exact reads_findDirEntryByPath h.owns hr h.dirs_owned h.isName h.names hroot hw h.parent

/-- The parent directory, when no slot of a directory has changed. -/
theorem Server.HasParent.of_slots {f' : List ℕ} {os' : Multiset (List ℕ)}
    (h : s.HasParent env f os dirs toks pl name) (howns : t.Owns ⟨f', os'⟩)
    (hos : ∀ l ∈ os, l ∈ os') (hsb : ∃ v, t.superblock = (s.setFree v).superblock)
    (hslots : ∀ l ∈ os, ∀ y ∈ s.slots l, t.slotEntry env y = s.slotEntry env y) :
    t.HasParent env f' os' dirs toks pl name := by
  obtain ⟨v, hv⟩ := hsb
  have hb := Server.bytePerCluster_of_setFree ⟨v, hv⟩
  have hlook : ∀ l ∈ dirs, ∀ n, t.lookup env l n = s.lookup env l n := fun l hl n =>
    Server.lookup_congr hb (fun y hy => Or.inl (hslots l (h.dirs_owned l hl) y hy))
  obtain ⟨r, hr, hroot, hw⟩ := h.walk
  refine ⟨howns, fun l hl => hos l (h.dirs_owned l hl), h.names, h.isName,
    ⟨r, hr, by rw [hroot, hv]; rfl, ?_⟩, h.parent, (hlook pl h.parent name).trans h.absent⟩
  exact hw.map (g := id) (fun l hl => hl) (fun l => rfl)
    (fun l hl tok _ e _ he => (hlook l hl tok).trans he)

/-- **What an insertion that fits has made** is a file at the path, of size zero,
whose cluster is zeroed. -/
theorem Server.Made.fileAt {d : ℕ} (hm : s.Made t env f pl os d x k name dirEntryTypeFile)
    (h : s.HasParent env (d :: f) (pl ::ₘ os) dirs toks pl name) (hn : NameFits name) :
    t.FileAt env toks name (f.drop k) [d] ((pl ++ f.take k) ::ₘ os)
        (dirs.map (grownDir pl (f.take k))) (pl ++ f.take k) x (t.slotEntry env x)
      ∧ (t.slotEntry env x).size = 0
      ∧ ∀ i < s.superblock.bytePerCluster, t.cluster d i = 0 := by
  obtain ⟨hname, htype, hsize, hfirst⟩ := hm.slotEntry hn h.isName.noZero
  have hd : s.superblock.IsData d := h.owns.free_data List.mem_cons_self
  have hslots := Server.slots_congr (l := pl ++ f.take k) hm.filled.bytePerCluster
  obtain ⟨r, hr, hroot, hw⟩ := h.walk
  obtain ⟨v, hv⟩ := hm.superblock
  refine ⟨⟨⟨hm.owns, Multiset.mem_cons_self _ _, ?_, ?_, rfl, ?_, htype⟩,
    ?_, hname, h.names, h.isName, fun l hl => ?_, ?_, ?_⟩, hsize, hm.zero (by decide)⟩
  · rw [hfirst]
    exact (Nat.mod_eq_of_lt (Nat.lt_trans hd.2
      (Nat.lt_trans h.owns.geometry.clusterCount_lt (by decide)))).symm
  · refine Server.findSlot_of_unique (hslots ▸ hm.filled.slot) (beq_self_eq_true _)
      (fun y hy hyn => ?_)
    rw [hslots] at hy
    exact hm.filled.eq_of_nameStr h.isName.ne_nil h.absent hy ((eq_of_beq hyn).trans hname)
  · show x.2 + dirEntrySize ≤ t.superblock.bytePerCluster
    rw [hm.filled.bytePerCluster]
    exact hm.inside
  · rw [hsize]
    exact Nat.zero_le _
  · obtain ⟨l₀, hl₀, rfl⟩ := Multiset.mem_map.mp hl
    unfold grownDir
    split
    · exact Multiset.mem_cons_self _ _
    · next hlp =>
      exact Multiset.mem_cons_of_mem
        ((Multiset.mem_cons.mp (h.dirs_owned l₀ hl₀)).resolve_left hlp)
  · rw [← grownDir_self]
    exact Multiset.mem_map_of_mem _ h.parent
  · refine ⟨_, Multiset.mem_map_of_mem _ hr, ?_, hm.walk h hname hw⟩
    rw [headD_grownDir h.parent_ne_nil, hroot, hv]
    rfl

/-- **A file that `fat_mknod` has made**, if it is found at the path afterwards: its
size is zero, and its chain is one zeroed cluster. -/
theorem fatMknod_fileAt (hr : env.Reliable) (h : s.HasParent env f os dirs toks pl name)
    {mode : ℕ}
    (hrun : (fatMknod (pathOf (toks ++ [name])) mode).run env s = .ok r t)
    (hfound : (findDirEntryByPath (pathOf (toks ++ [name]))).run env t = .ok (some e) u) :
    ∃ f' d os' dirs' pl' x, t.FileAt env toks name f' [d] os' dirs' pl' x e
      ∧ e.size = 0 ∧ ∀ i < t.superblock.bytePerCluster, t.cluster d i = 0 := by
  -- nothing is found unless an entry has been made
  have hnone : ∀ {f' os'}, ¬ t.HasParent env f' os' dirs toks pl name := fun ht => by
    obtain ⟨k, hk⟩ := (ht.reads_find hr.reads).run
    rw [hfound] at hk
    cases hk
  by_cases hmode : sIsreg mode = true
  · rw [fatMknod, if_pos hmode, Prog.bind_ok _ (hasFreeCluster_run h.owns h.root_owned)] at hrun
    cases f with
    | nil =>
      obtain ⟨-, rfl⟩ := Outcome.ok.inj hrun
      exact absurd h hnone
    | cons d f =>
      obtain ⟨os', rfl⟩ := Multiset.exists_cons_of_mem (h.dirs_owned pl h.parent)
      obtain ⟨k₀, hk₀⟩ := h.addDirEntry_run hr.reads dirEntryTypeFile
      have h₀ := h.preads k₀
      rw [decide_eq_true (List.cons_ne_nil d f), if_pos rfl, hk₀] at hrun
      by_cases hroom : NameFits name ∧ (s.findSlot env pl FatDirEntry.isFree = none → f ≠ [])
      · obtain ⟨hn, hf⟩ := hroom
        -- the creation has returned, so it has not met a slot that sticks out
        have hin : ∀ x, s.findSlot env pl FatDirEntry.isFree = some x → s.Inside x := by
          intro x hx
          by_contra hout
          obtain ⟨t', hstop⟩ := createEntry_outside hr h₀.owns hn hx hout dirEntryTypeFile
          rw [hrun] at hstop
          cases hstop
        obtain ⟨t', x, k, hrun', hm, -⟩ :=
          createEntry_made hr h₀.owns h₀.root_owned hn hin hf dirEntryTypeFile
        rw [hrun] at hrun'
        obtain ⟨-, rfl⟩ := Outcome.ok.inj hrun'
        obtain ⟨hfile, hsize, hzero⟩ := hm.fileAt h₀ hn
        -- the entry that is found is the one that was made
        obtain ⟨k', hk'⟩ := (hfile.reads_find hr.reads).run
        rw [hfound] at hk'
        obtain ⟨he, -⟩ := Outcome.ok.inj hk'
        obtain rfl := Option.some.inj he
        exact ⟨_, d, _, _, _, x, hfile, hsize, fun i hi => hzero i (by
          rw [← hm.filled.bytePerCluster]
          exact hi)⟩
      · have hfail : NameFits name →
            s.findSlot env pl FatDirEntry.isFree = none ∧ f = [] := fun hn => by
          by_contra hne
          exact hroom ⟨hn, fun hfull hf => hne ⟨hfull, hf⟩⟩
        obtain ⟨t', hrun', howns, hsb, hslots⟩ :=
          createEntry_failed hr h₀.owns h₀.root_owned hfail dirEntryTypeFile
        rw [hrun] at hrun'
        obtain ⟨-, rfl⟩ := Outcome.ok.inj hrun'
        exact absurd (h₀.of_slots howns (fun l hl => Multiset.mem_cons_of_mem hl) hsb hslots)
          hnone
  · rw [fatMknod, if_neg hmode] at hrun
    obtain ⟨-, rfl⟩ := Outcome.ok.inj hrun
    exact absurd h hnone

end Fat
