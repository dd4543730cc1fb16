import LLPFilesystem.FatScan
import LLPFilesystem.Pages

/-!
# The contents of a file

The contents of a file are its clusters, one after the other, cut at its
size (`Server.contents`). What a write does to them is `Server.Stored`: a
block of bytes is stored at a position of the file, and nothing else on the
disk or in the table changes. Stores of adjacent blocks compose
(`Server.Stored.trans`), which is how the phases of `update_file` add up to
one.
-/

namespace Fat

variable {env : Env} {s t u : Server} {c d i j n m off size offset : ℕ} {l o : List ℕ}
  {src buf : Buf}

namespace Server

/-- A chain of clusters, read as one piece of memory. -/
def fileBuf (s : Server) (l : List ℕ) : Buf := paged s.superblock.bytePerCluster s.cluster l

/-- **The contents of a file** of the given size: its clusters, one after the
other, cut at the size. -/
def contents (s : Server) (l : List ℕ) (size : ℕ) : List UInt8 :=
  (pagedList s.superblock.bytePerCluster s.cluster l).take size

theorem contents_eq (h : size ≤ l.length * s.superblock.bytePerCluster) :
    s.contents l size = (List.range size).map (s.fileBuf l) := take_pagedList h

/-- A range of the contents. -/
theorem take_drop_contents {n : ℕ} (h : offset + n ≤ size)
    (hlen : size ≤ o.length * s.superblock.bytePerCluster) :
    ((s.contents o size).drop offset).take n
      = (List.range n).map (fun i => s.fileBuf o (offset + i)) := by
  rw [contents_eq hlen]
  refine List.ext_getElem? (fun i => ?_)
  rcases Nat.lt_or_ge i n with hi | hi
  · rw [List.getElem?_take_of_lt hi, List.getElem?_drop]
    simp [hi, show offset + i < size by omega]
  · rw [List.getElem?_eq_none (by simp; omega), List.getElem?_eq_none (by simpa using hi)]

/-- **A block has been stored in a file**: `n` bytes of `src` at position
`off` of the chain `l`, and nothing else. -/
structure Stored (s t : Server) (l : List ℕ) (off : ℕ) (src : Buf) (n : ℕ) : Prop where
  superblock : t.superblock = s.superblock
  fatTable : t.fatTable = s.fatTable
  bytes : ∀ i < l.length * s.superblock.bytePerCluster,
    t.fileBuf l i = (s.fileBuf l).blit off src n i
  others : ∀ c ∉ l, ∀ i < s.superblock.bytePerCluster, t.cluster c i = s.cluster c i

/-- A server with the same table has the same successors. -/
theorem next_eq_of_table (hsb : t.superblock = s.superblock)
    (hfat : t.fatTable = s.fatTable) (c : ℕ) : t.next c = s.next c := by
  unfold next
  rw [hsb, hfat]

/-- A server with the same table has the same chains. -/
theorem Chain.of_table (h : s.Chain c l) (hsb : t.superblock = s.superblock)
    (hfat : t.fatTable = s.fatTable) : t.Chain c l :=
  h.congr (fun d => by rw [hsb]) (fun d _ => next_eq_of_table hsb hfat d)

namespace Stored

/-- Nothing has been stored yet. -/
theorem refl (s : Server) (k : ℕ) (l : List ℕ) (off : ℕ) (src : Buf) :
    s.Stored { s with preads := k } l off src 0 where
  superblock := rfl
  fatTable := rfl
  bytes := fun i _ => by
    rw [Buf.blit_zero]
    rfl
  others := fun _ _ _ _ => rfl

/-- **Stores of adjacent blocks compose.** -/
theorem trans (h : s.Stored t l off src n) (h' : t.Stored u l (off + n) (src.shift n) m) :
    s.Stored u l off src (n + m) where
  superblock := h'.superblock.trans h.superblock
  fatTable := h'.fatTable.trans h.fatTable
  bytes := fun i hi => by
    rw [h'.bytes i (by rw [h.superblock]; exact hi), ← Buf.blit_blit]
    unfold Buf.blit
    split
    · rfl
    · exact h.bytes i hi
  others := fun c hc i hi =>
    (h'.others c hc i (by rw [h.superblock]; exact hi)).trans (h.others c hc i hi)

/-- A store depends on the bytes stored only. -/
theorem congr {src' : Buf} (h : s.Stored t l off src n) (hs : ∀ i < n, src' i = src i) :
    s.Stored t l off src' n :=
  ⟨h.superblock, h.fatTable, fun i hi => (h.bytes i hi).trans
    (congrFun (Buf.blit_congr hs).symm i), h.others⟩

/-- **Writing a cluster of the file** that holds the block in its place
stores the block. -/
theorem writeCluster (hw : env.WritesFull) (hl : l.Nodup) (hj : l[j]? = some c)
    (hn : off + n ≤ s.superblock.bytePerCluster) (k : ℕ)
    (hbuf : ∀ i < s.superblock.bytePerCluster,
      buf i = (s.cluster c).blit off src n i) :
    s.Stored (({ s with preads := k } : Server).writeCluster env buf c) l
      (j * s.superblock.bytePerCluster + off) src n where
  superblock := rfl
  fatTable := rfl
  bytes := fun _ hi => paged_blit hl hj hn
    (fun _ hi => (cluster_writeCluster (s := { s with preads := k }) hw hi).trans
      (hbuf _ hi))
    (fun _ _ hd _ hi => cluster_writeCluster_of_ne (s := { s with preads := k }) hd hi) hi
  others := fun _ hd _ hi => cluster_writeCluster_of_ne (s := { s with preads := k })
    (fun hdc => hd (hdc ▸ List.mem_of_getElem? hj)) hi

end Stored

end Server

end Fat
