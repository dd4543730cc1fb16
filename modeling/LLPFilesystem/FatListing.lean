import LLPFilesystem.Paging
import LLPFilesystem.FatOneFile
import LLPFilesystem.FatCreate

/-!
# Listing a directory in pages

`fat_readdir` hands the filler the name of each live entry, together with the
offset to resume at: 40 bytes for each slot up to and including the entry's. When
it resumes, it takes the offset apart in units of whole clusters instead. The two
agree if the entry size divides the cluster size, and as long as the offset lies
in the first cluster (`Server.Resumable`); then a listing in pages
lists every live entry once and in order, and ends (`listing_complete`).

Otherwise the last slot of a cluster sticks out, the first entry of the second
cluster gives an offset 24 bytes too far, and resuming reads between the slots.
-/

namespace Fat

open Paging

variable {env : Env} {s t : Server} {c d k n off tmp : ℕ} {f l m : List ℕ}
  {os : Multiset (List ℕ)} {x y : ℕ × ℕ} {xs ys : List (ℕ × ℕ)} {filler : Filler}
  {taken : List Listed} {buf : Buf} {path : List UInt8}

/-! ## What is offered -/

/-- **What the filler is offered** for a list of slots, from an offset on: the
names of the live entries, each with the offset behind its slot. -/
def Server.listed (s : Server) (env : Env) : List (ℕ × ℕ) → ℕ → List Listed
  | [], _ => []
  | x :: xs, offset =>
    if (s.slotEntry env x).isFree then s.listed env xs (offset + dirEntrySize)
    else ((s.slotEntry env x).nameStr, offset + dirEntrySize)
      :: s.listed env xs (offset + dirEntrySize)

/-- Free slots are not listed. -/
theorem Server.listed_of_free (h : ∀ x ∈ xs, (s.slotEntry env x).isFree = true) (off : ℕ) :
    s.listed env xs off = [] := by
  induction xs generalizing off with
  | nil => rfl
  | cons x xs ih =>
    rw [listed, if_pos (h x List.mem_cons_self)]
    exact ih (fun y hy => h y (List.mem_cons_of_mem _ hy)) _

theorem Server.listed_append (off : ℕ) :
    s.listed env (xs ++ ys) off
      = s.listed env xs off ++ s.listed env ys (off + dirEntrySize * xs.length) := by
  induction xs generalizing off with
  | nil => rfl
  | cons x xs ih =>
    have hlen : off + dirEntrySize + dirEntrySize * xs.length
        = off + dirEntrySize * (x :: xs).length := by
      rw [List.length_cons]
      ring
    rw [List.cons_append, listed, listed, ih, hlen]
    split
    · rfl
    · rfl

/-- The names that are offered are those of the live entries, in order. -/
theorem Server.listed_names (off : ℕ) :
    (s.listed env xs off).map Prod.fst
      = (xs.filter fun x => !(s.slotEntry env x).isFree).map
          fun x => (s.slotEntry env x).nameStr := by
  induction xs generalizing off with
  | nil => rfl
  | cons x xs ih =>
    rw [listed]
    split
    · next hfree => rw [ih, List.filter_cons_of_neg (by rw [hfree]; decide)]
    · next hfree =>
      rw [List.filter_cons_of_pos (by rw [Bool.eq_false_of_not_eq_true hfree]; rfl),
        List.map_cons, List.map_cons, ih]

/-- **Where a page ends**: if the offers are split, the rest is what is offered
from the resume offset of the last one on. -/
theorem Server.listed_split {ps qs : List Listed} {p : Listed}
    (h : s.listed env xs off = ps ++ p :: qs) :
    ∃ m ≤ xs.length, p.2 = off + dirEntrySize * m
      ∧ qs = s.listed env (xs.drop m) (off + dirEntrySize * m) := by
  induction xs generalizing off ps with
  | nil => exact absurd h.symm (by simp [listed])
  | cons x xs ih =>
    have hgo : ∀ m, off + dirEntrySize + dirEntrySize * m = off + dirEntrySize * (m + 1) :=
      fun m => by ring
    rw [listed] at h
    split at h
    · obtain ⟨m, hm, hp, hq⟩ := ih h
      rw [hgo] at hp hq
      exact ⟨m + 1, Nat.succ_le_succ hm, hp, hq⟩
    · cases ps with
      | nil =>
        obtain ⟨rfl, rfl⟩ := List.cons.inj h
        exact ⟨1, Nat.succ_le_succ (Nat.zero_le _), by rw [Nat.mul_one], by
          rw [Nat.mul_one]
          rfl⟩
      | cons q ps =>
        obtain ⟨-, h⟩ := List.cons.inj h
        obtain ⟨m, hm, hp, hq⟩ := ih h
        rw [hgo] at hp hq
        exact ⟨m + 1, Nat.succ_le_succ hm, hp, hq⟩

/-! ## The loops -/

/-- **One cluster**: the inner loop offers its slots. -/
theorem fillSlots_eq (filler : Filler) (buf : Buf) (ts : List ℕ) (off : ℕ)
    (taken : List Listed) (h : ∀ o ∈ ts, entryAt buf o = s.slotEntry env (c, o))
    (hoff : off + dirEntrySize * ts.length < 2 ^ 32) :
    (fillSlots filler buf ts off taken).1
        = (offer filler (s.listed env (ts.map (c, ·)) off) taken).1
    ∧ (fillSlots filler buf ts off taken).2.2
        = (offer filler (s.listed env (ts.map (c, ·)) off) taken).2
    ∧ ((fillSlots filler buf ts off taken).1 = true →
        (fillSlots filler buf ts off taken).2.1 = off + dirEntrySize * ts.length) := by
  induction ts generalizing off taken with
  | nil => exact ⟨rfl, rfl, fun _ => rfl⟩
  | cons o ts ih =>
    have hlen : off + dirEntrySize + dirEntrySize * ts.length
        = off + dirEntrySize * (o :: ts).length := by
      rw [List.length_cons]
      ring
    have hoff' : off + dirEntrySize + dirEntrySize * ts.length < 2 ^ 32 := hlen ▸ hoff
    have hstep : u32 (off + dirEntrySize) = off + dirEntrySize :=
      u32_of_lt (Nat.lt_of_le_of_lt (Nat.le_add_right _ _) hoff')
    have ih' := fun taken =>
      ih (off + dirEntrySize) taken (fun o ho => h o (List.mem_cons_of_mem _ ho)) hoff'
    rw [List.map_cons, fillSlots, Server.listed, h o List.mem_cons_self, hstep, ← hlen]
    by_cases hfree : (s.slotEntry env (c, o)).isFree = true
    · rw [if_pos hfree, if_pos hfree]
      exact ih' taken
    · rw [if_neg hfree, if_neg hfree]
      by_cases hacc : filler taken ((s.slotEntry env (c, o)).nameStr, off + dirEntrySize)
          = true
      · rw [if_pos hacc, offer_cons_accept hacc]
        exact ih' _
      · rw [if_neg hacc, offer_cons_refuse hacc]
        exact ⟨rfl, rfl, fun h => absurd h Bool.false_ne_true⟩

/-- The slots from an offset within the first cluster of a chain on, as the outer
loop visits them. -/
def Server.slotsAt (s : Server) (tmp : ℕ) : List ℕ → List (ℕ × ℕ)
  | [] => []
  | c :: l => (slotsFrom tmp s.superblock.bytePerCluster).map (c, ·) ++ s.slots l

theorem Server.slotsAt_zero : s.slotsAt 0 l = s.slots l := by
  cases l with
  | nil => rfl
  | cons c l =>
    have hslots : s.slots (c :: l)
        = (dirSlots s.superblock.bytePerCluster).map (c, ·) ++ s.slots l := List.flatMap_cons
    exact hslots.symm

/-- **The outer loop** offers the slots from an offset on. -/
theorem reads_readDirLoop (hr : env.ReadsFull) (hg : s.superblock.Geometry) {fuel : ℕ}
    (h : s.Chain c l) (hf : l.length < fuel)
    (hbuf : ∀ i, s.superblock.bytePerCluster ≤ i →
      buf i = env.heap (i - s.superblock.bytePerCluster))
    (hoff : off + dirEntrySize * (s.slotsAt tmp l).length < 2 ^ 32) :
    s.Reads env (readDirLoop filler fuel c buf tmp off taken)
      (offer filler (s.listed env (s.slotsAt tmp l) off) taken).2 := by
  induction fuel generalizing c l buf tmp off taken with
  | zero => exact absurd hf (Nat.not_lt_zero _)
  | succ fuel ih =>
    cases l with
    | nil =>
      obtain rfl : c = endOfChain := h.linked
      rw [readDirLoop, if_pos (show endOfChain = 0 from rfl)]
      exact .pure s env taken
    | cons a l =>
      obtain rfl : c = a := h.head_eq
      -- the buffer holds what the scans read
      have hcluster : buf.blit 0 (s.cluster c) s.superblock.bytePerCluster
          = s.clusterBuf env c := by
        funext i
        rcases Nat.lt_or_ge i s.superblock.bytePerCluster with hi | hi
        · rw [Buf.blit_of_mem (Nat.zero_le i) (by omega), Server.clusterBuf_of_lt hi,
            Nat.sub_zero]
        · rw [Buf.blit_of_le (by omega), hbuf i hi, Server.clusterBuf,
            if_neg (Nat.not_lt_of_le hi)]
      have hload : s.Reads env (readEntireClusterFromDisk buf c) (0, s.clusterBuf env c) := by
        intro k
        refine ⟨k + 1, ?_⟩
        rw [readEntireClusterFromDisk_full (s := { s with preads := k }) hr hg h.head_data.2]
        rw [← hcluster]
        rfl
      rw [Server.slotsAt, List.length_append, List.length_map] at hoff
      obtain ⟨h₁, h₂, h₃⟩ := fillSlots_eq filler (s.clusterBuf env c)
        (slotsFrom tmp s.superblock.bytePerCluster) off taken (fun o _ => rfl) (by
          rw [Nat.mul_add] at hoff
          omega)
      rw [readDirLoop, if_neg (show ¬ c = 0 from h.head_data.ne_end)]
      refine hload.bind (Server.Reads.check_bind (by decide)
        (Server.Reads.get_bind (fun k => ?_)))
      dsimp only
      rw [Server.slotsAt, Server.listed_append, offer_append, List.length_map, ← h₁, ← h₂]
      cases hfill : fillSlots filler (s.clusterBuf env c)
          (slotsFrom tmp s.superblock.bytePerCluster) off taken with
      | mk ok rest =>
        obtain ⟨off', taken'⟩ := rest
        rw [hfill] at h₃
        cases ok with
        | false => exact .pure s env taken'
        | true =>
          obtain rfl := h₃ rfl
          refine (reads_readFatEntry hg h.head_data).bind ?_
          rw [← Server.slotsAt_zero]
          refine ih h.tail (by rw [List.length_cons] at hf; omega) (fun i hi => ?_) ?_
          · rw [Server.clusterBuf, if_neg (Nat.not_lt_of_le hi)]
          · rw [Server.slotsAt_zero]
            rw [Nat.mul_add] at hoff
            show off + dirEntrySize * _ + _ < _
            omega

/-- **What a call lists**: it skips whole clusters, and offers the slots from
there on. -/
theorem reads_readDirEntries (hr : env.ReadsFull) (hg : s.superblock.Geometry)
    (h : s.Chain c (l ++ m)) (hj : off / s.superblock.bytePerCluster = l.length)
    (hoff : off + dirEntrySize
      * (s.slotsAt (off % s.superblock.bytePerCluster) m).length < 2 ^ 32) (filler : Filler) :
    s.Reads env (readDirEntries c off filler)
      (offer filler (s.listed env (s.slotsAt (off % s.superblock.bytePerCluster) m) off) []).2 := by
  have hskip : ∀ k, (skipClusters l.length c).run env { s with preads := k }
      = .ok (m.headD endOfChain) { s with preads := k } := fun k => by
    obtain ⟨d, hd, hm⟩ := skipClusters_run (s := { s with preads := k }) env hg (h.preads k)
    rw [hd, hm.linked.eq_headD]
  have hm : s.Chain (m.headD endOfChain) m := by
    obtain ⟨d, -, hm⟩ := skipClusters_run env hg h
    rw [← hm.linked.eq_headD]
    exact hm
  have hlen : m.length < s.chainFuel := by
    have hlt := h.length_lt_fuel hg
    rw [List.length_append] at hlt
    exact Nat.lt_of_le_of_lt (Nat.le_add_left _ _) hlt
  refine Server.Reads.get_bind (fun k => ?_)
  dsimp only
  rw [hj]
  refine Server.Reads.bind (fun k => ⟨k, hskip k⟩) ?_
  refine Server.Reads.bind (a := s.newCluster env) (fun k => ⟨k, rfl⟩) ?_
  exact reads_readDirLoop hr hg hm hlen (fun i hi => if_neg (Nat.not_lt_of_le hi)) hoff

/-! ## Resuming -/

/-- **An offset to resume at** that means the same in both units: the entry size
divides the cluster size, or the offset lies in the first cluster, or there is no
other one. -/
def Server.Resumable (s : Server) (l : List ℕ) (off : ℕ) : Prop :=
  dirEntrySize ∣ s.superblock.bytePerCluster ∨ off < s.superblock.bytePerCluster
    ∨ l.length ≤ 1

theorem length_dirSlots {b : ℕ} : (dirSlots b).length = (b + 39) / 40 := by
  rw [dirSlots, slotsFrom, List.length_range']
  rfl

theorem Server.length_slots :
    (s.slots l).length = l.length * (dirSlots s.superblock.bytePerCluster).length := by
  induction l with
  | nil => exact (Nat.zero_mul _).symm
  | cons c l ih =>
    have hslots : s.slots (c :: l)
        = (dirSlots s.superblock.bytePerCluster).map (c, ·) ++ s.slots l := List.flatMap_cons
    rw [hslots, List.length_append, List.length_map, ih, List.length_cons]
    ring

/-- The slots from slot `i` of the first cluster on. -/
theorem Server.slotsAt_mul {i : ℕ}
    (hi : i ≤ (dirSlots s.superblock.bytePerCluster).length) (hl : l ≠ []) :
    s.slotsAt (dirEntrySize * i) l = (s.slots l).drop i := by
  obtain ⟨c, l, rfl⟩ := List.exists_cons_of_ne_nil hl
  have hslots : s.slots (c :: l)
      = (dirSlots s.superblock.bytePerCluster).map (c, ·) ++ s.slots l := List.flatMap_cons
  have hdrop : slotsFrom (dirEntrySize * i) s.superblock.bytePerCluster
      = (dirSlots s.superblock.bytePerCluster).drop i := by
    rw [length_dirSlots] at hi
    rw [dirSlots, slotsFrom, slotsFrom, List.drop_range', Nat.zero_add, Nat.mul_comm i]
    congr 1
    unfold dirEntrySize
    omega
  rw [hslots, List.drop_append_of_le_length (by rw [List.length_map]; exact hi), slotsAt,
    ← List.map_drop, hdrop]

/-- **Resuming behind slot `g`** goes on with the slots behind it. -/
theorem Server.slotsAt_resume (hb : dirEntrySize ≤ s.superblock.bytePerCluster) {g : ℕ}
    (hle : g ≤ (s.slots l).length) (hres : s.Resumable l (dirEntrySize * g)) :
    ∃ l₁ l₂, l = l₁ ++ l₂
      ∧ dirEntrySize * g / s.superblock.bytePerCluster = l₁.length
      ∧ s.slotsAt (dirEntrySize * g % s.superblock.bytePerCluster) l₂ = (s.slots l).drop g := by
  rw [length_slots] at hle
  set b := s.superblock.bytePerCluster with hbdef
  have hn : (dirSlots b).length = (b + 39) / 40 := length_dirSlots
  -- in the first cluster the two units agree
  have hfirst : dirEntrySize * g < b → ∃ l₁ l₂, l = l₁ ++ l₂
      ∧ dirEntrySize * g / b = l₁.length
      ∧ s.slotsAt (dirEntrySize * g % b) l₂ = (s.slots l).drop g := fun hlt => by
    refine ⟨[], l, rfl, Nat.div_eq_of_lt hlt, ?_⟩
    rw [Nat.mod_eq_of_lt hlt]
    by_cases hl : l = []
    · rw [hl]
      exact List.drop_nil.symm
    · refine slotsAt_mul ?_ hl
      rw [← hbdef, hn]
      unfold dirEntrySize at hlt
      omega
  rcases hres with ⟨n, hbn⟩ | hlt | hone
  · -- slot `g` is slot `g % n` of cluster `g / n`
    rw [← hbdef] at hbn
    have hnn : (dirSlots b).length = n := by
      rw [hn, hbn]
      unfold dirEntrySize
      omega
    have hpos : 0 < n := Nat.pos_of_ne_zero (fun h0 => by
      rw [h0, Nat.mul_zero] at hbn
      rw [hbn] at hb
      exact absurd hb (by decide))
    have hj : dirEntrySize * g / b = g / n := by
      rw [hbn, Nat.mul_div_mul_left _ _ (by decide)]
    have hr : dirEntrySize * g % b = dirEntrySize * (g % n) := by
      rw [hbn, Nat.mul_mod_mul_left]
    have hjl : g / n ≤ l.length := by
      rw [hnn] at hle
      exact Nat.div_le_of_le_mul (by rw [Nat.mul_comm]; exact hle)
    refine ⟨l.take (g / n), l.drop (g / n), (List.take_append_drop _ _).symm, ?_, ?_⟩
    · rw [hj, List.length_take_of_le hjl]
    · have hlen : (s.slots (l.take (g / n))).length = g / n * n := by
        rw [length_slots, List.length_take_of_le hjl, ← hbdef, hnn]
      have hsplit : s.slots l = s.slots (l.take (g / n)) ++ s.slots (l.drop (g / n)) := by
        rw [← slots_append, List.take_append_drop]
      have hg := Nat.div_add_mod' g n
      have hdrop : (s.slots l).drop g = (s.slots (l.drop (g / n))).drop (g % n) := by
        rw [hsplit, List.drop_append, hlen, List.drop_eq_nil_of_le (by rw [hlen]; omega),
          List.nil_append, show g - g / n * n = g % n by omega]
      rw [hr, hdrop]
      by_cases hl : l.drop (g / n) = []
      · rw [hl]
        exact List.drop_nil.symm
      · exact slotsAt_mul (by rw [← hbdef, hnn]; exact Nat.le_of_lt (Nat.mod_lt g hpos)) hl
  · exact hfirst hlt
  · by_cases hlt : dirEntrySize * g < b
    · exact hfirst hlt
    · -- behind the last slot of the only cluster
      have hmul : l.length * (dirSlots b).length ≤ (dirSlots b).length :=
        Nat.le_trans (Nat.mul_le_mul_right _ hone) (Nat.le_of_eq (Nat.one_mul _))
      have hgn : g = (dirSlots b).length := by
        refine Nat.le_antisymm (Nat.le_trans hle hmul) ?_
        rw [hn]
        unfold dirEntrySize at hlt
        omega
      have hdiv : dirEntrySize * g / b = 1 := by
        rw [hgn, hn]
        unfold dirEntrySize at *
        refine Nat.div_eq_of_lt_le ?_ ?_
        · omega
        · omega
      have hl1 : l.length = 1 := by
        rcases Nat.lt_or_ge 0 l.length with hpos | hzero
        · omega
        · rw [Nat.le_zero.mp hzero, Nat.zero_mul] at hle
          unfold dirEntrySize at *
          omega
      refine ⟨l, [], (List.append_nil l).symm, hdiv.trans hl1.symm, ?_⟩
      rw [List.drop_eq_nil_of_le (by rw [length_slots, hl1, ← hbdef, hgn, Nat.one_mul])]
      rfl

/-! ## Listings -/

/-- The names of the live entries of a directory, in order. -/
def Server.liveNames (s : Server) (env : Env) (l : List ℕ) : List (List UInt8) :=
  ((s.slots l).filter fun x => !(s.slotEntry env x).isFree).map
    fun x => (s.slotEntry env x).nameStr

/-- **A listing in pages**: from the server `s` on, `k` calls have left the server
`t`; they have listed the names `acc`, and the next call resumes at `off`. The
filler of a call accepts the first entry it is offered. -/
inductive Server.Paged (s : Server) (env : Env) (path : List UInt8) (l : List ℕ) :
    Server → ℕ → List (List UInt8) → ℕ → Prop where
  | start : Paged s env path l s 0 [] 0
  | next {t u : Server} {k off : ℕ} {acc : List (List UInt8)} {filler : Filler} {r : ℤ}
    {taken : List Listed} {last : Listed} (h : Paged s env path l t k acc off)
    (hres : s.Resumable l off) (hfirst : ∀ x, filler [] x = true)
    (hrun : (fatReaddir path off filler).run env t = .ok (r, taken ++ [last]) u) :
    Paged s env path l u (k + 1) (acc ++ (taken ++ [last]).map Prod.fst) last.2

/-- The offsets of a directory fit into 32 bits. -/
theorem Server.Chain.slots_lt (hg : s.superblock.Geometry) (h : s.Chain c l) :
    dirEntrySize * (s.slots l).length < 2 ^ 32 := by
  have hb := hg.page
  have hcap := hg.capacity
  set b := s.superblock.bytePerCluster with hbdef
  have hlen : l.length * b < 2 ^ 31 :=
    Nat.lt_of_le_of_lt (Nat.mul_le_mul_right b (Nat.le_trans h.length_le (Nat.sub_le _ _))) hcap
  have hmany : l.length * 512 ≤ l.length * b := Nat.mul_le_mul_left _ hb
  have hslots : dirEntrySize * (dirSlots b).length ≤ b + 39 := by
    rw [length_dirSlots]
    unfold dirEntrySize
    omega
  have hmul := Nat.mul_le_mul_left l.length hslots
  rw [Server.length_slots, ← hbdef]
  have hcomm : dirEntrySize * (l.length * (dirSlots b).length)
      = l.length * (dirEntrySize * (dirSlots b).length) := by ring
  rw [hcomm]
  rw [Nat.mul_add] at hmul
  omega

/-- **A call that resumes behind slot `g`** offers the live entries behind it. -/
theorem fatReaddir_run {p : Pool ℕ} (hr : env.ReadsFull) (h : s.Owns p) (hl : l ∈ p.owners)
    (hpath : s.Reads env (findFirstClusterByPath path) (l.headD endOfChain))
    (ht : s.ReadTo t) {g : ℕ} (hle : g ≤ (s.slots l).length)
    (hres : s.Resumable l (dirEntrySize * g)) (filler : Filler) :
    ∃ u, (fatReaddir path (dirEntrySize * g) filler).run env t
        = .ok (0, (offer filler (s.listed env ((s.slots l).drop g) (dirEntrySize * g)) []).2) u
      ∧ s.ReadTo u := by
  have hg := h.geometry
  have hchain := h.chain hl
  have hlt := hchain.slots_lt hg
  obtain ⟨l₁, l₂, rfl, hj, hslots⟩ := Server.slotsAt_resume
    (Nat.le_trans (by decide) hg.page) hle hres
  have hoff : dirEntrySize * g < 2 ^ 32 :=
    Nat.lt_of_le_of_lt (Nat.mul_le_mul_left _ hle) hlt
  have hrest : dirEntrySize * g + dirEntrySize * ((s.slots (l₁ ++ l₂)).drop g).length
      < 2 ^ 32 := by
    rw [List.length_drop, ← Nat.mul_add, Nat.add_sub_cancel' hle]
    exact hlt
  have hreads := reads_readDirEntries hr hg hchain hj (by rw [hslots]; exact hrest) filler
  rw [hslots] at hreads
  have hcall : s.Reads env (fatReaddir path (dirEntrySize * g) filler)
      (0, (offer filler (s.listed env ((s.slots (l₁ ++ l₂)).drop g) (dirEntrySize * g)) []).2) := by
    rw [fatReaddir, u32_of_lt hoff]
    exact hpath.bind (hreads.bind (.pure s env _))
  obtain ⟨k, rfl⟩ := ht
  obtain ⟨k', hk'⟩ := hcall k
  exact ⟨_, hk', k', rfl⟩

/-- **What a listing has done so far**: it resumes behind a slot, and what it has
listed and what is live behind that slot make up the whole directory. -/
theorem Server.Paged.inv {p : Pool ℕ} {acc : List (List UInt8)} (hr : env.ReadsFull)
    (h : s.Owns p) (hl : l ∈ p.owners)
    (hpath : s.Reads env (findFirstClusterByPath path) (l.headD endOfChain))
    (hp : s.Paged env path l t k acc off) :
    ∃ g ≤ (s.slots l).length, off = dirEntrySize * g ∧ s.ReadTo t ∧ k ≤ acc.length
      ∧ acc ++ (s.listed env ((s.slots l).drop g) (dirEntrySize * g)).map Prod.fst
        = s.liveNames env l := by
  induction hp with
  | start =>
    exact ⟨0, Nat.zero_le _, rfl, .refl s, Nat.le_refl 0, Server.listed_names _⟩
  | @next t u k off acc filler r taken last _ hres hfirst hrun ih =>
    obtain ⟨g, hle, rfl, ht, hk, hacc⟩ := ih
    obtain ⟨u', hrun', hu⟩ := fatReaddir_run hr h hl hpath ht hle hres filler
    rw [hrun] at hrun'
    obtain ⟨hout, rfl⟩ := Outcome.ok.inj hrun'
    obtain ⟨ys, zs, hsplit, htaken, -⟩ := exists_taken filler
      (s.listed env ((s.slots l).drop g) (dirEntrySize * g)) []
    rw [← (Prod.mk.inj hout).2, List.nil_append] at htaken
    rw [← htaken, List.append_assoc, List.singleton_append] at hsplit
    obtain ⟨m, hm, hoff, hrest⟩ := Server.listed_split hsplit
    rw [List.length_drop] at hm
    rw [← Nat.mul_add] at hoff hrest
    refine ⟨g + m, by omega, hoff, hu, ?_, ?_⟩
    · rw [List.length_append, List.length_map, List.length_append, List.length_singleton]
      omega
    · rw [← hacc, hsplit, hrest, List.drop_drop]
      simp

/-- **A listing is complete, if it resumes at offsets that mean the same in both
units.** However it is cut into pages, what has been listed is a prefix of the
names of the live entries, in order; there are no more pages than live entries;
and the next call lists what comes next, all of it if the filler is not the one to
stop. -/
theorem listing_complete {p : Pool ℕ} {acc : List (List UInt8)} (hr : env.ReadsFull)
    (h : s.Owns p) (hl : l ∈ p.owners)
    (hpath : s.Reads env (findFirstClusterByPath path) (l.headD endOfChain))
    (hp : s.Paged env path l t k acc off) (hres : s.Resumable l off) :
    k ≤ (s.liveNames env l).length ∧ acc <+: s.liveNames env l
    ∧ ∀ filler : Filler, (∀ x, filler [] x = true) →
      ∃ taken u, (fatReaddir path off filler).run env t = .ok (0, taken) u
        ∧ acc ++ taken.map Prod.fst <+: s.liveNames env l
        ∧ (taken = [] → acc = s.liveNames env l)
        ∧ ((∃ u', (fatReaddir path off fun _ _ => true).run env t = .ok (0, taken) u') →
          acc ++ taken.map Prod.fst = s.liveNames env l) := by
  obtain ⟨g, hle, rfl, ht, hk, hacc⟩ := hp.inv hr h hl hpath
  set rest := s.listed env ((s.slots l).drop g) (dirEntrySize * g) with hrest
  refine ⟨?_, ⟨_, hacc⟩, fun filler hfirst => ?_⟩
  · rw [← hacc, List.length_append]
    exact Nat.le_trans hk (Nat.le_add_right _ _)
  · obtain ⟨u, hrun, -⟩ := fatReaddir_run hr h hl hpath ht hle hres filler
    obtain ⟨u', hall, -⟩ := fatReaddir_run hr h hl hpath ht hle hres (fun _ _ => true)
    rw [← hrest, offer_all, List.nil_append] at hall
    obtain ⟨ys, zs, hsplit, htaken, -⟩ := exists_taken filler rest []
    rw [← hrest, htaken, List.nil_append] at hrun
    refine ⟨ys, u, hrun, ⟨zs.map Prod.fst, ?_⟩, fun hnil => ?_, ?_⟩
    · rw [← hacc, hsplit, List.map_append, List.append_assoc]
    · -- the filler takes what it is offered first
      have hempty : rest = [] := by
        by_contra hne
        refine offer_ne_nil hfirst hne ?_
        rw [htaken, hnil]
        rfl
      rw [← hacc, hempty]
      exact (List.append_nil acc).symm
    · rintro ⟨u'', hsame⟩
      rw [hall] at hsame
      obtain ⟨hout, -⟩ := Outcome.ok.inj hsame
      have hys : rest = ys := (Prod.mk.inj hout).2
      rw [← hacc, hys]

/-- The filler that takes one entry. -/
def takeOne : Filler := fun taken _ => taken.isEmpty

theorem offer_takeOne (p q : Listed) : (offer takeOne [p, q] []).2 = [] ++ [p] := rfl

/-- What the directory with two files has to offer. -/
theorem listed_nested :
    Server.nested.listed .ideal (Server.nested.slots [5]) 0 = [([98], 40), ([99], 80)] := by
  obtain ⟨-, hb, hc⟩ := Server.slotEntry_nested
  obtain ⟨hbfree, hbname⟩ := freshEntry_live 98 (by decide) 6 dirEntryTypeFile
  obtain ⟨hcfree, hcname⟩ := freshEntry_live 99 (by decide) 7 dirEntryTypeFile
  have hrest : ∀ y ∈ (List.range' 80 101 40).map fun o => ((5 : ℕ), o),
      (Server.nested.slotEntry .ideal y).isFree = true := fun y hy => by
    obtain ⟨o, ho, rfl⟩ := List.mem_map.mp hy
    obtain ⟨i, hi, rfl⟩ := List.mem_range'.mp ho
    exact Server.isFree_nested (Nat.le_add_right _ _) (show 80 + 40 * i < 4096 by omega)
  rw [Server.slots_of_page Server.bytePerCluster_nested, Server.listed, hb, hbfree,
    if_neg (by decide), Server.listed, hc, hcfree, if_neg (by decide),
    Server.listed_of_free hrest, hbname, hcname]
  rfl

/-- Listing the directory with two files in two pages, of one entry and of the rest. -/
theorem listing_complete_nested :
    ∃ u taken v, Server.nested.Paged .ideal onePath [5] u 1 [[98]] 40
      ∧ (fatReaddir onePath 40 fun _ _ => true).run .ideal u = .ok (0, taken) v
      ∧ [98] :: taken.map Prod.fst = Server.nested.liveNames .ideal [5]
      ∧ Server.nested.liveNames .ideal [5] = [[98], [99]] := by
  have howns := Server.owns_nested
  have hl : [5] ∈ Server.nestedPool.owners :=
    Server.nested_dirs_owned [5] (Multiset.mem_cons_self _ _)
  have hpath := Server.reads_findFirstCluster_nested
  have hres : ∀ off, Server.nested.Resumable [5] off := fun _ => Or.inr (Or.inr (Nat.le_refl 1))
  -- the first page
  obtain ⟨u, hrun, -⟩ := fatReaddir_run Env.ideal_reliable.reads howns hl hpath (.refl _)
    (Nat.zero_le _) (hres (dirEntrySize * 0)) takeOne
  rw [List.drop_zero, Nat.mul_zero, listed_nested, offer_takeOne] at hrun
  have hpaged : Server.nested.Paged .ideal onePath [5] u 1 [[98]] 40 :=
    .next .start (hres 0) (fun _ => rfl) hrun
  -- and the rest
  obtain ⟨-, -, hnext⟩ := listing_complete Env.ideal_reliable.reads howns hl hpath hpaged (hres 40)
  obtain ⟨taken, v, hrun', -, -, hall⟩ := hnext (fun _ _ => true) (fun _ => rfl)
  refine ⟨u, taken, v, hpaged, hrun', hall ⟨v, hrun'⟩, ?_⟩
  unfold Server.liveNames
  rw [← Server.listed_names 0, listed_nested]
  rfl

/-! ## A directory of two clusters -/

namespace Server

/-- The disk whose root directory has the clusters 4 and 5, before its entries
are stored. -/
def bigRoot : Server :=
  (((blank.formatted .ideal).grown .ideal [5] 5 4).takeCluster 6).takeCluster 7

/-- **The disk whose root directory has two entries**, `"a"` and `"b"`, at the start
of its second cluster. -/
def bigDir : Server :=
  (bigRoot.store .ideal (5, 0) (freshEntry [97] 6 dirEntryTypeFile).bytes dirEntrySize).store
    .ideal (5, 40) (freshEntry [98] 7 dirEntryTypeFile).bytes dirEntrySize

theorem grown_bigRoot : (blank.formatted .ideal).Grown
    ((blank.formatted .ideal).grown .ideal [5] 5 4) (List.range' 5 2555) [4] 0 1 := by
  have h := owns_formatted blank .ideal
  have hfree : freshPool = ⟨([] ++ [5]) ++ List.range' 6 2554, ([] ++ [4]) ::ₘ 0⟩ := by
    rw [freshPool, List.range'_succ]
    rfl
  rw [hfree] at h
  have hg := h.grown_spec Env.ideal_reliable.writes
  rw [show List.range' 5 2555 = ([] ++ [5]) ++ List.range' 6 2554 from List.range'_succ]
  exact hg

theorem owns_bigRoot : bigRoot.Owns ⟨List.range' 8 2552, [7] ::ₘ [6] ::ₘ {[4, 5]}⟩ := by
  have h := grown_bigRoot.owns
  have h6 : List.drop 1 (List.range' 5 2555) = ([] ++ [6]) ++ List.range' 7 2553 := by
    rw [List.range'_succ, List.range'_succ]
    rfl
  have h5 : [4] ++ List.take 1 (List.range' 5 2555) = [4, 5] := by
    rw [List.range'_succ]
    rfl
  rw [h6, h5] at h
  have h' := h.popped .ideal
  rw [show List.range' 7 2553 = ([] ++ [7]) ++ List.range' 8 2552 from List.range'_succ] at h'
  exact h'.popped .ideal

theorem superblock_bigRoot : bigRoot.superblock
    = { Superblock.fresh (fun _ => 0) with
        freeClusterStart := bigRoot.superblock.freeClusterStart } := by
  unfold bigRoot takeCluster
  rw [superblock_popped, setFree, superblock_popped, setFree, superblock_grown, setFree,
    superblock_formatted]
  rfl

theorem bytePerCluster_bigRoot : bigRoot.superblock.bytePerCluster = 4096 := by
  rw [superblock_bigRoot]
  rfl

/-- Both clusters of the root directory are zeroed. -/
theorem cluster_bigRoot {c i : ℕ} (hc : c ∈ [4, 5]) (hi : i < 4096) :
    bigRoot.cluster c i = 0 := by
  set s := (blank.formatted .ideal).grown .ideal [5] 5 4 with hs
  have hdata : ∀ d, 4 ≤ d → d < 2560 → s.superblock.IsData d := fun d h h' => by
    rw [hs, superblock_grown, isData_setFree]
    exact isData_formatted.mpr ⟨h, h'⟩
  have hdata' : ∀ d, 4 ≤ d → d < 2560 → (s.takeCluster 6).superblock.IsData d :=
    fun d h h' => by
      rw [takeCluster, superblock_popped, isData_setFree]
      exact hdata d h h'
  have hb : s.superblock.bytePerCluster = 4096 := by
    rw [hs, superblock_grown]
    show (blank.formatted .ideal).superblock.bytePerCluster = 4096
    rw [superblock_formatted]
    rfl
  have hg := grown_bigRoot.owns.geometry
  have hlt : 4 ≤ c ∧ c < 6 := by
    simp only [List.mem_cons, List.not_mem_nil, or_false] at hc
    omega
  have h7 : bigRoot.cluster c i = (s.takeCluster 6).cluster c i := by
    refine cluster_popped_of_notMem (d := 7) ?_ (hdata' 7 (by decide) (by decide))
      (hdata' c hlt.1 (by omega)) (by simp; omega) ?_
    · rw [takeCluster, superblock_popped]
      exact hg.setFree
    · rw [takeCluster, superblock_popped]
      exact hb.symm ▸ hi
  have h6 : (s.takeCluster 6).cluster c i = s.cluster c i :=
    cluster_popped_of_notMem (d := 6) hg (hdata 6 (by decide) (by decide))
      (hdata c hlt.1 (by omega)) (by simp; omega) (hb.symm ▸ hi)
  rw [h7, h6]
  have hb₀ : (blank.formatted .ideal).superblock.bytePerCluster = 4096 := by
    rw [superblock_formatted]
    rfl
  have htake : List.take 1 (List.range' 5 2555) = [5] := by
    rw [List.range'_succ, List.take_succ_cons, List.take_zero]
  rcases List.mem_cons.mp hc with rfl | hc5
  · refine (grown_bigRoot.clusters 4 (isData_formatted.mpr (by decide)) ?_ i
      (hb₀.symm ▸ hi)).trans (cluster_formatted (by decide) hi)
    rw [htake]
    decide
  · rw [List.mem_singleton.mp hc5]
    refine grown_bigRoot.zero 5 ?_ i (hb₀.symm ▸ hi)
    rw [htake]
    exact List.mem_singleton_self 5

theorem bytePerCluster_bigDir : bigDir.superblock.bytePerCluster = 4096 := by
  rw [bigDir, superblock_store, superblock_store]
  exact bytePerCluster_bigRoot

theorem owns_bigDir : bigDir.Owns ⟨List.range' 8 2552, [7] ::ₘ [6] ::ₘ {[4, 5]}⟩ :=
  owns_bigRoot.writeCluster.writeCluster

/-- The entries of the root directory. -/
theorem slotEntry_bigDir :
    bigDir.slotEntry .ideal (5, 0) = freshEntry [97] 6 dirEntryTypeFile
    ∧ bigDir.slotEntry .ideal (5, 40) = freshEntry [98] 7 dirEntryTypeFile := by
  have hw := Env.ideal_reliable.writes
  set s := bigRoot.store .ideal (5, 0) (freshEntry [97] 6 dirEntryTypeFile).bytes
    dirEntrySize with hs
  have hin : ∀ o ≤ 40, s.Inside (5, o) := fun o ho => by
    show o + dirEntrySize ≤ bigRoot.superblock.bytePerCluster
    rw [bytePerCluster_bigRoot]
    unfold dirEntrySize
    omega
  constructor
  · have hne : bigDir.slotEntry .ideal (5, 0) = s.slotEntry .ideal (5, 0) :=
      slotEntry_store_of_ne (s := s) (x := (5, 40)) (y := (5, 0)) hw (by decide) (by decide)
        (by decide) (Nat.le_refl _)
    rw [hne]
    exact slotEntry_store_self (s := bigRoot) hw (hin 0 (by decide))
  · exact slotEntry_store_self (s := s) hw (hin 40 (by decide))

/-- Behind its first two slots, and in the first cluster, the root directory is
zero. -/
theorem cluster_bigDir {c i : ℕ} (hc : c ∈ [4, 5]) (hi : i < 4096) (h : c = 5 → 80 ≤ i) :
    bigDir.cluster c i = 0 := by
  have hw := Env.ideal_reliable.writes
  set s := bigRoot.store .ideal (5, 0) (freshEntry [97] 6 dirEntryTypeFile).bytes
    dirEntrySize with hs
  have hb : i < bigRoot.superblock.bytePerCluster := by
    rw [bytePerCluster_bigRoot]
    exact hi
  have hbs : i < s.superblock.bytePerCluster := by
    rw [hs, superblock_store]
    exact hb
  rcases List.mem_cons.mp hc with rfl | hc5
  · have hlast : bigDir.cluster 4 i = s.cluster 4 i :=
      cluster_store_of_ne (s := s) (x := (5, 40)) (by decide) hbs
    have hfirst : s.cluster 4 i = bigRoot.cluster 4 i :=
      cluster_store_of_ne (s := bigRoot) (x := (5, 0)) (by decide) hb
    rw [hlast, hfirst]
    exact cluster_bigRoot hc hi
  · obtain rfl := List.mem_singleton.mp hc5
    have h80 := h rfl
    have hlast : bigDir.cluster 5 i = s.cluster 5 i :=
      (cluster_store (s := s) (x := (5, 40)) hw hbs).trans
        (Buf.blit_of_le (show 40 + dirEntrySize ≤ i by unfold dirEntrySize; omega))
    have hfirst : s.cluster 5 i = bigRoot.cluster 5 i :=
      (cluster_store (s := bigRoot) (x := (5, 0)) hw hb).trans
        (Buf.blit_of_le (show 0 + dirEntrySize ≤ i by unfold dirEntrySize; omega))
    rw [hlast, hfirst]
    exact cluster_bigRoot hc hi

/-- The slots of the root directory: those of the first cluster, the two with
entries, and the others. -/
theorem slots_bigDir : bigDir.slots [4, 5]
    = (dirSlots 4096).map (4, ·)
      ++ (5, 0) :: (5, 40) :: (List.range' 80 101 40).map (5, ·) := by
  have hslots : bigDir.slots [4, 5]
      = (dirSlots 4096).map (4, ·) ++ ((dirSlots 4096).map (5, ·) ++ []) := by
    unfold slots
    rw [bytePerCluster_bigDir, List.flatMap_cons, List.flatMap_cons, List.flatMap_nil]
  rw [hslots, List.append_nil]
  congr 1

theorem isFree_bigDir {env : Env} {y : ℕ × ℕ} (hc : y.1 ∈ [4, 5]) (hi : y.2 < 4096)
    (h : y.1 = 5 → 80 ≤ y.2) : (bigDir.slotEntry env y).isFree = true :=
  (isFree_slotEntry (by rw [bytePerCluster_bigDir]; exact hi)).mpr (cluster_bigDir hc hi h)

end Server

/-- What the root directory with two entries has to offer. -/
theorem listed_bigDir :
    Server.bigDir.listed .ideal (Server.bigDir.slots [4, 5]) 0
      = [([97], 4160), ([98], 4200)] := by
  obtain ⟨ha, hb⟩ := Server.slotEntry_bigDir
  obtain ⟨hafree, haname⟩ := freshEntry_live 97 (by decide) 6 dirEntryTypeFile
  obtain ⟨hbfree, hbname⟩ := freshEntry_live 98 (by decide) 7 dirEntryTypeFile
  have hfirst : ∀ y ∈ (dirSlots 4096).map fun o => ((4 : ℕ), o),
      (Server.bigDir.slotEntry .ideal y).isFree = true := fun y hy => by
    obtain ⟨o, ho, rfl⟩ := List.mem_map.mp hy
    exact Server.isFree_bigDir List.mem_cons_self (mem_dirSlots.mp ho).2
      (fun h => absurd h (show ¬ (4 : ℕ) = 5 by decide))
  have hrest : ∀ y ∈ (List.range' 80 101 40).map fun o => ((5 : ℕ), o),
      (Server.bigDir.slotEntry .ideal y).isFree = true := fun y hy => by
    obtain ⟨o, ho, rfl⟩ := List.mem_map.mp hy
    obtain ⟨i, hi, rfl⟩ := List.mem_range'.mp ho
    exact Server.isFree_bigDir (List.mem_cons_of_mem _ (List.mem_singleton_self 5))
      (show 80 + 40 * i < 4096 by omega) (fun _ => Nat.le_add_right _ _)
  rw [Server.slots_bigDir, Server.listed_append, Server.listed_of_free hfirst,
    List.nil_append, List.length_map, length_dirSlots, Server.listed, ha, hafree,
    if_neg (by decide), Server.listed, hb, hbfree, if_neg (by decide),
    Server.listed_of_free hrest, haname, hbname]
  rfl

/-- The names in the root directory with two entries. -/
theorem liveNames_bigDir :
    Server.bigDir.liveNames .ideal [4, 5] = [[97], [98]] := by
  unfold Server.liveNames
  rw [← Server.listed_names 0, listed_bigDir]
  rfl

theorem mem_owners_bigDir : [4, 5] ∈ ([7] ::ₘ [6] ::ₘ {[4, 5]} : Multiset (List ℕ)) :=
  Multiset.mem_cons_of_mem (Multiset.mem_cons_of_mem (Multiset.mem_singleton_self _))

/-- The path `/` leads to the root directory. -/
theorem reads_findFirstCluster_root (s : Server) (env : Env) :
    s.Reads env (findFirstClusterByPath [slash]) s.superblock.rootClusterStart :=
  fun k => ⟨k, rfl⟩

theorem reads_findFirstCluster_bigDir :
    Server.bigDir.Reads .ideal (findFirstClusterByPath [slash]) ([4, 5].headD endOfChain) := by
  have hroot := reads_findFirstCluster_root Server.bigDir .ideal
  have hstart : Server.bigDir.superblock.rootClusterStart = 4 := by
    rw [Server.bigDir, Server.superblock_store, Server.superblock_store,
      Server.superblock_bigRoot]
    rfl
  rw [hstart] at hroot
  exact hroot

/-- The first page holds one entry. -/
theorem paged_bigDir :
    ∃ k, Server.bigDir.Paged .ideal [slash] [4, 5] { Server.bigDir with preads := k }
      1 [[97]] 4160 := by
  have hstart : Server.bigDir.Resumable [4, 5] (dirEntrySize * 0) :=
    Or.inr (Or.inl (by rw [Server.bytePerCluster_bigDir]; decide))
  obtain ⟨u, hrun, k, rfl⟩ := fatReaddir_run Env.ideal_reliable.reads Server.owns_bigDir
    mem_owners_bigDir reads_findFirstCluster_bigDir (.refl _) (Nat.zero_le _) hstart takeOne
  rw [List.drop_zero, Nat.mul_zero, listed_bigDir, offer_takeOne] at hrun
  rw [Nat.mul_zero] at hstart
  exact ⟨k, .next .start hstart (fun _ => rfl) hrun⟩


/-- Where the second call reads, there are only zeros. -/
theorem isFree_between {y : ℕ × ℕ} (hy : y ∈ Server.bigDir.slotsAt 64 [5]) :
    (Server.bigDir.slotEntry .ideal y).isFree = true := by
  rw [Server.slotsAt, Server.bytePerCluster_bigDir] at hy
  obtain ⟨o, ho, rfl⟩ := List.mem_map.mp (List.append_nil _ ▸ hy)
  obtain ⟨i, hi, rfl⟩ := List.mem_range'.mp ho
  have hlt : 64 + dirEntrySize * i < 4096 := by
    unfold dirEntrySize at *
    omega
  rcases Nat.eq_zero_or_pos i with rfl | hpos
  · refine (Server.isFree_slotEntry ?_).mpr ?_
    · rw [Server.bytePerCluster_bigDir]
      exact hlt
    · -- byte 64 lies in the second entry, behind its name
      exact (Server.cluster_store (s := Server.bigRoot.store .ideal (5, 0)
        (freshEntry [97] 6 dirEntryTypeFile).bytes dirEntrySize) (x := (5, 40))
        Env.ideal_reliable.writes (i := 64) (by
          rw [Server.superblock_store, Server.bytePerCluster_bigRoot]
          decide)).trans rfl
  · refine Server.isFree_bigDir (List.mem_cons_of_mem _ (List.mem_singleton_self 5)) hlt
      fun _ => ?_
    show 80 ≤ 64 + dirEntrySize * i
    unfold dirEntrySize
    omega

/-- The second call reads between the slots. -/
theorem reads_bigDir :
    Server.bigDir.Reads .ideal (fatReaddir [slash] 4160 fun _ _ => true) (0, []) := by
  have hb := Server.bytePerCluster_bigDir
  have hchain : Server.bigDir.Chain 4 ([4] ++ [5]) :=
    Server.owns_bigDir.chain mem_owners_bigDir
  have hlen : (Server.bigDir.slotsAt (4160 % Server.bigDir.superblock.bytePerCluster) [5]).length
      = 101 := by
    rw [hb, Server.slotsAt, hb]
    rfl
  have hoff : 4160 / Server.bigDir.superblock.bytePerCluster = [4].length := by
    rw [hb]
    rfl
  have hreads := reads_readDirEntries Env.ideal_reliable.reads Server.owns_bigDir.geometry hchain
    hoff (by rw [hlen]; decide) fun _ _ => true
  have hmod : 4160 % 4096 = 64 := by decide
  rw [hb, hmod, Server.listed_of_free fun y hy => isFree_between hy] at hreads
  rw [fatReaddir, u32_of_lt (by decide)]
  exact reads_findFirstCluster_bigDir.bind (hreads.bind (.pure _ _ _))

/-- **A listing that misses an entry.** The root directory has two live entries, at
the start of its second cluster. A filler that takes one entry for each call is
given `"a"` and the offset 4160; the call that resumes there reads the second
cluster from byte 64 on, between the slots, and lists nothing. -/
theorem bigDir_listing_incomplete :
    Server.bigDir.Owns ⟨List.range' 8 2552, [7] ::ₘ [6] ::ₘ {[4, 5]}⟩
    ∧ Server.bigDir.liveNames .ideal [4, 5] = [[97], [98]]
    ∧ ∃ u v, Server.bigDir.Paged .ideal [slash] [4, 5] u 1 [[97]] 4160
      ∧ (fatReaddir [slash] 4160 fun _ _ => true).run .ideal u = .ok (0, []) v := by
  obtain ⟨k, hpage⟩ := paged_bigDir
  obtain ⟨k', hk'⟩ := reads_bigDir k
  exact ⟨Server.owns_bigDir, liveNames_bigDir, _, _, hpage, hk'⟩

end Fat
