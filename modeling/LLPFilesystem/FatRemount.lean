import LLPFilesystem.FatUpdates
import LLPFilesystem.FatRuns

/-!
# Remounting

A server that is stopped between two calls leaves its disk, and the next mount reads the
superblock and the FAT from there. `Update` lists the functions that change them. Each
returns with the disk in agreement, except for an empty write right behind the last cluster
of a file (`Update.EmptyAtEnd`); so a run without such a write can be stopped and mounted
again at any time (`metadata_remounts_iff`).
-/

namespace Fat

variable {env : Env} {s t : Server} {c n pc : ℕ} {f : List ℕ} {os : Multiset (List ℕ)}
  {p : Pool ℕ} {e : FatDirEntry} {hs hs' : Multiset ℕ} {α : Type} {a : α}

/-- **A call that changes the superblock or the FAT**, or writes to a chain. -/
inductive Update : Type → Type where
  | pop (length : ℕ) : Update ℕ
  | add (clusterNum : ℕ) : Update ℕ
  | free (startClusterNum : ℕ) : Update Unit
  | addEntry (clusterNum : ℕ) (dirName : List UInt8) (firstClusterNum : ℕ) (type : UInt16) :
    Update ℤ
  | updateEntry (clusterNum : ℕ) (dirEntry : FatDirEntry) (remove : Bool) : Update ℤ
  | updateFile (parentCluster : ℕ) (dirEntry : FatDirEntry) (buf : Buf) (size offset : ℕ) :
    Update ℤ
  | truncate (path : List UInt8) (size : ℕ) : Update ℤ

namespace Update

/-- The function that is called. -/
def prog : {α : Type} → Update α → FatM α
  | _, .pop n => popFreeClusters n
  | _, .add c => addFreeCluster c
  | _, .free c => freeClusterChain c
  | _, .addEntry c name first type => addDirEntryToCluster c name first type
  | _, .updateEntry c e remove => updateDirEntry c e remove
  | _, .updateFile pc e buf size offset => Fat.updateFile pc e buf size offset
  | _, .truncate path size => fatTruncate path size

/-- **The call is about chains of allocated clusters**, `hs` being their first clusters. A
path is such a chain when every lookup of it that returns has arrived at one. -/
def Sound (env : Env) (s : Server) (hs : Multiset ℕ) : {α : Type} → Update α → Prop
  | _, .pop _ => True
  | _, .add c | _, .free c | _, .addEntry c _ _ _ | _, .updateEntry c _ _ => c ∈ hs
  | _, .updateFile pc e _ _ _ => pc ∈ hs ∧ e.firstCluster.toNat ∈ hs
  | _, .truncate path _ => ∀ reads x u,
    (lookupTarget path).run (env.withReads reads) s = .ok x u →
      x.1 ∈ hs ∧ x.2.firstCluster.toNat ∈ hs

/-- The first clusters of the owners after a call that returned `a`. -/
def heads (hs : Multiset ℕ) : {α : Type} → Update α → α → Multiset ℕ
  | _, .pop _, c => if c = endOfChain then hs else c ::ₘ hs
  | _, .free c, _ => hs.erase c
  | _, .add _, _ | _, .addEntry _ _ _ _, _ | _, .updateEntry _ _ _, _
  | _, .updateFile _ _ _ _ _, _ | _, .truncate _ _, _ => hs

/-- **The call makes an empty write right behind the last cluster of a file.** A truncation
makes one when it extends a file by a multiple of `2 ^ 32`. -/
def EmptyAtEnd (env : Env) (s : Server) (p : Pool ℕ) : {α : Type} → Update α → Prop
  | _, .pop _ | _, .add _ | _, .free _ | _, .addEntry _ _ _ _ | _, .updateEntry _ _ _ => False
  | _, .updateFile pc e _ size offset => s.EmptyWriteAtEnd env p pc e size offset
  | _, .truncate path n => ∃ reads x u,
    (lookupTarget path).run (env.withReads reads) s = .ok x u ∧ x.2.size.toNat < n
      ∧ s.EmptyWriteAtEnd env p x.1 x.2 (sub32 (u32 n) x.2.size.toNat) x.2.size.toNat

/-- **The call leaves a disk that agrees with memory**, if it returns. -/
def Resyncs (env : Env) (s : Server) (op : Update α) : Prop :=
  ∀ reads a t, op.prog.run (env.withReads reads) s = .ok a t → t.Synced

end Update

/-! ## One call -/

theorem Server.EmptyWriteAtEnd.preads {size offset : ℕ}
    (h : s.EmptyWriteAtEnd env p pc e size offset) (k : ℕ) :
    ({ s with preads := k } : Server).EmptyWriteAtEnd env p pc e size offset :=
  ⟨h.type, h.empty, h.start, h.aligned, h.behind, h.entry⟩

/-- An allocation that returns has been served, or refused with nothing changed. -/
theorem popFreeClusters_ok (hw : env.WritesFull) (h : s.Owns ⟨f, os⟩)
    (hrun : (popFreeClusters n).run env s = .ok c t) :
    t = s ∧ c = endOfChain
      ∨ ∃ g f', t.Owns ⟨f', g ::ₘ os⟩ ∧ g.headD endOfChain = c ∧ c ≠ endOfChain
        ∧ (s.Synced → t.Synced) := by
  rcases Nat.eq_zero_or_pos n with rfl | hpos
  · rw [popFreeClusters, Prog.bind_stop _ (check_stop (by decide) env s)] at hrun
    cases hrun
  rcases Nat.lt_or_ge f.length n with hlt | hle
  · rcases Nat.eq_or_lt_of_le (Nat.succ_le_of_lt hlt) with rfl | hgt
    · rw [popFreeClusters_stop h.geometry h.freeChain] at hrun
      cases hrun
    · rw [popFreeClusters_refused h.geometry h.freeChain hgt] at hrun
      cases hrun
      exact .inl ⟨rfl, rfl⟩
  · obtain ⟨l, d, r, rfl, rfl⟩ := Server.Owns.exists_split hpos hle
    rw [popFreeClusters_run h.geometry h.freeChain] at hrun
    cases hrun
    refine .inr ⟨_, _, h.popped env, ?_, ?_, fun hsync => hsync.popped hw h.geometry
      (fun c hc => h.free_data (List.mem_append_left r hc)) d _⟩
    · rw [h.freeClusterStart_eq]
      cases l <;> rfl
    · exact h.freeChain.ne_end (by simp)

/-- **A call that returns** leaves the chains of its owners, and a disk that agrees if it did
– unless it was an empty write behind the last cluster. -/
theorem Update.run_ok (op : Update α) (hw : env.WritesFull) (h : s.Owns p)
    (hh : p.owners.map (·.headD endOfChain) = hs) (hsound : op.Sound env s hs)
    (hrun : op.prog.run env s = .ok a t) :
    ∃ q, t.Owns q ∧ q.owners.map (·.headD endOfChain) = op.heads hs a
      ∧ (¬ op.EmptyAtEnd env s p → s.Synced → t.Synced) := by
  obtain ⟨f, os⟩ := p
  cases op with
  | pop n =>
    obtain ⟨rfl, rfl⟩ | ⟨g, f', howns, hhead, hne, hsync⟩ := popFreeClusters_ok hw h hrun
    · refine ⟨_, h, ?_, fun _ => id⟩
      rw [Update.heads, if_pos rfl]
      exact hh
    · refine ⟨_, howns, ?_, fun _ => hsync⟩
      rw [Update.heads, if_neg hne, Multiset.map_cons, hhead, hh]
  | add c =>
    obtain ⟨o, d, os', hos, rfl, hos'⟩ := exists_owner h hh hsound
    obtain rfl := hos
    cases f with
    | nil =>
      have hstop : (popFreeClusters 1).run env s = .stop .outOfBounds s :=
        popFreeClusters_stop h.geometry h.freeChain
      rw [Update.prog, addFreeCluster, Prog.bind_stop _ hstop] at hrun
      cases hrun
    | cons x f =>
      rw [Update.prog, addFreeCluster_run h] at hrun
      cases hrun
      refine ⟨_, h.grown (l := []) env, ?_, fun _ hsync => hsync.grown hw h.geometry
        (fun c hc => ?_) _ d⟩
      · rw [Update.heads, hos', Multiset.map_cons]
        cases o <;> rfl
      · rw [List.mem_singleton.mp hc]
        exact h.free_data List.mem_cons_self
  | free c =>
    obtain ⟨o, d, os', hos, rfl, hos'⟩ := exists_owner h hh hsound
    obtain rfl := hos
    rw [Update.prog, freeClusterChain_run h.geometry (h.chain (Multiset.mem_cons_self _ _))] at hrun
    cases hrun
    refine ⟨_, h.pushed env, ?_, fun _ hsync => hsync.pushed hw h.geometry _ d⟩
    rw [Update.heads, hos', Multiset.erase_cons_head]
  | addEntry c name first type =>
    obtain ⟨o, d, os', hos, rfl, hos'⟩ := exists_owner h hh hsound
    obtain rfl := hos
    obtain ⟨k, howns, hsync⟩ := addDirEntryToCluster_ok hw h hrun
    refine ⟨_, howns, ?_, fun _ => hsync⟩
    rw [Update.heads, hos', Multiset.map_cons]
    cases o <;> rfl
  | updateEntry c e remove =>
    obtain ⟨o, d, os', hos, rfl, hos'⟩ := exists_owner h hh hsound
    obtain rfl := hos
    have hkept := updateDirEntry_kept h.geometry (h.chain (Multiset.mem_cons_self _ _))
      (by simp) hrun
    exact ⟨_, h.of_table hkept.table.superblock hkept.table.fatTable, hh, fun _ => hkept.synced⟩
  | updateFile pc e buf size offset =>
    obtain ⟨o, d, os', hos, hhead, hos'⟩ := exists_owner h hh hsound.2
    obtain rfl := hos
    obtain ⟨l, hl, rfl⟩ := Multiset.mem_map.mp (hh.symm ▸ hsound.1)
    obtain ⟨k, howns, hsync⟩ := updateFile_ok hw h hhead hl hrun
    refine ⟨_, howns, ?_, hsync⟩
    rw [Update.heads, hos', Multiset.map_cons, ← hhead]
    cases o <;> rfl
  | truncate path n =>
    obtain ⟨⟨pc, e⟩, u, hlook, hcut⟩ := Prog.bind_eq_ok_iff.mp hrun
    obtain ⟨hpc, hfirst⟩ := hsound env.pread (pc, e) u hlook
    obtain ⟨k, rfl⟩ := (ReadOnly.lookupTarget env path).of_ok hlook
    obtain ⟨o, d, os', hos, hhead, hos'⟩ := exists_owner h hh hfirst
    obtain rfl := hos
    obtain ⟨l, hl, hlhead⟩ := Multiset.mem_map.mp (hh.symm ▸ hpc)
    dsimp only at hlhead hcut
    rw [← hlhead] at hcut
    obtain ⟨f', o', howns, hhead', hsync⟩ := truncateFile_ok hw (h.preads k) hhead hl hcut
    refine ⟨_, howns, ?_, fun hempty hs => hsync (fun he => hempty ?_) (hs.preads k)⟩
    · rw [Update.heads, hos', Multiset.map_cons, hhead', hhead]
    · rw [hlhead] at he
      exact ⟨env.pread, (pc, e), _, hlook, he.1, he.2.preads s.preads⟩

/-- What a call that may be such a write does when the right read fails. -/
theorem Update.exists_not_synced (op : Update α) (hw : env.WritesFull) (h : s.Owns p)
    (hempty : op.EmptyAtEnd env s p) :
    ∃ reads a t, op.prog.run (env.withReads reads) s = .ok a t ∧ ¬ t.Synced := by
  cases op with
  | pop n | add c | free c | addEntry c name first type | updateEntry c e remove =>
    exact hempty.elim
  | updateFile pc e buf size offset => exact updateFile_emptyWrite hw h hempty buf
  | truncate path n =>
    obtain ⟨reads, ⟨pc, e⟩, u, hlook, hlt, hwrite⟩ := hempty
    obtain ⟨k, rfl⟩ := (ReadOnly.lookupTarget _ path).of_ok hlook
    obtain ⟨reads', r, t, hrun, hsync⟩ :=
      updateFile_emptyWrite hw (h.preads k) (hwrite.preads k) (fun _ => 0)
    -- the lookup sees the reads of the one run, the write those of the other
    set both : ℕ → Transfer := fun j => if j < k then reads j else reads' j with hboth
    have hlook' : (lookupTarget path).run (env.withReads both) s
        = .ok (pc, e) { s with preads := k } := by
      rw [← hlook]
      refine (Causal.lookupTarget path).congr _ _ s ⟨fun j _ hj => ?_, fun _ _ _ => rfl, rfl, rfl⟩
      rw [hlook] at hj
      exact if_pos hj
    have hrun' : (Fat.updateFile pc e (fun _ => 0) (sub32 (u32 n) e.size.toNat)
        e.size.toNat).run (env.withReads both) { s with preads := k } = .ok r t := by
      rw [← hrun]
      refine (Causal.updateFile pc e _ _ _).congr _ _ _ ⟨fun j hj _ => ?_, fun _ _ _ => rfl, rfl,
        rfl⟩
      exact if_neg (Nat.not_lt_of_le hj)
    refine ⟨both, if r = i32 (sub32 (u32 n) e.size.toNat) then 0 else -1, t, ?_, hsync⟩
    rw [Update.prog, fatTruncate, Prog.bind_ok _ hlook']
    dsimp only
    rw [truncateFile, if_neg (Nat.ne_of_gt hlt), if_pos hlt, extendFile, Prog.bind_ok _ hrun']
    rfl

/-- **When a call leaves a disk that agrees**: unless it is an empty write behind the last
cluster. -/
theorem Update.resyncs_iff (op : Update α) (hw : env.WritesFull) (h : s.Owns p)
    (hsync : s.Synced) (hsound : op.Sound env s (p.owners.map (·.headD endOfChain))) :
    op.Resyncs env s ↔ ¬ op.EmptyAtEnd env s p := by
  constructor
  · intro hresync hempty
    obtain ⟨reads, a, t, hrun, hnot⟩ := op.exists_not_synced hw h hempty
    exact hnot (hresync reads a t hrun)
  · intro hempty reads a t hrun
    have hsound' : op.Sound (env.withReads reads) s (p.owners.map (·.headD endOfChain)) := by
      cases op <;> exact hsound
    have hw' : (env.withReads reads).WritesFull := hw
    obtain ⟨q, -, -, hkeeps⟩ := op.run_ok hw' h rfl hsound' hrun
    refine hkeeps (fun he => hempty ?_) hsync
    cases op with
    | updateFile pc e buf size offset =>
      exact ⟨he.type, he.empty, he.start, he.aligned, he.behind, he.entry⟩
    | truncate path n =>
      obtain ⟨reads', x, u, hlook, hlt, hwrite⟩ := he
      exact ⟨reads', x, u, hlook, hlt, hwrite.type, hwrite.empty, hwrite.start, hwrite.aligned,
        hwrite.behind, hwrite.entry⟩
    | pop n | add c | free c | addEntry c name first type | updateEntry c e remove => exact he

/-! ## Runs -/

/-- **A step of a run**: a call about chains of the owners that returns, and is no empty
write behind the last cluster. -/
def UpdateStep (env : Env) (x y : Server × Multiset ℕ) : Prop :=
  ∃ (α : Type) (op : Update α) (a : α), op.Sound env x.1 x.2
    ∧ (∀ p, x.1.Owns p → p.owners.map (·.headD endOfChain) = x.2 → ¬ op.EmptyAtEnd env x.1 p)
    ∧ op.prog.run env x.1 = .ok a y.1 ∧ y.2 = op.heads x.2 a

/-- **A run keeps the disk in agreement.** -/
theorem synced_of_run (hw : env.WritesFull) (h : s.Owns p)
    (hh : p.owners.map (·.headD endOfChain) = hs) (hsync : s.Synced)
    (hrun : Relation.ReflTransGen (UpdateStep env) (s, hs) (t, hs')) :
    t.Synced ∧ ∃ q, t.Owns q ∧ q.owners.map (·.headD endOfChain) = hs' := by
  generalize hy : (t, hs') = y at hrun
  induction hrun generalizing t hs' with
  | refl =>
    obtain ⟨rfl, rfl⟩ := Prod.mk.inj hy
    exact ⟨hsync, p, h, hh⟩
  | tail _ hstep ih =>
    subst hy
    obtain ⟨α, op, a, hsound, hempty, hrun, rfl⟩ := hstep
    obtain ⟨hsync', q, howns, hheads⟩ := ih rfl
    obtain ⟨q', howns', hheads', hkeeps⟩ := op.run_ok hw howns hheads hsound hrun
    exact ⟨hkeeps (hempty q howns hheads) hsync', q', howns', hheads'⟩

/-- **When a mount sees what the server had.** Every call leaves the superblock and the FAT on
disk as they are in memory, whichever of its reads fail, exactly when it is no empty write
right behind the last cluster of a file; formatting leaves them so; and after any run of such
calls the disk can be mounted to the same superblock and FAT. -/
theorem metadata_remounts_iff (hw : env.WritesFull) :
    (∀ (α : Type) (op : Update α) (s : Server) (p : Pool ℕ), s.Owns p → s.Synced →
      op.Sound env s (p.owners.map (·.headD endOfChain)) →
        (op.Resyncs env s ↔ ¬ op.EmptyAtEnd env s p))
    ∧ ∀ s₀ s : Server, formatDisk.run env s₀ = .ok () s → s.Synced
      ∧ ∀ t hs, Relation.ReflTransGen (UpdateStep env)
        (s, {s.superblock.rootClusterStart}) (t, hs) → t.Synced ∧ t.Remounts := by
  refine ⟨fun α op s p h hsync hsound => op.resyncs_iff hw h hsync hsound, fun s₀ s hf => ?_⟩
  obtain rfl := formatDisk_ok hf
  have hsync := formatted_synced hw s₀
  have hheads : Server.freshPool.owners.map (·.headD endOfChain)
      = {(s₀.formatted env).superblock.rootClusterStart} := by
    rw [Server.superblock_formatted]
    rfl
  refine ⟨hsync, fun t hs hrun => ?_⟩
  obtain ⟨ht, q, howns, -⟩ := synced_of_run hw (Server.owns_formatted s₀ env) hheads hsync hrun
  exact ⟨ht, ht.remounts howns.geometry howns.freeClusterStart_lt⟩

/-! ## A disk with one file -/

theorem synced_oneFile (size : UInt32) (data : Buf) : (Server.oneFile size data).Synced := by
  have hw := Env.ideal_reliable.writes
  have hg := (Server.owns_formatted .blank .ideal).geometry
  have hdata : ∀ c, 4 ≤ c → c < 2560 → (Server.blank.formatted .ideal).superblock.IsData c :=
    fun c h h' => Server.isData_formatted.mpr ⟨h, h'⟩
  have hpop := (formatted_synced hw .blank).popped hw hg (l := [5])
    (fun c hc => List.mem_singleton.mp hc ▸ hdata 5 (by decide) (by decide)) 5 6
  have hgeo : ((Server.blank.formatted .ideal).popped .ideal [5] 5 6).superblock.Geometry :=
    (Server.owns_oneFile size data).geometry
  have hdata' : ∀ c, 4 ≤ c → c < 2560 →
      ((Server.blank.formatted .ideal).popped .ideal [5] 5 6).superblock.IsData c := by
    intro c h h'
    rw [Server.superblock_popped]
    exact hdata c h h'
  exact (hpop.writeCluster hgeo (hdata' 4 (by decide) (by decide)) .ideal _).writeCluster hgeo
    (hdata' 5 (by decide) (by decide)) .ideal data

/-- Writing two bytes across the end of the cluster of `/a` leaves a disk that agrees. -/
theorem metadata_remounts_oneFile :
    (Update.updateFile 4 (oneEntry 4096) (fun _ => 7) 2 4095).Resyncs .ideal
      (Server.oneFile 4096 fun _ => 1)
    ∧ (Server.blank.formatted .ideal).Remounts := by
  have hw := Env.ideal_reliable.writes
  have hmain := metadata_remounts_iff hw
  refine ⟨(hmain.1 ℤ (.updateFile 4 (oneEntry 4096) (fun _ => 7) 2 4095)
    (Server.oneFile 4096 fun _ => 1) Server.onePool (Server.owns_oneFile _ _) (synced_oneFile _ _)
    ⟨by decide, by decide⟩).mpr fun hempty => ?_, ?_⟩
  · exact absurd hempty.empty (by rw [u32_of_lt (by decide)]; decide)
  · exact ((hmain.2 _ _ (formatDisk_run hw)).2 _ _ .refl).2

/-- **Extending `/a` by `2 ^ 32` bytes writes zeros over the superblock** when the second read
fails: the file of one full cluster is lengthened by no bytes, behind its cluster. -/
theorem oneFile_superblock_lost :
    (Server.oneFile 4096 fun _ => 1).Owns Server.onePool
    ∧ (Server.oneFile 4096 fun _ => 1).Synced
    ∧ ∃ k t, (fatTruncate onePath (4096 + 2 ^ 32)).run
        (Env.ideal.withReads fun j => if j < k then .full else .failed)
        (Server.oneFile 4096 fun _ => 1) = .ok 0 t ∧ ¬ t.Synced := by
  obtain ⟨k, hlook⟩ := (Server.lookupTarget_oneFile Env.ideal_reliable.reads 4096 fun _ => 1).run
  have howns' : (Server.oneFile 4096 fun _ => 1).Owns Server.onePool := Server.owns_oneFile _ _
  refine ⟨howns', synced_oneFile _ _, k, ?_⟩
  set s := Server.oneFile 4096 fun _ => 1 with hs
  set u : Server := { s with preads := k } with hu
  set env := Env.ideal.withReads fun j => if j < k then .full else .failed with henv
  have hw : env.WritesFull := fun _ => rfl
  have howns : u.Owns Server.onePool := howns'.preads k
  have hb : s.superblock.bytePerCluster = 4096 := by
    rw [hs]
    exact Server.bytePerCluster_oneFile
  have hlook' : (lookupTarget onePath).run env s = .ok (4, oneEntry 4096) u := by
    rw [← hlook]
    refine (Causal.lookupTarget onePath).congr _ _ s ⟨fun j _ hj => ?_, fun _ _ _ => rfl, rfl, rfl⟩
    rw [hlook] at hj
    exact if_pos hj
  -- no bytes are missing, as `unsigned int`s
  have hzeros : sub32 (u32 (4096 + 2 ^ 32)) (oneEntry 4096).size.toNat = 0 := by
    unfold sub32 u32
    decide
  have hfinal : finalByteToWrite 0 4096 = 4095 := by
    unfold finalByteToWrite sub32 u32
    decide
  have hdata : (writeData 5 (fun _ => 0) 0 4096).run env u
      = .ok () (u.readOnce.writeCluster env (u.newCluster env) 0) := by
    refine writeData_failed hw howns.geometry (howns.chain Server.file_mem_onePool)
      (u32_of_lt (by decide)) ?_ ?_ (if_neg (lt_irrefl k))
    · show s.superblock.bytePerCluster ∣ u32 4096
      rw [hb, u32_of_lt (by decide)]
    · show u32 4096 / s.superblock.bytePerCluster = 1
      rw [hb, u32_of_lt (by decide)]
  have hsize : (updateSize 4 (oneEntry 4096) (u32 (finalByteToWrite 0 4096 + 1))).run env u
      = .ok () u := by
    rw [hfinal, u32_of_lt (by decide), updateSize, Prog.bind_ok _ (Prog.run_read env u),
      Prog.bind_ok _ (Prog.run_get env u), if_neg (by decide)]
    rfl
  have hgrow : (growFile (oneEntry 4096).firstCluster.toNat [5].length
      (finalByteToWrite 0 4096 / u.superblock.bytePerCluster + 1)).run env u = .ok true u := by
    rw [hfinal, show u.superblock.bytePerCluster = 4096 from hb]
    exact growFile_enough (by decide)
  have hwrite : (updateFile 4 (oneEntry 4096) (fun _ => 0) 0 4096).run env u
      = .ok (i32 0) (u.readOnce.writeCluster env (u.newCluster env) 0) := by
    rw [updateFile_grow howns rfl rfl, Prog.bind_ok _ hgrow, if_pos rfl, Prog.bind_ok _ hsize,
      show (oneEntry 4096).firstCluster.toNat = 5 from rfl, Prog.bind_ok _ hdata]
    rfl
  refine ⟨_, ?_, not_synced_writeCluster (s := u.readOnce) hw howns.geometry⟩
  rw [fatTruncate, Prog.bind_ok _ hlook']
  dsimp only
  rw [truncateFile, if_neg (by decide), if_pos (by decide), extendFile, hzeros,
    show (oneEntry 4096).size.toNat = 4096 from rfl, Prog.bind_ok _ hwrite, if_pos rfl]
  rfl

end Fat
