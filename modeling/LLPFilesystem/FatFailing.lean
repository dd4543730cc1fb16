import LLPFilesystem.Environments
import LLPFilesystem.FatAccounts
import LLPFilesystem.FatRestart

/-!
# A disk that has begun to fail

`write_cluster_to_disk` returns -1 if `pwrite` moved less than a cluster, and whoever writes
the data of a file or its entry asserts that it is another value. The allocator does not ask.
So a call that needs no new cluster returns only if the disk has done what it was asked to do:
such a call, in any environment whose reads do not fail outright, is one of a disk that works
(`Server.Holds.inPlace_steady`), and what it has done has happened (`inPlace_refine_tree`).
-/

namespace Fat

variable {env : Env} {s t u : Server} {b c d k n off size offset : ℕ} {f l o : List ℕ}
  {os dirs : Multiset (List ℕ)} {e : FatDirEntry} {buf src : Buf} {r : ℤ} {path : List UInt8}
  {toks : List (List UInt8)} {name : List UInt8}
  {h : Hierarchy ℕ (List UInt8) (List UInt8)} {α β : Type}

/-- The same environment, when the disk works. -/
def Env.steady (env : Env) : Env :=
  { env with pread := fun _ => .full, pwrite := fun _ => .full }

theorem Env.steady_reliable (env : Env) : env.steady.Reliable := ⟨fun _ => rfl, fun _ => rfl⟩

/-- No read fails. It may be short. -/
def Env.ReadsSome (env : Env) : Prop := ∀ k, env.pread k ≠ .failed

theorem Transfer.result_eq_moved {w : Transfer} (hne : w ≠ .failed) (n : ℕ) :
    w.result n = w.moved n := by
  cases w with
  | full => rfl
  | short m => rfl
  | failed => exact absurd rfl hne

/-- A write that is not short has moved everything. -/
theorem Transfer.moved_of_result {w : Transfer} (h : ¬ w.result n < n) : w.moved n = n := by
  have hne : w ≠ .failed := by
    rintro rfl
    exact h (Int.negSucc_lt_zero 0 |>.trans_le (Int.natCast_nonneg n))
  rw [result_eq_moved hne] at h
  exact Nat.le_antisymm (w.moved_le n) (Int.ofNat_le.mp (Int.not_lt.mp h))

/-- A read that has not failed and is not short has moved everything. -/
theorem Transfer.moved_of_u32 {w : Transfer} (hne : w ≠ .failed)
    (h : ¬ u32OfInt (w.result n) < n) : w.moved n = n := by
  rw [result_eq_moved hne] at h
  refine Nat.le_antisymm (w.moved_le n) ((Nat.not_lt.mp h).trans ?_)
  unfold u32OfInt
  omega

/-- **The program insists on its transfers**: if it returns what passes, it could have run on
a disk that works. -/
abbrev Insists (env : Env) (ok : α → Prop) (x : FatM α) : Prop := x.Carries env env.steady ok

namespace Insists

variable {ok : α → Prop}

theorem check (env : Env) (q : Prop) [Decidable q] (ok : Unit → Prop) :
    Insists env ok (check q) := .ite (.pure _ _ _ _) (.fail _ _ _ _)

/-- **An assertion** that a value is not -1. -/
theorem bind_check {x : FatM β} {v : β → ℤ} {g : β → FatM α}
    (hx : Insists env (fun b => v b ≠ -1) x) (hg : ∀ b, Insists env ok (g b)) :
    Insists env ok (x >>= fun b => Fat.check (v b ≠ -1) >>= fun _ => g b) := by
  refine hx.bind_of (fun b s a t hrun _ hb => ?_) fun b => .bind (check env _ _) fun _ => hg b
  rw [Prog.bind_stop _ (check_stop (not_not_intro hb) env s)] at hrun
  cases hrun

/-- An assertion at the end. -/
theorem bind_check_last {x : FatM β} {v : β → ℤ} (hx : Insists env (fun b => v b ≠ -1) x)
    (ok : Unit → Prop) : Insists env ok (x >>= fun b => Fat.check (v b ≠ -1)) := by
  refine hx.bind_of (fun b s a t hrun _ hb => ?_) fun b => check env _ _
  rw [check_stop (not_not_intro hb) env s] at hrun
  cases hrun

theorem readFatEntry (env : Env) (c : ℕ) (ok : ℕ → Prop) : Insists env ok (readFatEntry c) :=
  .bind (.get _ _ _) fun _ => .ite (.pure _ _ _ _) (.fail _ _ _ _)

theorem getDiskOffset (env : Env) (c : ℕ) (ok : ℕ → Prop) : Insists env ok (getDiskOffset c) :=
  .bind (.get _ _ _) fun _ => .bind (check env _ _) fun _ => .pure _ _ _ _

theorem getNewCluster (env : Env) (ok : Buf → Prop) : Insists env ok getNewCluster :=
  .of_eq fun _ => rfl

/-- **Writing a cluster** insists on its write. -/
theorem writeClusterToDisk (env : Env) (buf : Buf) (c : ℕ) :
    Insists env (· ≠ -1) (writeClusterToDisk buf c) := by
  refine .bind (.get _ _ _) fun s₀ => .bind (check env _ _) fun _ =>
    .bind (getDiskOffset env c _) fun off => ?_
  intro s r t hrun hr
  obtain ⟨m, u, hwrite, hret⟩ := Prog.bind_eq_ok_iff.mp hrun
  cases hwrite
  cases hret
  set b := s₀.superblock.bytePerCluster with hb
  have hnot : ¬ (env.pwrite s.pwrites.length).result b < b := fun hlt => hr (if_pos hlt)
  show Outcome.ok (if (b : ℤ) < b then _ else _) (s.pwritten env.steady buf b off)
    = Outcome.ok (if (env.pwrite s.pwrites.length).result b < b then _ else _)
      (s.pwritten env buf b off)
  rw [if_neg hnot, if_neg (lt_irrefl _)]
  unfold Server.pwritten
  rw [Transfer.moved_of_result hnot]
  rfl

theorem putEntryAt (env : Env) (buf : Buf) (o : ℕ) (e : FatDirEntry) (ok : Buf → Prop) :
    Insists env ok (putEntryAt buf o e) :=
  .bind (.get _ _ _) fun _ => .ite (.pure _ _ _ _) (.fail _ _ _ _)

variable (hs : env.ReadsSome)
include hs

/-- **Reading a cluster** insists on its read, if that does not fail outright. -/
theorem readClusterFromDisk (buf : Buf) (c o n : ℕ) :
    Insists env (fun x => x.1 ≠ -1) (readClusterFromDisk buf c o n) := by
  refine .bind (.get _ _ _) fun s₀ => .bind (check env _ _) fun _ =>
    .bind (getDiskOffset env c _) fun off => ?_
  intro s r t hrun hr
  obtain ⟨m, u, hread, hret⟩ := Prog.bind_eq_ok_iff.mp hrun
  cases hread
  cases hret
  have hnot : ¬ u32OfInt ((env.pread s.preads).result n) < n := fun hlt => hr (if_pos hlt)
  have hmoved := Transfer.moved_of_u32 (hs _) hnot
  have hfull : ¬ u32OfInt (Transfer.full.result n) < n := by
    rwa [Transfer.result_eq_moved (hs _), hmoved] at hnot
  show Outcome.ok (if u32OfInt (Transfer.full.result n) < n then _ else _, _) _
    = Outcome.ok (if u32OfInt ((env.pread s.preads).result n) < n then _ else _, _) _
  rw [if_neg hnot, if_neg hfull, hmoved]
  rfl

/-- Filling a buffer from disk. -/
theorem loadCluster (c : ℕ) (ok : Buf → Prop) : Insists env ok (loadCluster c) :=
  .bind (getNewCluster env _) fun cluster => bind_check
    (.bind (.get _ _ _) fun _ => readClusterFromDisk hs cluster c 0 _) fun _ => .pure _ _ _ _

/-- A scan insists on its reads, and on what it does at its end. -/
theorem scanDir {ok : α → Prop} {valid : Superblock → ℕ → Bool} {p : FatDirEntry → Bool}
    {hit : ℕ → Buf → ℕ → FatM α} {miss : ℕ → FatM α}
    (hhit : ∀ c cluster o, Insists env ok (hit c cluster o))
    (hmiss : ∀ c, Insists env ok (miss c)) (fuel c : ℕ) :
    Insists env ok (scanDir valid p hit miss fuel c) := by
  induction fuel generalizing c with
  | zero => exact .fail _ _ _ _
  | succ fuel ih =>
    refine .bind (.get _ _ _) fun s => .bind (check env _ _) fun _ =>
      .bind (loadCluster hs c _) fun cluster => ?_
    split
    · exact hhit _ _ _
    · exact .bind (readFatEntry env c _) fun next => .ite (hmiss c) (ih next)

theorem findDirEntryByName (c : ℕ) (name : List UInt8) (ok : Option FatDirEntry → Prop) :
    Insists env ok (findDirEntryByName c name) :=
  .bind (.get _ _ _) fun _ => scanDir hs (fun _ _ _ => .pure _ _ _ _) (fun _ => .pure _ _ _ _) _ c

theorem updateDirEntry (c : ℕ) (e : FatDirEntry) (remove : Bool) :
    Insists env (· ≠ -1) (updateDirEntry c e remove) :=
  .bind (.get _ _ _) fun _ => scanDir hs
    (fun c cluster o => .ite (writeClusterToDisk env _ c)
      (.bind (putEntryAt env cluster o e _) fun cluster => writeClusterToDisk env cluster c))
    (fun _ => .pure _ _ _ _) _ c

theorem updateSize (c : ℕ) (e : FatDirEntry) (n : ℕ) (ok : Unit → Prop) :
    Insists env ok (updateSize c e n) := by
  refine .read_bind rfl (.bind (.get _ _ _) fun s => .ite ?_ (.pure _ _ _ _))
  exact bind_check_last (updateDirEntry hs c _ false) ok

omit hs in
theorem storeCluster (env : Env) (buf : Buf) (c : ℕ) (ok : Unit → Prop) :
    Insists env ok (storeCluster buf c) :=
  bind_check_last (writeClusterToDisk env buf c) ok

theorem modifyCluster (cluster : Buf) (c off : ℕ) (src : Buf) (n : ℕ) (ok : Buf → Prop) :
    Insists env ok (modifyCluster cluster c off src n) :=
  bind_check (.bind (.get _ _ _) fun _ => readClusterFromDisk hs cluster c 0 _) fun _ =>
    .bind (storeCluster env _ c _) fun _ => .pure _ _ _ _

omit hs in
theorem skipClusters (env : Env) (n c : ℕ) (ok : ℕ → Prop) :
    Insists env ok (skipClusters n c) := by
  induction n generalizing c with
  | zero => exact .pure _ _ _ _
  | succ n ih => exact .bind (readFatEntry env c _) fun next => ih next

omit hs in
theorem writeWhole (env : Env) (src : Buf) (b n c off : ℕ) (ok : ℕ → Prop) :
    Insists env ok (writeWhole src b n c off) := by
  induction n generalizing c off with
  | zero => exact .pure _ _ _ _
  | succ n ih =>
    exact .bind (readFatEntry env c _) fun next =>
      .bind (storeCluster env _ next _) fun _ => ih next _

theorem writeRest (cluster src : Buf) (c off n : ℕ) (ok : Unit → Prop) :
    Insists env ok (writeRest cluster src c off n) :=
  .bind (.get _ _ _) fun _ => .bind (writeWhole env src _ _ c off _) fun last =>
    .ite (.pure _ _ _ _) <| .bind (readFatEntry env last _) fun next =>
      .bind (modifyCluster hs cluster next 0 _ _ _) fun _ => .pure _ _ _ _

/-- **Writing the data of a file** insists on all it moves. -/
theorem writeData (c : ℕ) (src : Buf) (size offset : ℕ) (ok : Unit → Prop) :
    Insists env ok (writeData c src size offset) := by
  have hrest : ∀ (cluster : Buf) (d m n : ℕ), Insists env ok
      (if n = 0 then return () else Fat.writeRest cluster src d m n) := fun cluster d m n =>
    .ite (.pure _ _ _ _) (writeRest hs cluster src d m n ok)
  refine .bind (.get _ _ _) fun s => .bind (skipClusters env _ c _) fun d =>
    .bind (getNewCluster env _) fun cluster => .ite ?_ ?_
  · exact .bind (modifyCluster hs cluster d _ src _ _) fun cluster => hrest cluster d _ _
  · refine .bind ?_ fun cluster => hrest cluster d _ _
    exact .bind (storeCluster env src d _) fun _ => .pure _ _ _ _

/-! ## Looking up -/

omit hs in
theorem nameStart (env : Env) (path : List UInt8) (k : ℕ) (ok : ℕ → Prop) :
    Insists env ok (nameStart path k) := by
  induction k with
  | zero => exact .fail _ _ _ _
  | succ k ih => exact .ite (.pure _ _ _ _) ih

omit hs in
theorem getParentPath (env : Env) (path : List UInt8) (ok : List UInt8 → Prop) :
    Insists env ok (getParentPath path) :=
  .bind (nameStart env path _ _) fun _ => .pure _ _ _ _

omit hs in
theorem getTargetName (env : Env) (path : List UInt8) (ok : List UInt8 → Prop) :
    Insists env ok (getTargetName path) :=
  .bind (nameStart env path _ _) fun _ => .pure _ _ _ _

theorem walkPath (toks : List (List UInt8)) (c : ℕ) (ok : Option ℕ → Prop) :
    Insists env ok (walkPath toks c) := by
  induction toks generalizing c with
  | nil => exact .pure _ _ _ _
  | cons tok toks ih =>
    refine .bind (findDirEntryByName hs c tok _) fun found => ?_
    cases found with
    | none => exact .pure _ _ _ _
    | some e => exact .ite (.pure _ _ _ _) (ih _)

theorem findDirEntryByPath (path : List UInt8) (ok : Option FatDirEntry → Prop) :
    Insists env ok (findDirEntryByPath path) := by
  refine .ite (.pure _ _ _ _) (.bind (.get _ _ _) fun s => ?_)
  refine .bind (getParentPath env path _) fun parent =>
    .bind (getTargetName env path _) fun name => .bind (walkPath hs _ _ _) fun found => ?_
  cases found with
  | none => exact .pure _ _ _ _
  | some c => exact findDirEntryByName hs c name _

theorem findFirstClusterByPath (path : List UInt8) (ok : ℕ → Prop) :
    Insists env ok (findFirstClusterByPath path) := by
  refine .bind (.get _ _ _) fun s => .ite ?_ (.pure _ _ _ _)
  refine .bind (findDirEntryByPath hs path _) fun found => ?_
  cases found with
  | none => exact .fail _ _ _ _
  | some e => exact .pure _ _ _ _

theorem lookupTarget (path : List UInt8) (ok : ℕ × FatDirEntry → Prop) :
    Insists env ok (lookupTarget path) := by
  refine .bind (getParentPath env path _) fun parent =>
    .bind (getTargetName env path _) fun name =>
    .bind (findFirstClusterByPath hs parent _) fun c =>
    .bind (findDirEntryByName hs c name _) fun found => ?_
  cases found with
  | none => exact .fail _ _ _ _
  | some e => exact .pure _ _ _ _

end Insists

/-! ## Calls that need no cluster -/

/-- **An operation stays within the clusters** that its file has. -/
def Op.InPlace (env : Env) (s : Server) (path : List UInt8) : Op → Prop
  | write _ size offset => ∃ e o, s.Finds env path (some e) ∧ s.Chain e.firstCluster.toNat o
    ∧ offset + size ≤ o.length * s.superblock.bytePerCluster
  | truncate size => ∃ e o, s.Finds env path (some e) ∧ s.Chain e.firstCluster.toNat o
    ∧ e.size.toNat ≤ size ∧ size ≤ o.length * s.superblock.bytePerCluster
  | _ => False

theorem Server.Finds.steady {a : Option FatDirEntry} (hs : env.ReadsSome)
    (hf : s.Finds env path a) : s.Finds env.steady path a := by
  obtain ⟨t, ht⟩ := hf
  exact ⟨t, Insists.findDirEntryByPath hs path (fun _ => True) s a t ht trivial⟩

/-- **A write in place** insists on all it moves. -/
theorem updateFile_steady (hs : env.ReadsSome) (howns : s.Owns ⟨f, o ::ₘ os⟩)
    (hhead : o.headD endOfChain = e.firstCluster.toNat) (htype : e.type = dirEntryTypeFile)
    (hfits : finalByteToWrite size offset / s.superblock.bytePerCluster + 1 ≤ o.length)
    (hrun : (updateFile c e buf size offset).run env s = .ok r t) :
    (updateFile c e buf size offset).run env.steady s = .ok r t := by
  rw [updateFile_grow howns hhead htype, Prog.bind_ok _ (growFile_enough hfits), if_pos rfl]
    at hrun ⊢
  have hinsists : Insists env (fun _ => True) (do
      updateSize c e (u32 (finalByteToWrite size offset + 1))
      writeData e.firstCluster.toNat buf size offset
      return i32 size : FatM ℤ) :=
    .bind (Insists.updateSize hs c e _ _) fun _ =>
      .bind (Insists.writeData hs _ buf size offset _) fun _ => .pure _ _ _ _
  exact hinsists s r t hrun trivial

/-- The clusters of a file have room for a write that ends in them. -/
theorem final_of_le (hpos : 0 < n) (hn : n ≤ k * b) : (n - 1) / b + 1 ≤ k :=
  Nat.div_lt_of_lt_mul (by rw [Nat.mul_comm]; omega)

/-- **Extending in place** insists on all it moves. -/
theorem truncateFile_steady (hs : env.ReadsSome) (howns : s.Owns ⟨f, o ::ₘ os⟩)
    (hhead : o.headD endOfChain = e.firstCluster.toNat) (htype : e.type = dirEntryTypeFile)
    (hn : n < 2 ^ 32) (hle : e.size.toNat ≤ n)
    (hfits : n ≤ o.length * s.superblock.bytePerCluster)
    (hrun : (truncateFile c e n).run env s = .ok r t) :
    (truncateFile c e n).run env.steady s = .ok r t := by
  unfold truncateFile at hrun ⊢
  rcases Nat.eq_or_lt_of_le hle with rfl | hlt
  · rw [if_pos rfl] at hrun ⊢
    exact hrun
  · rw [if_neg (Nat.ne_of_gt hlt), if_pos hlt] at hrun ⊢
    obtain ⟨r', t', hup, hret⟩ := Prog.bind_eq_ok_iff.mp hrun
    have hup' := updateFile_steady hs howns hhead htype (by
      rw [finalByteToWrite_extend hlt, Nat.mod_eq_of_lt (by omega)]
      exact final_of_le (by omega) hfits) hup
    rw [extendFile, Prog.bind_ok _ hup']
    exact hret

/-- The lookup of the target leads to the entry of the file whether the disk works or not. -/
theorem Server.FileAt.lookup_steady {pl : List ℕ} {x : ℕ × ℕ} {g : ℕ × FatDirEntry → FatM ℤ}
    (hfile : s.FileAt env.steady toks name f o os dirs pl x e) (hs : env.ReadsSome)
    (hrun : (lookupTarget (pathOf (toks ++ [name])) >>= g).run env s = .ok r t) :
    ∃ k, (g (pl.headD endOfChain, e)).run env { s with preads := k } = .ok r t
      ∧ (lookupTarget (pathOf (toks ++ [name])) >>= g).run env.steady s
        = (g (pl.headD endOfChain, e)).run env.steady { s with preads := k } := by
  obtain ⟨y, u, hl, hrest⟩ := Prog.bind_eq_ok_iff.mp hrun
  obtain ⟨k, hk⟩ := hfile.lookupTarget_run env.steady_reliable.reads
  have hl' := Insists.lookupTarget hs _ (fun _ => True) s y u hl trivial
  obtain ⟨rfl, rfl⟩ := Outcome.ok.inj (hl'.symm.trans hk)
  exact ⟨k, hrest, Prog.bind_ok g hk⟩

namespace Server.Holds

/-- **The file that a call in place is about**, on a disk that works. -/
theorem exists_file_steady {e' : FatDirEntry} (hh : s.Holds env.steady h f os dirs)
    (hs : env.ReadsSome) (hnames : ∀ x ∈ toks ++ [name], ChildName x)
    (hf : s.Finds env (pathOf (toks ++ [name])) (some e)) (htype : e.type = dirEntryTypeFile)
    (hf' : s.Finds env (pathOf (toks ++ [name])) (some e'))
    (ho : s.Chain e'.firstCluster.toNat o) :
    e' = e ∧ ∃ os' pl x, s.FileAt env.steady toks name f o os' dirs pl x e := by
  have hr := env.steady_reliable.reads
  obtain ⟨o', os', pl, x, -, hfile, -, -⟩ := hh.exists_file hr
    (fun x hx => hnames x (List.mem_append_left _ hx))
    (hnames name (List.mem_append_right _ (List.mem_singleton_self _))) (hf.steady hs) htype
  obtain ⟨rfl, rfl, -⟩ := hfile.unique hr (hf'.steady hs) ho hfile.file.owns.freeChain
  exact ⟨rfl, os', pl, x, hfile⟩

/-- **A call in place that returns** is one on a disk that works, and not a refusal. -/
theorem inPlace_steady {c : Call} (hh : s.Holds env.steady h f os dirs) (hs : env.ReadsSome)
    (hen : c.Enabled env s) (hin : c.op.InPlace env s (pathOf c.names))
    (hrun : c.code.run env s = .ok r t) :
    c.Enabled env.steady s ∧ c.code.run env.steady s = .ok r t ∧ 0 ≤ r := by
  obtain ⟨dir, name, op⟩ := c
  have hr := env.steady_reliable
  have hop := hen.op
  cases op with
  | write buf size offset =>
    obtain ⟨hsize, hsum, e, hf, htype⟩ := hop
    obtain ⟨e', o, hf', ho, hfits⟩ := hin
    obtain ⟨rfl, os', pl, x, hfile⟩ := hh.exists_file_steady hs hen.names hf htype hf' ho
    obtain ⟨k, hupdate, hsteady⟩ := hfile.lookup_steady hs hrun
    have hneed : (offset + size - 1) / s.superblock.bytePerCluster + 1 ≤ o.length :=
      final_of_le (by omega) hfits
    have hrun' := hsteady.trans (updateFile_steady hs (hfile.file.owns.preads k)
      hfile.file.head htype (by
        rw [finalByteToWrite_eq hsize, Nat.mod_eq_of_lt (by omega)]
        exact hneed) hupdate)
    refine ⟨⟨hen.names, hsize, hsum, _, hf.steady hs, htype⟩, hrun', ?_⟩
    rcases hfile.fatWrite_cases hr hsize hsum hrun' with ⟨-, rfl, -⟩ | ⟨hlt, -⟩
    · exact Int.natCast_nonneg size
    · rw [Server.lacking, Nat.sub_eq_zero_of_le hneed] at hlt
      exact absurd hlt (Nat.not_lt_zero _)
  | truncate size =>
    obtain ⟨hn32, e, hf, htype, hne⟩ := hop
    obtain ⟨e', o, hf', ho, hle, hfits⟩ := hin
    obtain ⟨rfl, os', pl, x, hfile⟩ := hh.exists_file_steady hs hen.names hf htype hf' ho
    obtain ⟨k, hupdate, hsteady⟩ := hfile.lookup_steady hs hrun
    have hrun' := hsteady.trans (truncateFile_steady hs (hfile.file.owns.preads k)
      hfile.file.head htype hn32 hle hfits hupdate)
    refine ⟨⟨hen.names, hn32, _, hf.steady hs, htype, hne⟩, hrun', ?_⟩
    rcases hfile.fatTruncate_outcome hr hn32 hrun' with
      ⟨-, -, rfl⟩ | ⟨-, hgt, hlt, -⟩ | ⟨-, -, rfl, -⟩ | ⟨-, rfl, -⟩
    · exact le_rfl
    · rw [Server.lacking, Nat.sub_eq_zero_of_le (final_of_le (by omega) hfits)] at hlt
      exact absurd hlt (Nat.not_lt_zero _)
    · exact le_rfl
    · exact le_rfl
  | _ => exact hin.elim

end Server.Holds

/-! ## Runs -/

/-- **A run of calls in place**, each enabled when it is made. It goes on as long as they
return. -/
inductive InPlaceRun (env : Env) : Server → List Event → Server → Prop where
  | nil (s : Server) : InPlaceRun env s [] s
  | look {s t u : Server} {evs : List Event} (hlook : s.ReadTo t)
    (h : InPlaceRun env t evs u) : InPlaceRun env s evs u
  | cons {s t u : Server} {ev : Event} {evs : List Event} (henabled : ev.call.Enabled env s)
    (hin : ev.call.op.InPlace env s (pathOf ev.call.names))
    (hfree : fatStatfs.run env s = .ok ev.free s)
    (hrun : ev.call.code.run env s = .ok ev.result t) (h : InPlaceRun env t evs u) :
    InPlaceRun env s (ev :: evs) u

/-- **A run of calls in place** is one on a disk that works, and none of them is refused. -/
theorem InPlaceRun.steady {T : Tree} {sb : Superblock} {evs : List Event}
    (hrun : InPlaceRun env s evs t) (hs : env.ReadsSome) (ht : s.HoldsTree env.steady sb T) :
    Run env.steady s evs t ∧ ∀ ev ∈ evs, 0 ≤ ev.result := by
  induction hrun generalizing T with
  | nil s => exact ⟨.nil s, fun ev hev => absurd hev List.not_mem_nil⟩
  | look hlook _ ih =>
    obtain ⟨h, f, os, dirs, hh, hsb, rfl⟩ := ht
    obtain ⟨hrun, hres⟩ := ih ((hh.holdsTree hlook).of_superblock hsb)
    exact ⟨.look hlook hrun, hres⟩
  | cons henabled hin hfree hrun _ ih =>
    obtain ⟨h, f, os, dirs, hh, hsb, rfl⟩ := ht
    obtain ⟨henabled', hrun', hnonneg⟩ := hh.inPlace_steady hs henabled hin hrun
    obtain ⟨T₁, hT₁, -⟩ := hh.call env.steady_reliable henabled' hrun'
    obtain ⟨hrest, hres⟩ := ih (hT₁.of_superblock hsb)
    rw [fatStatfs_run hh.wellFormed.owns] at hfree
    refine ⟨.cons henabled' ?_ hrun' hrest, List.forall_mem_cons.mpr ⟨hnonneg, hres⟩⟩
    rw [fatStatfs_run hh.wellFormed.owns]
    exact hfree

/-- **What has returned has happened.** After any service on a fresh disk, let the disk begin
to fail: its reads may be short and its writes may be short or fail. The calls that need no new
cluster, as long as they return, succeed and do to the tree what they do on a disk that works;
and any service after that goes on with this tree. All calls are enabled when they are made
(`Call.Enabled`). -/
theorem inPlace_refine_tree {env₀ : Env} {s₀ v : Server} {evs evs' evs'' : List Event}
    (hr : env₀.Reliable) (hzero : s₀.fatDisk = fun _ => 0)
    (hinit : (fatInit false).run env₀ s₀ = .ok () s) (hrun : Service s evs t)
    (hs : env.ReadsSome) (hin : InPlaceRun env t evs' u) (hrest : Service u evs'' v) :
    (∀ ev ∈ evs', 0 ≤ ev.result)
      ∧ ∃ T, TreeRun 4096 Hierarchy.emptyTree (evs ++ evs' ++ evs'') T
        ∧ ∀ env' : Env, env'.ReadsFull → v.Shows env' 4096 T := by
  obtain ⟨hsync, T₁, hT₁, ht⟩ := hrun.holdsTree hr hzero hinit
  have ht := ht.of_heap env.steady
  obtain ⟨hsteady, hres⟩ := hin.steady hs ht
  obtain ⟨T₂, hT₂, hu⟩ := ht.run env.steady_reliable hsteady
  obtain ⟨-, T₃, hT₃, hv⟩ := hu.service (ht.synced env.steady_reliable hsync hsteady) hrest
  exact ⟨hres, T₃, (hT₁.append hT₂).append hT₃, hv.shows⟩

/-! ## A disk whose writes fail -/

/-- The same environment, when the writes fail from the `n`-th on. -/
def Env.failingFrom (env : Env) (n : ℕ) : Env :=
  { env with pwrite := fun k => if k < n then env.pwrite k else .failed }

theorem Env.failingFrom_readsSome (hr : env.ReadsFull) (n : ℕ) :
    (env.failingFrom n).ReadsSome := by
  intro k hk
  rw [show (env.failingFrom n).pread k = .full from hr k] at hk
  cases hk

/-- What comes before the failures is as without them. -/
theorem Causal.run_failingFrom {x : FatM α} {a : α} (hx : Causal x)
    (hrun : x.run env s = .ok a t) (hn : t.pwrites.length ≤ n) :
    x.run (env.failingFrom n) s = .ok a t := by
  rw [← hrun]
  refine hx.congr env _ s ⟨fun _ _ _ => rfl, fun k _ hk => ?_, rfl, rfl⟩
  rw [hrun] at hk
  exact if_pos (hk.trans_le hn)

/-- A lookup meets no failing write. -/
theorem Server.Finds.failingFrom {a : Option FatDirEntry} (hf : s.Finds env path a)
    (hn : s.pwrites.length ≤ n) : s.Finds (env.failingFrom n) path a := by
  obtain ⟨t, ht⟩ := hf
  obtain ⟨k, rfl⟩ := (ReadOnly.findDirEntryByPath env path).of_ok ht
  exact ⟨_, (Causal.findDirEntryByPath path).run_failingFrom ht hn⟩

/-- **A write into the first cluster of a file** may be the last that the disk does. -/
theorem Server.Holds.write_failingFrom {dir : List (List UInt8)} {bytes : List UInt8}
    (hh : s.Holds env h f os dirs) (hr : env.Reliable)
    (hnames : ∀ x ∈ dir ++ [name], ChildName x)
    (hp : h.tree (dir ++ [name]) = some (.file bytes)) (hsize : 0 < size)
    (hfits : offset + size ≤ s.superblock.bytePerCluster) (buf : Buf) :
    ∃ n t, InPlaceRun (env.failingFrom n) s
      [⟨⟨dir, name, .write buf size offset⟩, f.length, size⟩] t := by
  have hg := hh.wellFormed.owns.geometry
  have hsum : offset + size < 2 ^ 32 := by
    have hcap := hg.capacity
    have hle := Nat.le_mul_of_pos_left s.superblock.bytePerCluster (Nat.zero_lt_of_lt hg.room)
    omega
  obtain ⟨-, e, hreads, htype, -⟩ := hh.exists_file_at hr.reads hnames hp
  rw [fusePath_concat] at hreads
  obtain ⟨j, hj⟩ := hreads.run
  have hf : s.Finds env (pathOf (dir ++ [name])) (some e) := ⟨_, hj⟩
  obtain ⟨o, os', pl, x, rfl, hfile, -, -⟩ := hh.exists_file hr.reads
    (fun x hx => hnames x (List.mem_append_left _ hx)) (hnames name (by simp)) hf htype
  have ho := hfile.file.owns.owners o (Multiset.mem_cons_self _ _)
  have hroom : offset + size ≤ o.length * s.superblock.bytePerCluster :=
    hfits.trans (Nat.le_mul_of_pos_left _ (List.length_pos_of_ne_nil ho.1))
  obtain ⟨t, hrun⟩ := hfile.fatWrite_run hr hsize hsum (by
    rw [Server.lacking, Nat.sub_eq_zero_of_le (final_of_le (by omega) hroom)]
    exact Nat.zero_le _) buf
  have hcausal : Causal (fatWrite (pathOf (dir ++ [name])) buf size offset) :=
    .bind (.lookupTarget _) fun _ => .updateFile _ _ _ _ _
  have hlater : s.pwrites.length ≤ t.pwrites.length := by
    have hlater := (hcausal.later env s).pwrites
    rwa [hrun] at hlater
  have hf' := hf.failingFrom hlater
  have hchain := hfile.file.owns.chain (Multiset.mem_cons_self _ _)
  rw [hfile.file.head] at hchain
  exact ⟨t.pwrites.length, t, .cons ⟨hnames, hsize, hsum, e, hf', htype⟩
    ⟨e, o, hf', hchain, hroom⟩ (fatStatfs_run hh.wellFormed.owns)
    (hcausal.run_failingFrom hrun le_rfl) (.nil t)⟩

/-- The file `/a` is made on a fresh disk. -/
theorem mknod_fresh {s₀ : Server} (hr : env.Reliable) (hzero : s₀.fatDisk = fun _ => 0) :
    ∃ s t, (fatInit false).run env s₀ = .ok () s
      ∧ Run env s [⟨⟨[], [97], .mknod sIfreg⟩, 2555, 0⟩] t
      ∧ ∃ T, t.HoldsTree env s.superblock T ∧ T [[97]] = some (.file []) := by
  obtain ⟨s, hinit, hh, hen⟩ := mkdir_enabled_fresh hr hzero
  have hn := hen.names [97] (List.mem_singleton_self _)
  obtain ⟨hdir, hfind, htakes⟩ := hen.op
  obtain ⟨pl, hpl, hwalk, hp⟩ := hh.exists_parent hr.reads
    (fun x hx => absurd hx List.not_mem_nil) hn hdir hfind
  obtain ⟨t, hrun, ht⟩ := Server.Holds.make (d := 5) (f := List.range' 6 2554) hh hr hpl hwalk hp
    hn htakes (Or.inl rfl)
  refine ⟨s, t, hinit, .cons ⟨hen.names, hen.op⟩ ?_ ?_ (.nil t), _, ht, ?_⟩
  · rw [fatStatfs_run hh.wellFormed.owns]
    simp
  · show (fatMknod (pathOf ([] ++ [[97]])) sIfreg).run env s = .ok 0 t
    rw [fatMknod, if_pos (by decide), Prog.bind_ok _ (hasFreeCluster_run hh.wellFormed.owns
      hp.root_owned), decide_eq_true (by simp), if_pos rfl]
    exact hrun
  · exact (Function.update_self _ _ _).trans (by rw [if_neg (by decide)])

/-- The file `/a` is made, a byte is written to it, and from then on no write succeeds. -/
theorem failing_fresh :
    ∃ n free s t u, (fatInit false).run .ideal .blank = .ok () s
      ∧ Run .ideal s [⟨⟨[], [97], .mknod sIfreg⟩, 2555, 0⟩] t
      ∧ InPlaceRun (Env.failingFrom .ideal n) t
        [⟨⟨[], [97], .write (fun _ => 98) 1 0⟩, free, 1⟩] u := by
  obtain ⟨s, t, hinit, hrun, T, ⟨h, f, os, dirs, hh, ⟨v, hv⟩, rfl⟩, hfile⟩ :=
    mknod_fresh Env.ideal_reliable (show Server.blank.fatDisk = fun _ => 0 from rfl)
  have hnames : ∀ x ∈ ([] : List (List UInt8)) ++ [[97]], ChildName x := fun x hx => by
    rw [List.mem_singleton.mp hx]
    exact ⟨⟨by decide, by decide, by decide⟩, by decide, by decide⟩
  have hfits : 0 + 1 ≤ t.superblock.bytePerCluster := hh.wellFormed.owns.geometry.page_pos
  obtain ⟨n, u, hin⟩ := hh.write_failingFrom Env.ideal_reliable hnames hfile Nat.one_pos hfits
    (fun _ => 98)
  exact ⟨n, f.length, s, t, u, hinit, hrun, hin⟩

/-- The byte has been written. -/
theorem inPlace_refine_tree_fresh :
    ∃ n free s t u, (fatInit false).run .ideal .blank = .ok () s
      ∧ Run .ideal s [⟨⟨[], [97], .mknod sIfreg⟩, 2555, 0⟩] t
      ∧ InPlaceRun (Env.failingFrom .ideal n) t
        [⟨⟨[], [97], .write (fun _ => 98) 1 0⟩, free, 1⟩] u
      ∧ ∃ T, TreeRun 4096 Hierarchy.emptyTree [⟨⟨[], [97], .mknod sIfreg⟩, 2555, 0⟩,
          ⟨⟨[], [97], .write (fun _ => 98) 1 0⟩, free, 1⟩] T
        ∧ ∀ env' : Env, env'.ReadsFull → u.Shows env' 4096 T := by
  have hr := Env.ideal_reliable
  obtain ⟨n, free, s, t, u, hinit, hrun, hin⟩ := failing_fresh
  exact ⟨n, free, s, t, u, hinit, hrun, hin, (inPlace_refine_tree hr rfl hinit
    (.calls hr hrun (.nil t)) (Env.failingFrom_readsSome hr.reads n) hin (.nil u)).2⟩

end Fat
