import LLPFilesystem.FatInsert

/-!
# What a run depends on

A run takes from its environment the outcomes of the system calls that it makes, the
clock and the heap. Two environments that agree on these give the same run
(`Causal.congr`), whatever they hold for the calls made before and after. This is how a
run in which one call fails is told from one in which none does.
-/

namespace Fat

variable {α β : Type} {env env' : Env} {s t u : Server}

/-- A later server has made more calls. -/
structure Server.Later (s t : Server) : Prop where
  preads : s.preads ≤ t.preads
  pwrites : s.pwrites.length ≤ t.pwrites.length

theorem Server.Later.refl (s : Server) : s.Later s := ⟨Nat.le_refl _, Nat.le_refl _⟩

theorem Server.Later.trans (h : s.Later t) (h' : t.Later u) : s.Later u :=
  ⟨h.preads.trans h'.preads, h.pwrites.trans h'.pwrites⟩

/-- **The environments agree** on what happens between two servers of a run. -/
structure Env.Agree (env env' : Env) (s t : Server) : Prop where
  pread : ∀ k, s.preads ≤ k → k < t.preads → env'.pread k = env.pread k
  pwrite : ∀ k, s.pwrites.length ≤ k → k < t.pwrites.length → env'.pwrite k = env.pwrite k
  time : env'.time = env.time
  heap : env'.heap = env.heap

namespace Env.Agree

theorem left (h : env.Agree env' s u) (htu : t.Later u) : env.Agree env' s t :=
  ⟨fun k hk hlt => h.pread k hk (hlt.trans_le htu.preads),
    fun k hk hlt => h.pwrite k hk (hlt.trans_le htu.pwrites), h.time, h.heap⟩

theorem right (h : env.Agree env' s u) (hst : s.Later t) : env.Agree env' t u :=
  ⟨fun k hk => h.pread k (hst.preads.trans hk), fun k hk => h.pwrite k (hst.pwrites.trans hk),
    h.time, h.heap⟩

end Env.Agree

/-- **The program depends only on what happens while it runs.** -/
structure Causal (x : FatM α) : Prop where
  later : ∀ (env : Env) (s : Server), s.Later (x.run env s).state
  congr : ∀ (env env' : Env) (s : Server), env.Agree env' s (x.run env s).state →
    x.run env' s = x.run env s

namespace Causal

theorem of_env {x : FatM α} (hlater : ∀ (env : Env) (s : Server), s.Later (x.run env s).state)
    (h : ∀ (env env' : Env) (s : Server), x.run env' s = x.run env s) : Causal x :=
  ⟨hlater, fun env env' s _ => h env env' s⟩

theorem pure (a : α) : Causal (Pure.pure a) :=
  of_env (fun _ s => .refl s) fun _ _ _ => rfl

theorem fail (f : Fault) : Causal (Prog.fail f : FatM α) :=
  of_env (fun _ s => .refl s) fun _ _ _ => rfl

theorem get : Causal (MonadState.get : FatM Server) :=
  of_env (fun _ s => .refl s) fun _ _ _ => rfl

theorem of_modify {g : Server → Server} (h : ∀ s : Server, s.Later (g s)) :
    Causal (modify g : FatM PUnit) := of_env (fun _ s => h s) fun _ _ _ => rfl

/-- **In a sequence**, the first part does not look into the second, nor back. -/
theorem bind {x : FatM α} {g : α → FatM β} (hx : Causal x) (hg : ∀ a, Causal (g a)) :
    Causal (x >>= g) := by
  constructor
  · intro env s
    have hlater := hx.later env s
    cases hrun : x.run env s with
    | ok a t =>
      rw [hrun] at hlater
      rw [Prog.bind_ok g hrun]
      exact hlater.trans ((hg a).later env t)
    | stop f t =>
      rw [hrun] at hlater
      rw [Prog.bind_stop g hrun]
      exact hlater
  · intro env env' s hagree
    have hlater := hx.later env s
    cases hrun : x.run env s with
    | ok a t =>
      rw [hrun] at hlater
      rw [Prog.bind_ok g hrun] at hagree ⊢
      have hx' : x.run env' s = .ok a t := by
        rw [← hrun]
        refine hx.congr env env' s (hagree.left ?_)
        rw [hrun]
        exact (hg a).later env t
      rw [Prog.bind_ok g hx']
      exact (hg a).congr env env' t (hagree.right hlater)
    | stop f t =>
      rw [Prog.bind_stop g hrun] at hagree ⊢
      have hx' : x.run env' s = .stop f t := by
        rw [← hrun]
        refine hx.congr env env' s ?_
        rw [hrun]
        exact hagree
      rw [Prog.bind_stop g hx']

theorem ite {q : Prop} [Decidable q] {x y : FatM α} (hx : Causal x) (hy : Causal y) :
    Causal (if q then x else y) := by
  split
  · exact hx
  · exact hy

/-- A program that looks at the clock. -/
theorem read_bind {g : Env → FatM α} (hg : ∀ env, Causal (g env))
    (h : ∀ env env' : Env, env'.time = env.time → g env' = g env) : Causal (read >>= g) := by
  refine ⟨fun env s => ?_, fun env env' s hagree => ?_⟩
  · rw [Prog.bind_ok g (Prog.run_read env s)]
    exact (hg env).later env s
  · rw [Prog.bind_ok g (Prog.run_read env s)] at hagree ⊢
    rw [Prog.bind_ok g (Prog.run_read env' s), h env env' hagree.time]
    exact (hg env).congr env env' s hagree

theorem check (q : Prop) [Decidable q] : Causal (check q) := ite (pure ()) (fail _)

/-! ## The system calls -/

theorem pread (buf : Buf) (size offset : ℕ) : Causal (pread buf size offset) := by
  refine ⟨fun env s => ⟨Nat.le_succ _, Nat.le_refl _⟩, fun env env' s hagree => ?_⟩
  have hpread : env'.pread s.preads = env.pread s.preads :=
    hagree.pread s.preads (Nat.le_refl _) (Nat.lt_succ_self _)
  show Outcome.ok ((env'.pread s.preads).result size,
    buf.blit 0 (s.fatDisk.shift offset) ((env'.pread s.preads).moved size)) _ = _
  rw [hpread]
  rfl

theorem pwrite (buf : Buf) (size offset : ℕ) : Causal (pwrite buf size offset) := by
  refine ⟨fun env s => ⟨Nat.le_refl _, Nat.le_succ _⟩, fun env env' s hagree => ?_⟩
  have hpwrite : env'.pwrite s.pwrites.length = env.pwrite s.pwrites.length :=
    hagree.pwrite s.pwrites.length (Nat.le_refl _) (Nat.lt_succ_self _)
  show Outcome.ok ((env'.pwrite s.pwrites.length).result size)
    (s.pwritten env' buf size offset) = _
  rw [hpwrite, Server.pwritten, hpwrite]
  rfl

theorem getNewCluster : Causal getNewCluster := by
  refine ⟨fun env s => .refl s, fun env env' s hagree => ?_⟩
  show Outcome.ok (s.newCluster env') s = _
  unfold Server.newCluster
  rw [hagree.heap]
  rfl

/-! ## The functions -/

theorem getDiskOffset (c : ℕ) : Causal (getDiskOffset c) :=
  get.bind fun s => (check (c < s.superblock.clusterCount)).bind fun _ => pure _

theorem readClusterFromDisk (buf : Buf) (c o n : ℕ) : Causal (readClusterFromDisk buf c o n) := by
  refine get.bind fun s => (check _).bind fun _ => (getDiskOffset c).bind fun offset => ?_
  exact (pread buf n _).bind fun x => pure _

theorem readEntireClusterFromDisk (buf : Buf) (c : ℕ) :
    Causal (readEntireClusterFromDisk buf c) :=
  get.bind fun _ => readClusterFromDisk buf c 0 _

theorem writeClusterToDisk (buf : Buf) (c : ℕ) : Causal (writeClusterToDisk buf c) := by
  refine get.bind fun s => (check _).bind fun _ => (getDiskOffset c).bind fun offset => ?_
  exact (pwrite buf _ offset).bind fun _ => pure _

theorem writeSuperblockToDisk : Causal writeSuperblockToDisk :=
  getNewCluster.bind fun _ => get.bind fun _ => writeClusterToDisk _ 0

theorem readFatEntry (c : ℕ) : Causal (readFatEntry c) :=
  get.bind fun _ => ite (pure _) (fail _)

theorem followChain (fuel c : ℕ) : Causal (followChain fuel c) := by
  induction fuel generalizing c with
  | zero => exact fail _
  | succ fuel ih => exact (readFatEntry c).bind fun next => ite (pure _) (ih next)

theorem skipClusters (n c : ℕ) : Causal (skipClusters n c) := by
  induction n generalizing c with
  | zero => exact pure _
  | succ n ih => exact (readFatEntry c).bind fun next => ih next

theorem updateFatEntry (c v : ℕ) (onDisk : Bool) : Causal (updateFatEntry c v onDisk) := by
  refine get.bind fun s => (check _).bind fun _ => ite ?_ (fail _)
  refine bind (of_modify fun s => ?_) fun _ => ?_
  · exact ⟨Nat.le_refl _, Nat.le_refl _⟩
  · exact ite (get.bind fun s => writeClusterToDisk _ _) (pure _)

theorem popWalk (n c : ℕ) : Causal (popWalk n c) := by
  induction n generalizing c with
  | zero => exact pure _
  | succ n ih => exact ite (pure _) ((readFatEntry c).bind fun next => ih next)

theorem zeroClusters (zeros : Buf) (fuel c : ℕ) : Causal (zeroClusters zeros fuel c) := by
  induction fuel generalizing c with
  | zero => exact fail _
  | succ fuel ih =>
    exact (writeClusterToDisk zeros c).bind fun _ => (readFatEntry c).bind fun next =>
      ite (pure _) (ih next)

theorem popFreeClusters (n : ℕ) : Causal (popFreeClusters n) := by
  refine (check _).bind fun _ => get.bind fun s => (popWalk _ _).bind fun x => ?_
  obtain ⟨length, last⟩ := x
  refine ite (pure _) ((readFatEntry last).bind fun rest => ?_)
  refine (of_modify (g := fun s => s.setFree rest) fun s => ?_).bind fun _ => ?_
  · exact ⟨Nat.le_refl _, Nat.le_refl _⟩
  · refine writeSuperblockToDisk.bind fun _ => ?_
    refine (updateFatEntry _ _ _).bind fun _ => getNewCluster.bind fun zeros => ?_
    exact (zeroClusters zeros _ _).bind fun _ => pure _

theorem addFreeCluster (c : ℕ) : Causal (addFreeCluster c) :=
  (popFreeClusters 1).bind fun _ => get.bind fun _ => (followChain _ c).bind fun _ =>
    (updateFatEntry _ _ _).bind fun _ => pure _

theorem loadCluster (c : ℕ) : Causal (loadCluster c) := by
  refine getNewCluster.bind fun buf => (readEntireClusterFromDisk buf c).bind fun x => ?_
  exact (check _).bind fun _ => pure _

theorem putEntryAt (cluster : Buf) (offset : ℕ) (e : FatDirEntry) :
    Causal (putEntryAt cluster offset e) := get.bind fun _ => ite (pure _) (fail _)

theorem scanDir {ok : Superblock → ℕ → Bool} {p : FatDirEntry → Bool}
    {hit : ℕ → Buf → ℕ → FatM α} {miss : ℕ → FatM α}
    (hhit : ∀ c buf o, Causal (hit c buf o)) (hmiss : ∀ c, Causal (miss c)) (fuel c : ℕ) :
    Causal (scanDir ok p hit miss fuel c) := by
  induction fuel generalizing c with
  | zero => exact fail _
  | succ fuel ih =>
    refine get.bind fun s => (check _).bind fun _ => (loadCluster c).bind fun buf => ?_
    split
    · exact hhit _ _ _
    · exact (readFatEntry c).bind fun next => ite (hmiss c) (ih next)

theorem updateDirEntry (c : ℕ) (e : FatDirEntry) (remove : Bool) :
    Causal (updateDirEntry c e remove) := by
  refine get.bind fun s => scanDir (fun c buf o => ?_) (fun _ => pure _) _ c
  exact ite (writeClusterToDisk _ c)
    ((putEntryAt buf o e).bind fun cluster => writeClusterToDisk cluster c)

theorem addDirEntryToCluster (c : ℕ) (name : List UInt8) (first : ℕ) (type : UInt16) :
    Causal (addDirEntryToCluster c name first type) := by
  have hcreate : ∀ (c : ℕ) (buf : Buf) (offset : ℕ) (time : ℕ → ℕ),
      Causal (do
        let s ← MonadState.get
        let cluster ← Fat.putEntryAt buf offset ({
          name := nameField name
          type := type
          size := 0
          firstCluster := UInt32.ofNat first
          time := UInt64.ofNat (time s.pwrites.length) } : FatDirEntry)
        Fat.writeClusterToDisk cluster c) :=
    fun c buf offset time => get.bind fun s => (putEntryAt buf offset _).bind
      fun cluster => writeClusterToDisk cluster c
  refine read_bind (fun env => ?_) (fun env env' htime => by rw [htime])
  refine get.bind fun s => (check _).bind fun _ => ite (pure _) ?_
  refine scanDir (fun c buf offset => hcreate c buf offset env.time) (fun c => ?_) _ c
  refine (get.bind fun s => pure _).bind fun free => ite ?_ (pure _)
  exact (addFreeCluster c).bind fun c => getNewCluster.bind fun buf => hcreate c buf 0 env.time

theorem updateSize (c : ℕ) (e : FatDirEntry) (n : ℕ) : Causal (updateSize c e n) := by
  refine read_bind (fun env => ?_) (fun env env' htime => by rw [htime])
  refine get.bind fun s => ite ?_ (pure _)
  exact (updateDirEntry c _ false).bind fun r => check _

theorem storeCluster (buf : Buf) (c : ℕ) : Causal (storeCluster buf c) :=
  (writeClusterToDisk buf c).bind fun _ => check _

theorem modifyCluster (cluster : Buf) (c off : ℕ) (src : Buf) (n : ℕ) :
    Causal (modifyCluster cluster c off src n) := by
  refine (readEntireClusterFromDisk cluster c).bind fun x => (check _).bind fun _ => ?_
  exact (storeCluster _ c).bind fun _ => pure _

theorem writeWhole (buf : Buf) (b n c off : ℕ) : Causal (writeWhole buf b n c off) := by
  induction n generalizing c off with
  | zero => exact pure _
  | succ n ih =>
    exact (readFatEntry c).bind fun next => (storeCluster _ next).bind fun _ => ih next _

theorem writeRest (cluster buf : Buf) (c off n : ℕ) : Causal (writeRest cluster buf c off n) := by
  refine get.bind fun s => (writeWhole buf _ _ c off).bind fun last => ite (pure _) ?_
  exact (readFatEntry last).bind fun next => (modifyCluster cluster next 0 _ _).bind fun _ =>
    pure _

theorem writeData (c : ℕ) (buf : Buf) (size offset : ℕ) : Causal (writeData c buf size offset) := by
  refine get.bind fun s => (skipClusters _ c).bind fun d => getNewCluster.bind fun cluster => ?_
  refine ite ((modifyCluster cluster d _ buf _).bind fun cluster => ?_)
    (bind ((storeCluster buf d).bind fun _ => pure cluster) fun cluster => ?_)
  · exact ite (pure _) (writeRest cluster buf d _ _)
  · exact ite (pure _) (writeRest cluster buf d _ _)

theorem countFrom (fuel c : ℕ) : Causal (countFrom fuel c) := by
  induction fuel generalizing c with
  | zero => exact fail _
  | succ fuel ih =>
    refine get.bind fun s => (check _).bind fun _ => ite (pure _) ?_
    exact (readFatEntry c).bind fun next => (ih next).bind fun n => pure _

theorem growFile (c n m : ℕ) : Causal (growFile c n m) := by
  refine ite ((popFreeClusters _).bind fun first => ite (pure _) ?_) (pure _)
  refine bind ?_ fun last => (updateFatEntry last first true).bind fun _ => pure _
  exact get.bind fun s => ite (pure _) (followChain _ _)

theorem updateFile (c : ℕ) (e : FatDirEntry) (buf : Buf) (size offset : ℕ) :
    Causal (updateFile c e buf size offset) := by
  refine (check _).bind fun _ => get.bind fun s => bind (get.bind fun s => countFrom _ _)
    fun n => (growFile _ n _).bind fun granted => ite ?_ (pure _)
  exact (updateSize c e _).bind fun _ => (writeData _ buf size offset).bind fun _ => pure _

theorem nameStart (path : List UInt8) (k : ℕ) : Causal (nameStart path k) := by
  induction k with
  | zero => exact fail _
  | succ k ih => exact ite (pure _) ih

theorem findDirEntryByName (c : ℕ) (name : List UInt8) : Causal (findDirEntryByName c name) :=
  get.bind fun _ => scanDir (fun _ _ _ => pure _) (fun _ => pure _) _ c

theorem walkPath (toks : List (List UInt8)) (c : ℕ) : Causal (walkPath toks c) := by
  induction toks generalizing c with
  | nil => exact pure _
  | cons tok toks ih =>
    refine (findDirEntryByName c tok).bind fun r => ?_
    cases r with
    | none => exact pure _
    | some e => exact ite (pure _) (ih _)

theorem findDirEntryByPath (path : List UInt8) : Causal (findDirEntryByPath path) := by
  refine ite (pure _) (get.bind fun s => ?_)
  refine ((nameStart path _).bind fun n => pure _).bind fun parent => ?_
  refine ((nameStart path _).bind fun n => pure _).bind fun name => ?_
  refine (walkPath _ _).bind fun r => ?_
  cases r with
  | none => exact pure _
  | some c => exact findDirEntryByName c name

theorem lookupTarget (path : List UInt8) : Causal (lookupTarget path) := by
  refine ((nameStart path _).bind fun n => pure _).bind fun parent => ?_
  refine ((nameStart path _).bind fun n => pure _).bind fun name => ?_
  refine bind (get.bind fun s => ite ?_ (pure _)) fun c => ?_
  · refine (findDirEntryByPath parent).bind fun r => ?_
    cases r with
    | none => exact fail _
    | some e => exact pure _
  · refine (findDirEntryByName c name).bind fun r => ?_
    cases r with
    | none => exact fail _
    | some e => exact pure _

end Causal

end Fat
