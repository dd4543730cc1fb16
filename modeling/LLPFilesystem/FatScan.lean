import LLPFilesystem.FatAlloc
import LLPFilesystem.FatDir
import LLPFilesystem.FatFile

/-!
# What a scan finds

The lookups of the file system only read, and what they return does not
depend on how many reads came before. `Server.Reads` says so of a program,
and composes, so a lookup is computed from its parts without following the
count of reads through them.

A scan of a directory visits the slots of its chain in order
(`Server.slots`) and stops at the first one whose entry it looks for
(`scanDir_run`). What a name is looked up to is therefore a function of the
directory alone (`Server.lookup`).
-/

namespace Fat

variable {env : Env} {s t : Server} {c d : ℕ} {l : List ℕ} {α β : Type} {a : α} {b : β}

/-! ## Reading -/

/-- **The program only reads**, and returns `a`, whatever reads were made
before. -/
def Server.Reads (s : Server) (env : Env) (x : FatM α) (a : α) : Prop :=
  ∀ k, ∃ k', x.run env { s with preads := k } = .ok a { s with preads := k' }

namespace Server.Reads

theorem pure (s : Server) (env : Env) (a : α) : s.Reads env (Pure.pure a) a :=
  fun k => ⟨k, rfl⟩

theorem bind {x : FatM α} {f : α → FatM β} (hx : s.Reads env x a)
    (hf : s.Reads env (f a) b) : s.Reads env (x >>= f) b := by
  intro k
  obtain ⟨k', hk'⟩ := hx k
  obtain ⟨k'', hk''⟩ := hf k'
  exact ⟨k'', (Prog.bind_ok f hk').trans hk''⟩

/-- Reading the state is followed by a program that does not use the count of
reads. -/
theorem get_bind {f : Server → FatM β}
    (hf : ∀ k, s.Reads env (f { s with preads := k }) b) :
    s.Reads env (get >>= f) b := by
  intro k
  obtain ⟨k', hk'⟩ := hf k k
  exact ⟨k', (Prog.bind_ok f (Prog.run_get env _)).trans hk'⟩

theorem check_bind {p : Prop} [Decidable p] (h : p) {f : Unit → FatM β}
    (hf : s.Reads env (f ()) b) : s.Reads env (check p >>= f) b :=
  bind (fun k => ⟨k, check_run h env _⟩) hf

theorem run {x : FatM α} (hx : s.Reads env x a) :
    ∃ k, x.run env s = .ok a { s with preads := k } := hx s.preads

end Server.Reads

/-! ## Programs that change nothing

The lookups leave the server as it was, except for the count of reads, even
where they stop. -/

/-- The server after some more reads. -/
def Server.ReadTo (s t : Server) : Prop := ∃ k, t = { s with preads := k }

theorem Server.ReadTo.refl (s : Server) : s.ReadTo s := ⟨s.preads, rfl⟩

/-- **The program changes nothing**, however it ends. -/
abbrev ReadOnly (env : Env) (x : FatM α) : Prop := Prog.Within env Server.ReadTo x

namespace ReadOnly

theorem pure (env : Env) (a : α) : ReadOnly env (Pure.pure a) :=
  Prog.Within.pure Server.ReadTo.refl a

theorem fail (env : Env) (f : Fault) : ReadOnly env (Prog.fail f : FatM α) :=
  Prog.Within.fail Server.ReadTo.refl f

theorem get (env : Env) : ReadOnly env (MonadState.get : FatM Server) :=
  Prog.Within.get Server.ReadTo.refl

theorem bind {x : FatM α} {f : α → FatM β} (hx : ReadOnly env x)
    (hf : ∀ a, ReadOnly env (f a)) : ReadOnly env (x >>= f) :=
  Prog.Within.bind (fun _ _ _ ⟨_, h₁⟩ ⟨k, h₂⟩ => ⟨k, by rw [h₂, h₁]⟩) hx hf

theorem check (p : Prop) [Decidable p] : ReadOnly env (check p) := by
  unfold Fat.check
  exact Prog.Within.ite (fun _ => pure env ()) (fun _ => fail env _)

theorem readFatEntry (env : Env) (c : ℕ) : ReadOnly env (readFatEntry c) := fun s =>
  ⟨s.preads, readFatEntry_within env s⟩

theorem readClusterFromDisk (env : Env) (buf : Buf) (c o n : ℕ) :
    ReadOnly env (readClusterFromDisk buf c o n) := by
  refine (get env).bind (fun s => (check _).bind (fun _ => bind ?_ (fun off => ?_)))
  · exact (get env).bind (fun s => (check _).bind (fun _ => pure env _))
  · exact bind (fun s => ⟨s.preads + 1, rfl⟩) (fun _ => pure env _)

theorem loadCluster (env : Env) (c : ℕ) : ReadOnly env (loadCluster c) := by
  refine bind (fun s => ⟨s.preads, rfl⟩) (fun buf => bind ?_ (fun _ =>
    (check _).bind (fun _ => pure env _)))
  exact (get env).bind (fun s => readClusterFromDisk env buf c 0 _)

/-- A scan changes nothing unless it does so at its end. -/
theorem scanDir {ok : Superblock → ℕ → Bool} {p : FatDirEntry → Bool}
    {hit : ℕ → Buf → ℕ → FatM α} {miss : ℕ → FatM α}
    (hhit : ∀ c cluster o, ReadOnly env (hit c cluster o))
    (hmiss : ∀ c, ReadOnly env (miss c)) (fuel c : ℕ) :
    ReadOnly env (scanDir ok p hit miss fuel c) := by
  induction fuel generalizing c with
  | zero => exact fail env _
  | succ fuel ih =>
    refine (get env).bind (fun s => (check _).bind (fun _ =>
      (loadCluster env c).bind (fun cluster => ?_)))
    split
    · exact hhit _ _ _
    · exact (readFatEntry env c).bind (fun next =>
        Prog.Within.ite (fun _ => hmiss c) (fun _ => ih next))

theorem findDirEntryByName (env : Env) (c : ℕ) (name : List UInt8) :
    ReadOnly env (findDirEntryByName c name) :=
  (get env).bind (fun _ => scanDir (fun _ _ _ => pure env _) (fun _ => pure env _) _ _)

theorem nameStart (env : Env) (path : List UInt8) (k : ℕ) :
    ReadOnly env (nameStart path k) := by
  induction k with
  | zero => exact fail env _
  | succ k ih => exact Prog.Within.ite (fun _ => pure env _) (fun _ => ih)

theorem getParentPath (env : Env) (path : List UInt8) :
    ReadOnly env (getParentPath path) :=
  (nameStart env path _).bind (fun _ => pure env _)

theorem getTargetName (env : Env) (path : List UInt8) :
    ReadOnly env (getTargetName path) :=
  (nameStart env path _).bind (fun _ => pure env _)

theorem walkPath (env : Env) (toks : List (List UInt8)) (c : ℕ) :
    ReadOnly env (walkPath toks c) := by
  induction toks generalizing c with
  | nil => exact pure env _
  | cons tok toks ih =>
    refine (findDirEntryByName env c tok).bind (fun found => ?_)
    split
    · exact pure env _
    · exact Prog.Within.ite (fun _ => pure env _) (fun _ => ih _)

theorem putEntryAt (env : Env) (cluster : Buf) (offset : ℕ) (e : FatDirEntry) :
    ReadOnly env (putEntryAt cluster offset e) :=
  (get env).bind fun _ => Prog.Within.ite (fun _ => pure env _) fun _ => fail env _

theorem findDirEntryByPath (env : Env) (path : List UInt8) :
    ReadOnly env (findDirEntryByPath path) := by
  refine Prog.Within.ite (fun _ => pure env _) (fun _ => (get env).bind (fun s =>
    (getParentPath env path).bind (fun _ => (getTargetName env path).bind (fun name =>
      (walkPath env _ _).bind (fun found => ?_)))))
  split
  · exact pure env _
  · exact findDirEntryByName env _ name

theorem findFirstClusterByPath (env : Env) (path : List UInt8) :
    ReadOnly env (findFirstClusterByPath path) := by
  refine (get env).bind (fun s => Prog.Within.ite (fun _ =>
    (findDirEntryByPath env path).bind (fun found => ?_)) (fun _ => pure env _))
  split
  · exact fail env _
  · exact pure env _

/-- The lookup every operation on a file starts with changes nothing. -/
theorem lookupTarget (env : Env) (path : List UInt8) :
    ReadOnly env (lookupTarget path) := by
  refine (getParentPath env path).bind (fun parent => (getTargetName env path).bind
    (fun name => (findFirstClusterByPath env parent).bind (fun c =>
      (findDirEntryByName env c name).bind (fun found => ?_))))
  split
  · exact fail env _
  · exact pure env _

end ReadOnly

/-! ## Chains and clusters -/

/-- The chains of a server are where they were after a read. -/
theorem Server.Chain.preads (h : s.Chain c l) (k : ℕ) :
    ({ s with preads := k } : Server).Chain c l := ⟨h.linked, h.data⟩

theorem reads_readFatEntry (hg : s.superblock.Geometry) (hc : s.superblock.IsData c) :
    s.Reads env (readFatEntry c) (s.next c) :=
  fun k => ⟨k, readFatEntry_run (s := { s with preads := k }) hg hc⟩

/-- Skipping clusters of a chain. -/
theorem reads_skipClusters (hg : s.superblock.Geometry) (h : s.Chain c l) {i : ℕ}
    (hi : l[i]? = some d) : s.Reads env (skipClusters i c) d :=
  fun k => ⟨k, skipClusters_getElem? env (s := { s with preads := k }) hg (h.preads k) hi⟩

/-- Reading the first bytes of a cluster. -/
theorem reads_readClusterFromDisk (hr : env.ReadsFull) (hg : s.superblock.Geometry)
    (hc : s.superblock.IsData c) {buf : Buf} {n : ℕ}
    (hn : n ≤ s.superblock.bytePerCluster) :
    s.Reads env (readClusterFromDisk buf c 0 n) (0, buf.blit 0 (s.cluster c) n) := by
  intro k
  refine ⟨k + 1, (readClusterFromDisk_full (s := { s with preads := k }) hr hg hc.2
    (Nat.le_trans (Nat.le_of_eq (Nat.zero_add n)) hn)).trans ?_⟩
  rw [Buf.shift_zero]
  rfl

/-- **Loading a cluster.** -/
theorem reads_loadCluster (hr : env.ReadsFull) (hg : s.superblock.Geometry)
    (hc : s.superblock.IsData c) :
    s.Reads env (loadCluster c) (s.clusterBuf env c) := by
  intro k
  have hnew : getNewCluster.run env { s with preads := k }
      = .ok (s.newCluster env) { s with preads := k } := rfl
  have hbuf : (s.newCluster env).blit 0 (s.cluster c) s.superblock.bytePerCluster
      = s.clusterBuf env c := by
    funext i
    rcases Nat.lt_or_ge i s.superblock.bytePerCluster with hi | hi
    · rw [Buf.blit_of_mem (Nat.zero_le i) (by omega), Server.clusterBuf_of_lt hi,
        Nat.sub_zero]
    · rw [Buf.blit_of_le (by omega), Server.newCluster, Server.clusterBuf,
        if_neg (Nat.not_lt_of_le hi), if_neg (Nat.not_lt_of_le hi)]
  refine ⟨k + 1, ?_⟩
  rw [loadCluster, Prog.bind_ok _ hnew,
    Prog.bind_ok _ (readEntireClusterFromDisk_full (s := { s with preads := k })
      hr hg hc.2)]
  show ((check ((0 : ℤ) ≠ -1)) >>= fun _ => pure _).run env _ = _
  rw [Prog.bind_ok _ (check_run (by decide) env _), Server.cluster_preads, hbuf]
  rfl

/-! ## Slots -/

/-- The slots of a directory, cluster by cluster along its chain. -/
def Server.slots (s : Server) (l : List ℕ) : List (ℕ × ℕ) :=
  l.flatMap fun c => (dirSlots s.superblock.bytePerCluster).map (c, ·)

/-- What the scans read at a slot. -/
def Server.slotEntry (s : Server) (env : Env) (x : ℕ × ℕ) : FatDirEntry :=
  entryAt (s.clusterBuf env x.1) x.2

/-- The first slot of a directory whose entry satisfies `p`. -/
def Server.findSlot (s : Server) (env : Env) (l : List ℕ) (p : FatDirEntry → Bool) :
    Option (ℕ × ℕ) :=
  (s.slots l).find? fun x => p (s.slotEntry env x)

/-- The entry a name is looked up to in a directory. -/
def Server.lookup (s : Server) (env : Env) (l : List ℕ) (name : List UInt8) :
    Option FatDirEntry :=
  (s.findSlot env l (fun e => e.nameStr == name)).map (s.slotEntry env)

theorem Server.findSlot_cons (p : FatDirEntry → Bool) :
    s.findSlot env (c :: l) p
      = (((dirSlots s.superblock.bytePerCluster).find? fun o =>
          p (entryAt (s.clusterBuf env c) o)).map (c, ·)).or (s.findSlot env l p) := by
  rw [findSlot, slots, List.flatMap_cons, List.find?_append, List.find?_map]
  rfl

/-- **What a scan does**: it goes on from the first slot it looks for, with
the cluster of that slot in its buffer, or from the last cluster when there is
no such slot; and it has only read until then. -/
theorem scanDir_run (ok : Superblock → ℕ → Bool) (p : FatDirEntry → Bool)
    (hit : ℕ → Buf → ℕ → FatM α) (miss : ℕ → FatM α) {fuel : ℕ} {r : Option (ℕ × ℕ)}
    (hr : env.ReadsFull) (hg : s.superblock.Geometry) (h : s.Chain c (l ++ [d]))
    (hok : ∀ x ∈ l ++ [d], ok s.superblock x = true) (hf : (l ++ [d]).length ≤ fuel)
    (hfind : s.findSlot env (l ++ [d]) p = r) :
    ∃ k, (scanDir ok p hit miss fuel c).run env s
      = (match r with
        | some x => hit x.1 (s.clusterBuf env x.1) x.2
        | none => miss d).run env { s with preads := k } := by
  induction fuel generalizing c l s with
  | zero =>
    rw [List.length_append] at hf
    exact absurd hf (by simp)
  | succ fuel ih =>
    obtain ⟨c', l', hl⟩ : ∃ c' l', l ++ [d] = c' :: l' := by
      cases l with
      | nil => exact ⟨d, [], rfl⟩
      | cons a l => exact ⟨a, l ++ [d], rfl⟩
    rw [hl] at h
    obtain rfl : c = c' := h.head_eq
    have hcok : ok s.superblock c = true := hok c (by rw [hl]; exact List.mem_cons_self)
    obtain ⟨k, hload⟩ := (reads_loadCluster hr hg h.head_data).run
    rw [hl, Server.findSlot_cons] at hfind
    rw [scanDir, Prog.bind_ok _ (Prog.run_get env s),
      Prog.bind_ok _ (check_run hcok env s), Prog.bind_ok _ hload]
    cases hslot : (dirSlots s.superblock.bytePerCluster).find? fun o =>
        p (entryAt (s.clusterBuf env c) o) with
    | some o =>
      rw [hslot] at hfind
      subst hfind
      exact ⟨k, rfl⟩
    | none =>
      rw [hslot] at hfind
      have hnext : (readFatEntry c).run env { s with preads := k }
          = .ok (s.next c) { s with preads := k } :=
        readFatEntry_run (s := { s with preads := k }) hg h.head_data
      dsimp only
      rw [Prog.bind_ok _ hnext]
      cases l with
      | nil =>
        obtain ⟨rfl, rfl⟩ : d = c ∧ [] = l' := List.cons.inj hl
        subst hfind
        exact ⟨k, by rw [if_pos h.linked.next_single]; rfl⟩
      | cons a l =>
        obtain ⟨rfl, rfl⟩ : a = c ∧ l ++ [d] = l' := List.cons.inj hl
        have ht := h.tail.preads k
        obtain ⟨k', hk'⟩ := ih (s := { s with preads := k }) hg ht
          (fun x hx => hok x (List.mem_cons_of_mem a hx)) (Nat.le_of_succ_le_succ hf)
          hfind
        exact ⟨k', by rw [if_neg (ht.ne_end (by simp))]; exact hk'⟩

/-- **Looking a name up.** -/
theorem reads_findDirEntryByName (hr : env.ReadsFull) (hg : s.superblock.Geometry)
    (h : s.Chain c l) (hl : l ≠ []) (name : List UInt8) :
    s.Reads env (findDirEntryByName c name) (s.lookup env l name) := by
  refine Server.Reads.get_bind (fun k₀ k => ?_)
  rcases l.eq_nil_or_concat with rfl | ⟨l', d, rfl⟩
  · exact absurd rfl hl
  · rw [List.concat_eq_append] at h ⊢
    have hf := Nat.le_of_lt (h.length_lt_fuel hg)
    have hscan := scanDir_run (fun _ _ => true) (fun e => e.nameStr == name)
      (fun _ cluster offset => return some (entryAt cluster offset))
      (fun _ => return none) (s := { s with preads := k }) hr hg (h.preads k)
      (fun _ _ => rfl) hf rfl
    change ∃ k', _ = (match s.findSlot env (l' ++ [d]) fun e => e.nameStr == name with
      | some x => return some (s.slotEntry env x)
      | none => return none : FatM (Option FatDirEntry)).run env
        { s with preads := k' } at hscan
    obtain ⟨k', hk'⟩ := hscan
    refine ⟨k', hk'.trans ?_⟩
    rw [Server.lookup]
    cases s.findSlot env (l' ++ [d]) fun e => e.nameStr == name <;> rfl

end Fat
