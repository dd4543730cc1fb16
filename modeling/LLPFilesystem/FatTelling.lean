import LLPFilesystem.FatFailing

/-!
# What a failing disk tells

`read_cluster_from_disk` returns -1 if `pread` moved less than it was asked to, and whoever
looks at the disk asserts that it is another value. So a look that returns, whatever the reads
before it moved, tells what a disk that works tells (`Server.Shows.tells`): a server may stop,
but it does not lie (`looks_tell_tree`).
-/

namespace Fat

variable {env : Env} {s t u : Server} {b : ℕ} {T : Tree} {evs evs' : List Event} {α : Type}

namespace Insists

/-! ## Looking -/

theorem countFrom (env : Env) (fuel c : ℕ) (ok : ℕ → Prop) :
    Insists env ok (countFrom fuel c) := by
  induction fuel generalizing c ok with
  | zero => exact .fail _ _ _ _
  | succ fuel ih =>
    exact .bind (.get _ _ _) fun s => .bind (check env _ _) fun _ => .ite (.pure _ _ _ _) <|
      .bind (readFatEntry env c _) fun next => .bind (ih next _) fun n => .pure _ _ _ _

theorem countClusterInChain (env : Env) (c : ℕ) (ok : ℕ → Prop) :
    Insists env ok (countClusterInChain c) :=
  .bind (.get _ _ _) fun _ => countFrom env _ c ok

variable (hs : env.ReadsSome)
include hs

theorem fatGetattr (path : List UInt8) (ok : ℤ × Option Stat → Prop) :
    Insists env ok (fatGetattr path) := by
  refine .bind (.get _ _ _) fun s => .ite ?_ ?_
  · exact .bind (countClusterInChain env _ _) fun _ => .pure _ _ _ _
  · refine .bind (findDirEntryByPath hs path _) fun found => ?_
    cases found with
    | none => exact .pure _ _ _ _
    | some e =>
      refine .ite ?_ (.ite (.pure _ _ _ _) (.pure _ _ _ _))
      exact .bind (countClusterInChain env _ _) fun _ => .pure _ _ _ _

theorem fatAccess (path : List UInt8) (ok : ℤ → Prop) : Insists env ok (fatAccess path) := by
  refine .ite (.pure _ _ _ _) (.bind (findDirEntryByPath hs path _) fun found => ?_)
  cases found with
  | none => exact .pure _ _ _ _
  | some e => exact .pure _ _ _ _

theorem fatOpen (path : List UInt8) (ok : ℤ → Prop) : Insists env ok (fatOpen path) := by
  refine .bind (findDirEntryByPath hs path _) fun found => ?_
  cases found with
  | none => exact .pure _ _ _ _
  | some e => exact .pure _ _ _ _

theorem readDirLoop (filler : Filler) (fuel c : ℕ) (cluster : Buf) (tmp offset : ℕ)
    (taken : List Listed) (ok : List Listed → Prop) :
    Insists env ok (readDirLoop filler fuel c cluster tmp offset taken) := by
  induction fuel generalizing c cluster tmp offset taken with
  | zero => exact .fail _ _ _ _
  | succ fuel ih =>
    refine .ite (.pure _ _ _ _) (bind_check
      (.bind (.get _ _ _) fun _ => readClusterFromDisk hs cluster c 0 _) fun x =>
      .bind (.get _ _ _) fun s => ?_)
    split
    · exact .pure _ _ _ _
    · exact .bind (readFatEntry env c _) fun next => ih next _ _ _ _

theorem fatReaddir (path : List UInt8) (offset : ℕ) (filler : Filler)
    (ok : ℤ × List Listed → Prop) : Insists env ok (fatReaddir path offset filler) := by
  refine .bind (findFirstClusterByPath hs path _) fun c => .bind ?_ fun _ => .pure _ _ _ _
  exact .bind (.get _ _ _) fun s => .bind (skipClusters env _ c _) fun d =>
    .bind (getNewCluster env _) fun cluster => readDirLoop hs filler _ d cluster _ _ _ _

theorem readLoop (b fuel c n m within : ℕ) (buf : Buf) (ok : Buf → Prop) :
    Insists env ok (readLoop b fuel c n m within buf) := by
  induction fuel generalizing c n m within buf with
  | zero => exact .fail _ _ _ _
  | succ fuel ih =>
    exact .ite (.pure _ _ _ _) (bind_check (readClusterFromDisk hs _ c 0 _) fun x =>
      .bind (readFatEntry env c _) fun next => ih next _ _ _ _)

theorem fatRead (path : List UInt8) (buf : Buf) (size offset : ℕ) (ok : ℤ × Buf → Prop) :
    Insists env ok (fatRead path buf size offset) := by
  refine .bind (check env _ _) fun _ => .bind (findDirEntryByPath hs path _) fun found => ?_
  cases found with
  | none => exact .fail _ _ _ _
  | some e =>
    exact .ite (.pure _ _ _ _) <| .bind (.get _ _ _) fun s =>
      .bind (skipClusters env _ _ _) fun c => .bind (readLoop hs _ _ c _ _ _ buf _) fun _ =>
        .pure _ _ _ _

end Insists

/-! ## Telling -/

/-- **The program tells only what is so**: what it returns, if it returns. -/
def Server.Tells (s : Server) (env : Env) (x : FatM α) (p : α → Prop) : Prop :=
  ∀ a t, x.run env s = .ok a t → p a

/-- **The server tells a tree**: whatever a look at a path returns is what the tree has
there. -/
structure Server.TellsTree (s : Server) (env : Env) (b : ℕ) (T : Tree) : Prop where
  missing : ∀ p, (∀ n ∈ p, ChildName n) → T p = none →
    s.Tells env (fatGetattr (fusePath p)) (· = (-enoent, none))
      ∧ s.Tells env (fatAccess (fusePath p)) (· = -enoent)
      ∧ s.Tells env (fatOpen (fusePath p)) (· = -enoent)
  dir : ∀ p, (∀ n ∈ p, ChildName n) → T p = some .dir →
    s.Tells env (fatGetattr (fusePath p)) (fun a => ∃ st : Stat, st.IsDir b ∧ a = (0, some st))
      ∧ s.Tells env (fatAccess (fusePath p)) (· = 0)
      ∧ s.Tells env (fatReaddir (fusePath p) 0 fun _ _ => true) fun a =>
        (a.2.map Prod.fst).Nodup
          ∧ ∀ n, ChildName n → (n ∈ a.2.map Prod.fst ↔ T (p ++ [n]) ≠ none)
  file : ∀ p bytes, (∀ n ∈ p, ChildName n) → T p = some (.file bytes) →
    s.Tells env (fatGetattr (fusePath p))
        (fun a => ∃ st : Stat, st.IsFile bytes ∧ a = (0, some st))
      ∧ s.Tells env (fatAccess (fusePath p)) (· = 0)
      ∧ s.Tells env (fatOpen (fusePath p)) (· = 0)
      ∧ ∀ buf size offset, size < 2 ^ 31 → b ∣ offset →
        s.Tells env (fatRead (fusePath p) buf size offset) fun a =>
          a.1 = (min size (bytes.length - offset) : ℕ)
            ∧ (List.range a.1.toNat).map a.2 = (bytes.drop offset).take a.1.toNat

/-- A program that insists on its transfers tells what one run on a disk that works returns. -/
theorem Server.Tells.of_run {x : FatM α} {p : α → Prop} {a : α}
    (hx : Insists env (fun _ => True) x) (hrun : x.run env.steady s = .ok a t) (ha : p a) :
    s.Tells env x p := by
  intro a' t' hrun'
  obtain ⟨rfl, -⟩ := Outcome.ok.inj ((hx s a' t' hrun' trivial).symm.trans hrun)
  exact ha

theorem Server.Tells.of_reads {x : FatM α} {p : α → Prop} {a : α}
    (hx : Insists env (fun _ => True) x) (hreads : s.Reads env.steady x a) (ha : p a) :
    s.Tells env x p := by
  obtain ⟨k, hrun⟩ := hreads.run
  exact .of_run hx hrun ha

/-- **What a disk shows that works, it tells when it fails.** -/
theorem Server.Shows.tells (h : s.Shows env.steady b T) (hs : env.ReadsSome) :
    s.TellsTree env b T where
  missing p hnames hp := by
    obtain ⟨hattr, haccess, hopen⟩ := h.missing p hnames hp
    exact ⟨.of_reads (.fatGetattr hs _ _) hattr rfl, .of_reads (.fatAccess hs _ _) haccess rfl,
      .of_reads (.fatOpen hs _ _) hopen rfl⟩
  dir p hnames hp := by
    obtain ⟨⟨st, hst, hattr⟩, haccess, taken, htaken, hnodup, hlist⟩ := h.dir p hnames hp
    exact ⟨.of_reads (.fatGetattr hs _ _) hattr ⟨st, hst, rfl⟩,
      .of_reads (.fatAccess hs _ _) haccess rfl,
      .of_reads (.fatReaddir hs _ _ _ _) htaken ⟨hnodup, hlist⟩⟩
  file p bytes hnames hp := by
    obtain ⟨⟨st, hst, hattr⟩, haccess, hopen, hread⟩ := h.file p bytes hnames hp
    refine ⟨.of_reads (.fatGetattr hs _ _) hattr ⟨st, hst, rfl⟩,
      .of_reads (.fatAccess hs _ _) haccess rfl, .of_reads (.fatOpen hs _ _) hopen rfl,
      fun buf size offset hsize hb => ?_⟩
    obtain ⟨r, buf', t, hrun, hr, hbytes⟩ := hread buf size offset hsize hb
    exact .of_run (.fatRead hs _ _ _ _ _) hrun ⟨hr, hbytes⟩

/-- **A failing disk does not lie.** After any service on a fresh disk, and any calls in place
on a disk that has begun to fail, there is one tree that the calls have led to, and whatever
looks return on a disk that goes on failing is what this tree has. All calls are enabled when
they are made (`Call.Enabled`). -/
theorem looks_tell_tree {env₀ : Env} {s₀ : Server} (hr : env₀.Reliable)
    (hzero : s₀.fatDisk = fun _ => 0) (hinit : (fatInit false).run env₀ s₀ = .ok () s)
    (hrun : Service s evs t) (hs : env.ReadsSome) (hin : InPlaceRun env t evs' u) :
    ∃ T, TreeRun 4096 Hierarchy.emptyTree (evs ++ evs') T
      ∧ ∀ env' : Env, env'.ReadsSome → u.TellsTree env' 4096 T := by
  obtain ⟨-, T₁, hT₁, ht⟩ := hrun.holdsTree hr hzero hinit
  have ht := ht.of_heap env.steady
  obtain ⟨T₂, hT₂, hu⟩ := ht.run env.steady_reliable (hin.steady hs ht).1
  exact ⟨T₂, hT₁.append hT₂, fun env' hs' =>
    (hu.shows env'.steady env'.steady_reliable.reads).tells hs'⟩

/-- What is told of the file `/a`, once no write succeeds. -/
theorem looks_tell_tree_fresh :
    ∃ n free s t u, (fatInit false).run .ideal .blank = .ok () s
      ∧ Run .ideal s [⟨⟨[], [97], .mknod sIfreg⟩, 2555, 0⟩] t
      ∧ InPlaceRun (Env.failingFrom .ideal n) t
        [⟨⟨[], [97], .write (fun _ => 98) 1 0⟩, free, 1⟩] u
      ∧ ∃ T, TreeRun 4096 Hierarchy.emptyTree [⟨⟨[], [97], .mknod sIfreg⟩, 2555, 0⟩,
          ⟨⟨[], [97], .write (fun _ => 98) 1 0⟩, free, 1⟩] T
        ∧ ∀ env' : Env, env'.ReadsSome → u.TellsTree env' 4096 T := by
  have hr := Env.ideal_reliable
  obtain ⟨n, free, s, t, u, hinit, hrun, hin⟩ := failing_fresh
  exact ⟨n, free, s, t, u, hinit, hrun, hin, looks_tell_tree hr rfl hinit
    (.calls hr hrun (.nil t)) (Env.failingFrom_readsSome hr.reads n) hin⟩

end Fat
