import LLPFilesystem.FatTransitions
import LLPFilesystem.FatDirectory

/-!
# The file system that `fat_init` makes

On a disk of zeros `fat_init` leaves a root directory with `"."` and `".."` and nothing
else: the server holds the hierarchy without children (`fatInit_run`).
-/

namespace Fat

variable {env : Env} {s t : Server} {c r : ℕ} {f l : List ℕ}
  {os dirs : Multiset (List ℕ)} {n : List UInt8}

/-- The names `"."` and `".."` are no children. -/
theorem FatDirEntry.Links.not_isChild {e : FatDirEntry} (h : e.Links n c)
    (hn : n = dotName ∨ n = dotdotName) : e.isChild = false := by
  rw [FatDirEntry.isChild, h.nameStr_eq]
  rcases hn with rfl | rfl <;> simp

namespace Server.HoldsDots

variable {y z : ℕ × ℕ} (hd : s.HoldsDots env r r)
include hd

/-- A slot with a name is the first or the second one. -/
theorem live (hy : y ∈ s.slots [r]) (hne : (s.slotEntry env y).nameStr ≠ []) :
    y = (r, 0) ∨ y = (r, dirEntrySize) := by
  by_contra hnot
  obtain ⟨h0, h1⟩ := not_or.mp hnot
  exact hne (FatDirEntry.nameStr_of_isFree (hd.free y hy h0 h1))

theorem not_isChild (hy : y ∈ s.slots [r]) : (s.slotEntry env y).isChild ≠ true := by
  intro hc
  rcases hd.live hy (FatDirEntry.name_of_isChild hc) with rfl | rfl
  · rw [hd.dot.not_isChild (Or.inl rfl)] at hc
    cases hc
  · rw [hd.dotdot.not_isChild (Or.inr rfl)] at hc
    cases hc

/-- The two names are different. -/
theorem unique (hy : y ∈ s.slots [r]) (hz : z ∈ s.slots [r])
    (hne : (s.slotEntry env y).nameStr ≠ [])
    (hzy : (s.slotEntry env z).nameStr = (s.slotEntry env y).nameStr) : z = y := by
  have hdots : dotdotName ≠ dotName := by decide
  rcases hd.live hy hne with rfl | rfl
  · rcases hd.live hz (by rw [hzy]; exact hne) with rfl | rfl
    · rfl
    · rw [hd.dotdot.nameStr_eq, hd.dot.nameStr_eq] at hzy
      exact absurd hzy hdots
  · rcases hd.live hz (by rw [hzy]; exact hne) with rfl | rfl
    · rw [hd.dotdot.nameStr_eq, hd.dot.nameStr_eq] at hzy
      exact absurd hzy.symm hdots
    · rfl

theorem lookup_eq_none (hn : ChildName n) : s.lookup env [r] n = none :=
  Server.lookup_eq_none.mpr fun _ hy hyn => hd.not_isChild hy (hn.isChild hyn)

/-- **A root directory with `"."` and `".."`** is a hierarchy without children. -/
theorem holds (howns : s.Owns ⟨f, {[r]}⟩) (hroot : s.superblock.rootClusterStart = r)
    (hall : ∀ c, s.superblock.IsData c → c ∈ f ∨ c = r) :
    s.Holds env (.empty r) f {[r]} {[r]} := by
  -- there is one directory
  have hone : ∀ l ∈ ({[r]} : Multiset (List ℕ)), l = [r] := fun l hl =>
    Multiset.mem_singleton.mp hl
  have hchild : ∀ l ∈ ({[r]} : Multiset (List ℕ)), ∀ y ∈ s.slots l,
      (s.slotEntry env y).isChild ≠ true := by
    intro l hl y hy
    rw [hone l hl] at hy
    exact hd.not_isChild hy
  have hlook : ∀ l ∈ ({[r]} : Multiset (List ℕ)), ∀ n, ChildName n →
      s.lookup env l n = none := by
    intro l hl n hn
    rw [hone l hl]
    exact hd.lookup_eq_none hn
  refine ⟨⟨howns, fun l hl => hl, ⟨[r], Multiset.mem_singleton_self _, hroot.symm⟩,
    fun l hl y hy z hz hne hzy => ?_, fun l hl y hy hc => absurd hc (hchild l hl y hy),
    fun l hl y hy hc => absurd hc (hchild l hl y hy),
    fun l hl y hy _ _ _ _ hc => absurd hc (hchild l hl y hy)⟩, hroot.symm, fun i n k => ?_,
    fun _ _ => (Option.some_ne_none _).symm, fun _ _ => rfl,
    fun l hl y hy hc => absurd hc (hchild l hl y hy),
    fun l hl n hn e he => ?_, fun c hc => ?_, fun q hq => ⟨[], ?_⟩⟩
  · rw [hone l hl] at hy hz
    exact hd.unique hy hz hne hzy
  · refine ⟨fun hc => absurd hc (Option.some_ne_none _).symm, ?_⟩
    rintro ⟨hn, l, hl, -, e, he, -⟩
    rw [hlook l hl n hn] at he
    cases he
  · rw [hlook l hl n hn] at he
    cases he
  · exact (hall c hc).imp_right fun hcr =>
      ⟨[r], Multiset.mem_singleton_self _, List.mem_singleton.mpr hcr⟩
  · rw [Multiset.mem_singleton.mp hq]
    rfl

end Server.HoldsDots

/-- **What `fat_init` makes of a disk of zeros.** -/
theorem fatInit_run (hr : env.Reliable) (hzero : s.fatDisk = fun _ => 0) :
    ∃ t, (fatInit false).run env s = .ok () t
      ∧ (∃ v, t.superblock = { Superblock.fresh s.superblock.pad with freeClusterStart := v })
      ∧ t.HoldsDots env 4 4
      ∧ t.Holds env (.empty 4) (List.range' 5 2555) {[4]} {[4]} := by
  have howns := Server.owns_formatted s env
  have hroot : (s.formatted env).superblock.rootClusterStart = 4 := by
    rw [Server.superblock_formatted]
    rfl
  have hclear : ∀ i < (s.formatted env).superblock.bytePerCluster,
      (s.formatted env).cluster 4 i = 0 := by
    intro i hi
    rw [bytePerCluster_formatted] at hi
    rw [Server.cluster_formatted (by decide) hi, hzero]
  obtain ⟨u, t, hrun, hrun', htowns, ⟨v, hv⟩, hdots, -⟩ := dots_run (c := 4) hr
    (show (s.formatted env).Owns ⟨_, [4] ::ₘ 0⟩ from howns) hclear
    (Server.isData_formatted.mpr (by decide))
  refine ⟨t, ?_, ?_, hdots, hdots.holds htowns ?_ fun c hc => ?_⟩
  · rw [fatInit, if_neg (by decide), Prog.bind_ok _ (formatDisk_run hr.writes),
      Prog.bind_ok _ (Prog.run_get env _)]
    rw [hroot, Prog.bind_ok _ hrun, Prog.bind_ok _ (check_run (by decide) env _),
      Prog.bind_ok _ hrun']
    exact check_run (by decide) env _
  · have hsb : (s.formatted env).superblock = .fresh s.superblock.pad :=
      Server.superblock_formatted
    rw [hv, ← hsb]
    exact ⟨v, rfl⟩
  · rw [hv]
    exact hroot
  · rw [hv] at hc
    obtain ⟨hlo, hhi⟩ := Server.isData_formatted.mp hc
    rw [List.mem_range'_1]
    omega

end Fat
