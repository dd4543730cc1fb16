import LLPFilesystem.NfsHandles
import LLPFilesystem.NfsReading

/-!
# A client of the NFS server

A client mounts a directory, looks up one name after the other, and reads the file it has
got to, all of it in bytes over the wire. Between its calls others may call: of the static
results it is only known that some packets have led to them, which the server has survived
(`Statics.Reached`).

The client ends with the content of the file (`client_reads_file`).
-/

namespace Nfs

open Codec Text Wire Xdr.Wire

/-- One lookup after the other, from the call `n` on. -/
def walk (b : ℕ → Backing) (s : ℕ → Statics) : ℕ → List UInt8 → List (List UInt8) →
    Option (List UInt8)
  | _, dir, [] => some dir
  | n, dir, name :: names =>
    (askLookup (b n) (s n) dir name).bind fun object => walk b s (n + 1) object names

/-- **A file is located**: by a mount, and then by lookups. -/
def locate (b : ℕ → Backing) (s : ℕ → Statics) (path : List UInt8) (names : List (List UInt8)) :
    Option (List UInt8) :=
  (askMount (b 0) (s 0) path).bind fun dir => walk b s 1 dir names

/-- **A file is located, and read**: what the reader has after `n` calls for bytes. -/
def fetch (b : ℕ → Backing) (s : ℕ → Statics) (path : List UInt8) (names : List (List UInt8))
    (counts : ℕ → ℕ) (n : ℕ) : Option Reader :=
  (locate b s path names).map fun file =>
    reading (fun n => b (names.length + 1 + n)) (fun n => s (names.length + 1 + n)) file counts n

variable {path dir content : List UInt8} {names : List (List UInt8)} {b : ℕ → Backing}
  {s : ℕ → Statics} {counts : ℕ → ℕ} {n : ℕ}

/-! ## Locating a file -/

/-- One lookup after the other grants the path of all names. -/
theorem walk_eq (hs : ∀ n, (s n).Reached) (hdir : 0 ∉ dir) (hnames : ∀ name ∈ names, 0 ∉ name)
    (hexist : ∀ n, Exist (b n) dir names) (hfit : ∀ n, Fit (b n) dir names) :
    walk b s n dir names = some (names.foldl joined dir) := by
  induction names generalizing n dir with
  | nil => rfl
  | cons name names ih =>
    rw [List.forall_mem_cons] at hnames
    have hlookup : askLookup (b n) (s n) dir name = some (joined dir name) :=
      askLookup_eq (hs n).regular hdir hnames.1 (hexist n).1 (hexist n).2.stat (hfit n).1
        (hfit n).2.2.good (hfit n).2.1
    rw [walk, hlookup, Option.bind_some, List.foldl_cons]
    exact ih (notMem_joined hdir hnames.1) hnames.2 (fun n => (hexist n).2)
      fun n => (hfit n).2.2

theorem notMem_foldl_joined (hdir : 0 ∉ dir) (hnames : ∀ name ∈ names, 0 ∉ name) :
    0 ∉ names.foldl joined dir := by
  induction names generalizing dir with
  | nil => exact hdir
  | cons name names ih =>
    rw [List.forall_mem_cons] at hnames
    exact ih (notMem_joined hdir hnames.1) hnames.2

/-- The last path of a chain is good for a handle. -/
theorem good_foldl_joined {b : Backing} (h : Fit b dir names) :
    Good b (names.foldl joined dir) := by
  induction names generalizing dir with
  | nil => exact h
  | cons name names ih => exact ih h.2.2

/-! ## Reading it -/

/-- **A client reads the file.** Whatever packets others send between its calls, as long as
the server survives them, a client that mounts a directory, looks up one name after the other,
and reads on until it is told that there are no more bytes, comes to an end, and has the
content of the file then. -/
theorem client_reads_file (hs : ∀ n, (s n).Reached) (hpath : 0 ∉ path)
    (hnames : ∀ name ∈ names, 0 ∉ name) (hexist : ∀ n, Exist (b n) path names)
    (hfit : ∀ n, Fit (b n) path names)
    (hread : ∀ n, Readable (b (names.length + 1 + n)) (names.foldl joined path) content (counts n))
    (hcounts : ∀ n, 0 < counts n ∧ counts n < 2 ^ 32) :
    (∃ n x, fetch b s path names counts n = some x ∧ x.stopped = true)
      ∧ ∀ n x, fetch b s path names counts n = some x → x.stopped = true →
        x.received = content := by
  have hlocate : locate b s path names = some (names.foldl joined path) := by
    rw [locate, askMount_eq (hs 0).regular hpath (hfit 0).good.length, Option.bind_some]
    exact walk_eq hs hpath hnames hexist hfit
  have hgood := fun n => good_foldl_joined (hfit n)
  have hpathOf : pathOf (names.foldl joined path) = names.foldl joined path :=
    cstr_of_notMem (notMem_foldl_joined hpath hnames)
  have hfetch : ∀ n, fetch b s path names counts n
      = some (reading (fun n => b (names.length + 1 + n)) (fun n => s (names.length + 1 + n))
        (names.foldl joined path) counts n) := fun n => by rw [fetch, hlocate, Option.map_some]
  have hs' : ∀ n, (s (names.length + 1 + n)).Reached := fun n => hs _
  have hread' : ∀ n, Readable (b (names.length + 1 + n)) (pathOf (names.foldl joined path))
      content (counts n) := fun n => hpathOf.symm ▸ hread n
  have hlt := fun n => (hcounts n).2
  refine ⟨?_, fun n x hx hstop => ?_⟩
  · obtain ⟨n, hstop⟩ := exists_stopped hs' (hgood 0).length hread' hlt
      (fun n _ => (hgood _).terminates) fun N => ⟨N, Nat.le_refl N, (hcounts N).1⟩
    exact ⟨n, _, hfetch n, hstop⟩
  · obtain rfl := Option.some.inj ((hfetch n).symm.trans hx)
    have hoffset := offset_of_stopped hs' (hgood 0).length hread' hlt
      (fun n _ hzero => absurd hzero (Nat.pos_iff_ne_zero.mp (hcounts n).1)) hstop
    rw [(received_reading hs' (hgood 0).length hread' hlt n).2, List.take_of_length_le hoffset]

/-- A file system that holds one file, and finds a directory under every path. -/
def directoryWith (path content : List UInt8) : Backing :=
  { holding path content with stat := fun _ => some (plain 0o040000) }

/-- The file `/s/f` is read two bytes at a time. -/
theorem client_reads_abc :
    (∃ n x, fetch (fun _ => directoryWith [47, 115, 47, 102] [97, 98, 99]) (fun _ => {}) [47, 115]
        [[102]] (fun _ => 2) n = some x ∧ x.stopped = true)
      ∧ ∀ n x, fetch (fun _ => directoryWith [47, 115, 47, 102] [97, 98, 99]) (fun _ => {})
          [47, 115] [[102]] (fun _ => 2) n = some x → x.stopped = true →
        x.received = [97, 98, 99] := by
  have hread : Readable (holding [47, 115, 47, 102] [97, 98, 99]) [47, 115, 47, 102] [97, 98, 99]
      2 := readable_holding (by decide)
  have hgood : ∀ path : List UInt8, path ≠ [] → path.length < 24 →
      Good (directoryWith [47, 115, 47, 102] [97, 98, 99]) path := fun path hne hlen =>
    ⟨⟨hne, decide_eq_true (.inl hlen)⟩, hlen.le.trans (by decide),
      fun st hst => Option.some.inj hst ▸ fits_plain (by norm_num)⟩
  exact client_reads_file (fun _ => Statics.reached_zero) (by decide) (by decide)
    (fun _ => ⟨rfl, rfl⟩)
    (fun _ => ⟨hgood _ (by decide) (by decide), rfl, hgood _ (by decide) (by decide)⟩)
    (fun _ => ⟨hread.size, hread.opens, hread.seeks, hread.allocates, hread.reads⟩)
    (fun _ => ⟨by decide, by decide⟩)

end Nfs
