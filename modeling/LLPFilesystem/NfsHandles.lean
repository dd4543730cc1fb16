import LLPFilesystem.NfsCalls

/-!
# How far lookups lead

A handle is the path of its object, and each `LOOKUP` makes it longer by a name. A
handle has 64 bytes at most, when it is sent and when it is received, and for a procedure
to use it as a string a zero has to be put behind it. So a chain of lookups leads to handles
that name their objects exactly as long as the paths on the way are good for handles
(`handles_usable_iff`).
-/

namespace Nfs

open Codec Text Wire Xdr.Wire

variable {b : Backing} {s : Statics} {path dir name : List UInt8} {names : List (List UInt8)}

/-! ## What a client asks -/

/-- The handle that a mount grants. -/
def askMount (b : Backing) (s : Statics) (path : List UInt8) : Option (List UInt8) :=
  (ask b s .mnt path).bind fun
    | .taken r => some r.fhandle
    | .other _ _ _ => none

/-- The handle that a lookup grants. -/
def askLookup (b : Backing) (s : Statics) (dir name : List UInt8) : Option (List UInt8) :=
  (ask b s .lookup (dir, name)).bind fun
    | .taken r => some r.object
    | .other _ _ _ => none

/-- **The directory path joined to a name by exactly one slash.** -/
def joined (dir name : List UInt8) : List UInt8 :=
  if dir.getLast? = some 47 then dir ++ name else dir ++ 47 :: name

/-- **The objects of a chain of lookups exist**: the directory, and each object
that the names lead to. -/
def Exist (b : Backing) : List UInt8 → List (List UInt8) → Prop
  | dir, [] => (b.stat dir).isSome
  | dir, name :: names => (b.stat dir).isSome ∧ Exist b (joined dir name) names

/-! ## What a handle names -/

/-- What `READDIR` tells of the directory under a path: its attributes, and its entries from
the first on. -/
def listed (b : Backing) (path : List UInt8) (st : Stat) : Procedure.Result .readdir :=
  .taken
    { dirAttributes := some (attributesOf st)
      cookieverf := List.replicate 8 0
      entries := (fillEntriesForReaddir b path).1
      eof := !(fillEntriesForReaddir b path).2 }

/-- What `READ` tells of the file under a path. -/
def readFrom (b : Backing) (path : List UInt8) (offset count : ℕ) : Procedure.Result .read :=
  (fillREAD3resStream b path (BitVec.ofNat 64 offset).toInt count {}).shown

/-- **The path of an object is a handle that names it.** The handle fits the protocol, and
whatever calls there have been, a client that presents it is told the attributes of the
object by `GETATTR`, its entries by `READDIR`, and its bytes by `READ`. -/
structure Usable (b : Backing) (path : List UInt8) : Prop where
  fits : path.length ≤ nfs3Fhsize
  getattr : ∀ s, Statics.Reached s → ∀ st, b.stat path = some st →
    ask b s .getattr path = some (.taken (attributesOf st))
  readdir : ∀ s, Statics.Reached s → ∀ st, b.stat path = some st →
    ∀ cookie cookieverf count, cookie < 2 ^ 64 → cookieverf.length = 8 → count < 2 ^ 32 →
      ask b s .readdir ⟨path, cookie, cookieverf, count⟩ = some (listed b path st)
  read : ∀ s, Statics.Reached s → ∀ offset count, offset < 2 ^ 64 → count < 2 ^ 32 →
    ask b s .read ⟨path, offset, count⟩ = some (readFrom b path offset count)

/-- **Each handle of a chain of lookups is usable**: for the calls above, and for the next
`LOOKUP`, which grants the handle of the name in it, whatever calls there have been. -/
def LookupsUsable (b : Backing) : List UInt8 → List (List UInt8) → Prop
  | dir, [] => Usable b dir
  | dir, name :: names =>
    Usable b dir ∧ (∀ s, Statics.Reached s → askLookup b s dir name = some (joined dir name))
      ∧ LookupsUsable b (joined dir name) names

/-- **A path that is good for a handle**: it is not empty and has 64 bytes at most, a zero can
be put behind it, and the attributes of the object can be encoded. -/
structure Good (b : Backing) (path : List UInt8) : Prop where
  terminates : b.Terminates path
  length : path.length ≤ nfs3Fhsize
  fits : ∀ st, b.stat path = some st → (attributesOf st).Fits

/-- **The paths of a chain are good for handles**, and there is memory for each to be joined
to the next name. -/
def Fit (b : Backing) : List UInt8 → List (List UInt8) → Prop
  | dir, [] => Good b dir
  | dir, name :: names =>
    Good b dir ∧ b.malloc (dir.length + name.length + 2) = true ∧ Fit b (joined dir name) names

/-! ## Joining -/

/-- Of a path that is not empty, the byte before it is not looked at. -/
theorem joinPath_eq {before : UInt8} (h : dir ≠ []) :
    joinPath before dir name = joined dir name := by
  unfold joinPath joined
  cases hdir : dir.getLast? with
  | none => exact absurd (List.getLast?_eq_none_iff.mp hdir) h
  | some c =>
    rw [List.getLastD_eq_getLast?, hdir]
    by_cases hc : c = 47
    · rw [if_pos (show (some c).getD before = 47 from hc), if_pos (congrArg some hc)]
    · rw [if_neg (show ¬ (some c).getD before = 47 from hc),
        if_neg fun heq => hc (Option.some.inj heq)]

theorem notMem_joined (hdir : 0 ∉ dir) (hname : 0 ∉ name) : 0 ∉ joined dir name := by
  unfold joined
  split
  · exact fun h => (List.mem_append.mp h).elim hdir hname
  · intro h
    rcases List.mem_append.mp h with h | h
    · exact hdir h
    · rcases List.mem_cons.mp h with h | h
      · exact absurd h (by decide)
      · exact hname h

/-- A name is shorter than the path it is joined to. -/
theorem length_le_joined : name.length ≤ (joined dir name).length := by
  unfold joined
  split
  · rw [List.length_append]
    exact Nat.le_add_left _ _
  · rw [List.length_append, List.length_cons]
    omega

/-! ## One handle -/

namespace Good

variable {st : Stat}

/-- A `GETATTR` of a good path tells the attributes of the object. -/
theorem getattr (h : Good b path) (hpath : 0 ∉ path) (hs : s.Regular)
    (hst : b.stat path = some st) :
    ask b s .getattr path = some (.taken (attributesOf st)) := by
  have hattr : (dispatch b s (.getattr path)).getattr = ⟨nfs3Ok, attributesOf st⟩ := by
    show GETATTR3res.mk nfs3Ok (fillAttributes b (pathOf path) _) = _
    rw [show pathOf path = path from cstr_of_notMem hpath, fillAttributes_of_some hst]
  have hargs : (Procedure.getattr.xdrArgument.encode path).isSome :=
    isSome_nfsFh3.mpr h.length
  refine (ask_eq_some_iff hs hargs).mpr ⟨h.terminates, ?_, ?_⟩
  · show (dispatch b s (.getattr path)).getattr.objAttributes.Fits
    rw [hattr]
    exact h.fits st hst
  · show (dispatch b s (.getattr path)).getattr.shown = _
    rw [hattr]
    rfl

/-- A `READDIR` of a good path tells the entries of the object. -/
theorem readdir (h : Good b path) (hpath : 0 ∉ path) (hs : s.Regular)
    (hst : b.stat path = some st) {cookie count : ℕ} {cookieverf : List UInt8}
    (hcookie : cookie < 2 ^ 64) (hverf : cookieverf.length = 8) (hcount : count < 2 ^ 32) :
    ask b s .readdir ⟨path, cookie, cookieverf, count⟩ = some (listed b path st) := by
  have hread : (dispatch b s (.readdir path cookie cookieverf count)).readdir
      = ⟨nfs3Ok, ⟨true, attributesOf st⟩, List.replicate 8 0,
        (fillEntriesForReaddir b path).1, !(fillEntriesForReaddir b path).2⟩ := by
    show nfsproc3Readdir3Svc b path s.readdir = _
    unfold nfsproc3Readdir3Svc followed
    rw [show pathOf path = path from cstr_of_notMem hpath, fillAttributes_of_some hst,
      hs.readdir.status, hs.readdir.cookieverf]
  refine (ask_eq_some_iff hs (isSome_readdirArgs h.length hcookie hverf hcount)).mpr
    ⟨h.terminates, ?_, ?_⟩
  · show (dispatch b s (.readdir path cookie cookieverf count)).readdir.dirAttributes.Fits
    rw [hread]
    exact fun _ => h.fits st hst
  · show (dispatch b s (.readdir path cookie cookieverf count)).readdir.shown = _
    rw [hread]
    rfl

/-- A `READ` of a good path tells the bytes of the object. -/
theorem read (h : Good b path) (hpath : 0 ∉ path) (hs : s.Regular) {offset count : ℕ}
    (hoffset : offset < 2 ^ 64) (hcount : count < 2 ^ 32) :
    ask b s .read ⟨path, offset, count⟩ = some (readFrom b path offset count) := by
  have hread : (dispatch b s (.read path offset count)).read
      = fillREAD3resStream b path (BitVec.ofNat 64 offset).toInt count s.read := by
    show nfsproc3Read3Svc b path offset count s.read = _
    rw [nfsproc3Read3Svc, show pathOf path = path from cstr_of_notMem hpath]
  refine (ask_eq_some_iff hs (isSome_readArgs h.length hoffset hcount)).mpr
    ⟨h.terminates, ?_, ?_⟩
  · show (dispatch b s (.read path offset count)).read.Fits
    rw [hread]
    exact fun hok => (length_fillREAD3resStream_le hok).trans_lt hcount
  · show (dispatch b s (.read path offset count)).read.shown = _
    rw [hread]
    exact shown_READ3res_congr hs.read.fileAttributes

end Good

/-- **A path names its object as a handle** exactly if it is good for one. -/
theorem usable_iff (hpath : 0 ∉ path) (hstat : (b.stat path).isSome) :
    Usable b path ↔ Good b path := by
  have hpathOf : pathOf path = path := cstr_of_notMem hpath
  obtain ⟨st, hst⟩ := Option.isSome_iff_exists.mp hstat
  constructor
  · intro h
    have hargs : (Procedure.getattr.xdrArgument.encode path).isSome := isSome_nfsFh3.mpr h.fits
    obtain ⟨hsurvived, hfits, -⟩ := (ask_eq_some_iff Statics.regular_zero hargs).mp
      (h.getattr {} Statics.reached_zero st hst)
    refine ⟨hsurvived, h.fits, fun st' hst' => ?_⟩
    have hattr : (fillAttributes b (pathOf path) {}).Fits := hfits
    rwa [hpathOf, fillAttributes_of_some hst'] at hattr
  · intro h
    exact ⟨h.length, fun s hs st hst => h.getattr hpath hs.regular hst,
      fun s hs st hst cookie cookieverf count => h.readdir hpath hs.regular hst,
      fun s hs offset count => h.read hpath hs.regular⟩

/-- A mount grants the path. -/
theorem askMount_eq (hs : s.Regular) (hpath : 0 ∉ path) (hlen : path.length ≤ nfs3Fhsize) :
    askMount b s path = some path := by
  have hargs : (Procedure.mnt.xdrArgument.encode path).isSome :=
    isSome_bytes.mpr ⟨hlen.trans (by decide), hlen.trans_lt (by decide)⟩
  have htold : ask b s .mnt path = some (.taken ⟨path, [1]⟩) := by
    have hcstr : cstr path = path := cstr_of_notMem hpath
    refine (ask_eq_some_iff hs hargs).mpr ⟨trivial, ?_, ?_⟩
    · show (cstr path).length ≤ nfs3Fhsize
      rw [hcstr]
      exact hlen
    · show Mountres3.shown ⟨nfs3Ok, cstr path, [1]⟩ = _
      rw [hcstr]
      rfl
  rw [askMount, htold, Option.bind_some]

/-- A client that is granted a handle by a lookup has found memory for the path. -/
theorem malloc_of_askLookup (hdir : 0 ∉ dir) (hname : 0 ∉ name) (hs : s.Regular)
    {object : List UInt8} (h : askLookup b s dir name = some object) :
    b.malloc (dir.length + name.length + 2) = true := by
  obtain ⟨result, htold, -⟩ := Option.bind_eq_some_iff.mp h
  obtain ⟨packet, hpacket, -⟩ := Option.bind_eq_some_iff.mp htold
  obtain ⟨⟨-, hmalloc⟩, -⟩ := (ask_eq_some_iff hs (Option.isSome_of_eq_some hpacket)).mp htold
  rwa [pathOf, cstr_of_notMem hdir, cstr_of_notMem hname] at hmalloc

/-- **A lookup grants the path of the name in the directory**, if both paths are good for
handles. -/
theorem askLookup_eq (hs : s.Regular) (hdir : 0 ∉ dir) (hname : 0 ∉ name)
    (hstat : (b.stat dir).isSome) (hstat' : (b.stat (joined dir name)).isSome)
    (hgood : Good b dir) (hgood' : Good b (joined dir name))
    (hmalloc : b.malloc (dir.length + name.length + 2) = true) :
    askLookup b s dir name = some (joined dir name) := by
  obtain ⟨st, hst⟩ := Option.isSome_iff_exists.mp hstat
  obtain ⟨st', hst'⟩ := Option.isSome_iff_exists.mp hstat'
  have hpathOf : pathOf dir = dir := cstr_of_notMem hdir
  have hcstr : cstr name = name := cstr_of_notMem hname
  have hargs : (Procedure.lookup.xdrArgument.encode (dir, name)).isSome :=
    isSome_lookupArgs hgood.length
      ((length_le_joined.trans hgood'.length).trans_lt (by decide))
  have hlookup : (dispatch b s (.lookup dir name)).lookup
      = ⟨nfs3Ok, (joined dir name).length, joined dir name, ⟨true, attributesOf st'⟩,
        ⟨true, attributesOf st⟩⟩ := by
    show nfsproc3Lookup3Svc b dir name s.lookup = _
    unfold nfsproc3Lookup3Svc followed
    rw [hpathOf, hcstr, joinPath_eq hgood.terminates.1, hst', fillAttributes_of_some hst]
  have htold : ask b s .lookup (dir, name)
      = some (.taken ⟨joined dir name, some (attributesOf st'), some (attributesOf st)⟩) := by
    refine (ask_eq_some_iff hs hargs).mpr ⟨⟨hgood.terminates, ?_⟩, ?_, ?_⟩
    · rw [hpathOf, hcstr]
      exact hmalloc
    · show (dispatch b s (.lookup dir name)).lookup.Fits
      rw [hlookup]
      exact fun _ => ⟨(List.length_take_le _ _).trans hgood'.length,
        fun _ => hgood'.fits st' hst', fun _ => hgood.fits st hst⟩
    · show (dispatch b s (.lookup dir name)).lookup.shown = _
      rw [hlookup, LOOKUP3res.shown, List.take_length]
      rfl
  rw [askLookup, htold, Option.bind_some]

/-! ## Chains -/

theorem Exist.stat (h : Exist b dir names) : (b.stat dir).isSome := by
  cases names with
  | nil => exact h
  | cons name names => exact h.1

theorem Fit.good (h : Fit b dir names) : Good b dir := by
  cases names with
  | nil => exact h
  | cons name names => exact h.1

/-- A chain of lookups from a handle. -/
theorem lookupsUsable_iff (hdir : 0 ∉ dir) (hnames : ∀ name ∈ names, 0 ∉ name)
    (hexist : Exist b dir names) : LookupsUsable b dir names ↔ Fit b dir names := by
  induction names generalizing dir with
  | nil => exact usable_iff hdir hexist
  | cons name names ih =>
    rw [List.forall_mem_cons] at hnames
    have hrest : LookupsUsable b (joined dir name) names ↔ Fit b (joined dir name) names :=
      ih (notMem_joined hdir hnames.1) hnames.2 hexist.2
    rw [LookupsUsable, Fit, usable_iff hdir hexist.1, hrest]
    refine and_congr_right fun hgood => and_congr_left fun hfit => ⟨fun h => ?_, fun h s hs => ?_⟩
    · exact malloc_of_askLookup hdir hnames.1 Statics.regular_zero (h {} Statics.reached_zero)
    · exact askLookup_eq hs.regular hdir hnames.1 hexist.1 hexist.2.stat hgood hfit.good h

/-- **When handles are usable.** For a mounted path and names such that all objects on
the way exist, `MNT` and each `LOOKUP` answer `NFS3_OK` with a handle that fits the
protocol and names its object to whatever is asked next, exactly if the paths on the way are
good for handles. -/
theorem handles_usable_iff (hpath : 0 ∉ path) (hnames : ∀ name ∈ names, 0 ∉ name)
    (hexist : Exist b path names) :
    ((∀ s, Statics.Reached s → askMount b s path = some path) ∧ LookupsUsable b path names)
      ↔ Fit b path names := by
  rw [lookupsUsable_iff hpath hnames hexist]
  exact and_iff_right_of_imp fun hfit s hs => askMount_eq hs.regular hpath hfit.good.length

theorem good_everywhere {mode : ℕ} (hmode : mode < 2 ^ 32) (hne : path ≠ [])
    (hlen : path.length < 24) : Good (everywhere mode) path where
  terminates := ⟨hne, decide_eq_true (.inl hlen)⟩
  length := hlen.le.trans (by decide)
  fits := fun st hst => Option.some.inj hst ▸ fits_plain hmode

/-- Two directories below the root. -/
theorem handles_usable_srv :
    (∀ s, Statics.Reached s → askMount (everywhere 0o040000) s (ascii "/") = some (ascii "/"))
      ∧ LookupsUsable (everywhere 0o040000) (ascii "/") [ascii "srv", ascii "a"] := by
  have hexist : Exist (everywhere 0o040000) (ascii "/") [ascii "srv", ascii "a"] :=
    ⟨rfl, rfl, rfl⟩
  refine (handles_usable_iff (by decide) (by decide) hexist).mpr ⟨?_, rfl, ?_, rfl, ?_⟩
  · exact good_everywhere (by norm_num) (by decide) (by decide)
  · exact good_everywhere (by norm_num) (by decide) (by decide)
  · exact good_everywhere (by norm_num) (by decide) (by decide)

/-- **A name that makes the handle too long.** A directory of 64 letters exists in
the root directory, but the reply to its lookup cannot be encoded. -/
theorem lookup_too_long :
    0 ∉ List.replicate 64 (97 : UInt8)
    ∧ Exist (everywhere 0o040000) (ascii "/") [List.replicate 64 97]
    ∧ (joined (ascii "/") (List.replicate 64 97)).length = 65
    ∧ (receive (everywhere 0o040000) {} .lookup
        ([0, 0, 0, 1, 47, 0, 0, 0, 0, 0, 0, 64] ++ List.replicate 64 97)).map Prod.snd
      = some .systemErr
    ∧ askLookup (everywhere 0o040000) {} (ascii "/") (List.replicate 64 97) = none
    ∧ ¬ LookupsUsable (everywhere 0o040000) (ascii "/") [List.replicate 64 97] := by
  set_option maxRecDepth 4000 in
  have hnone : askLookup (everywhere 0o040000) {} (ascii "/") (List.replicate 64 97) = none := by
    decide
  refine ⟨by decide, ⟨rfl, rfl⟩, by decide, by decide, hnone, fun h => ?_⟩
  have hgrants := h.2.1 {} Statics.reached_zero
  rw [hnone] at hgrants
  exact absurd hgrants.symm (Option.some_ne_none _)

end Nfs
