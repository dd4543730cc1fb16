import LLPFilesystem.NfsWire

/-!
# Calls over the wire

What holds of the static results whenever the server waits for a packet
(`Statics.Regular`), which of them can be encoded (`Statics.Fits`), and with that what a
client is told (`ask_eq_some_iff`).

The server that reads and sends bytes does what its procedures do (`calls_cross_wire`).
-/

namespace Nfs

open Codec Wire Xdr.Wire

variable {b : Backing} {s : Statics} {r : Request} {path dir name : List UInt8} {st : Stat}

theorem fillAttributes_of_some (h : b.stat path = some st) (x : Fattr3) :
    fillAttributes b path x = attributesOf st := by
  unfold fillAttributes
  rw [h]

theorem fillAttributes_of_none (h : b.stat path = none) (x : Fattr3) :
    fillAttributes b path x = x := by
  unfold fillAttributes
  rw [h]

/-! ## What always holds -/

/-- A number that fits into an `int`. -/
def IsInt (z : ℤ) : Prop := -2 ^ 31 ≤ z ∧ z < 2 ^ 31

/-- **Attributes whose fields are of their types**: those of 32 bits are checked when they
are encoded, the others are not. -/
structure Fattr3.Typed (a : Fattr3) : Prop where
  type : IsInt a.type
  size : a.size < 2 ^ 64
  used : a.used < 2 ^ 64
  fsid : a.fsid < 2 ^ 64
  fileid : a.fileid < 2 ^ 64

structure Entry3.Typed (e : Entry3) : Prop where
  fileid : e.fileid < 2 ^ 64
  cookie : e.cookie < 2 ^ 64
  name : e.name.length < 2 ^ 32

structure Mountres3.Regular (r : Mountres3) : Prop where
  status : r.fhsStatus = nfs3Ok
  flavors : r.authFlavors = [] ∨ r.authFlavors = [1]

structure FSINFO3res.Regular (r : FSINFO3res) : Prop where
  status : r.status = nfs3Ok
  attributes : r.objAttributes.attributes.Typed
  numbers : ∀ n ∈ [r.rtmax, r.rtpref, r.rtmult, r.wtmax, r.wtpref, r.wtmult, r.dtpref,
    r.timeDelta.tvSec, r.timeDelta.tvNsec, r.properties], n < 2 ^ 32
  maxfilesize : r.maxfilesize < 2 ^ 64

structure PATHCONF3res.Regular (r : PATHCONF3res) : Prop where
  status : r.status = nfs3Ok
  attributes : r.objAttributes.attributes.Typed
  linkmax : r.linkmax < 2 ^ 32
  nameMax : r.nameMax < 2 ^ 32

structure GETATTR3res.Regular (r : GETATTR3res) : Prop where
  status : r.status = nfs3Ok
  attributes : r.objAttributes.Typed

structure ACCESS3res.Regular (r : ACCESS3res) : Prop where
  status : r.status = nfs3Ok
  attributes : r.objAttributes.attributes.Typed
  access : r.access < 2 ^ 32

/-- No call sets the status or the cookie verifier. -/
structure READDIR3res.Regular (r : READDIR3res) : Prop where
  status : r.status = nfs3Ok
  attributes : r.dirAttributes.attributes.Typed
  cookieverf : r.cookieverf = List.replicate 8 0
  entries : ∀ e ∈ r.entries, e.Typed

structure LOOKUP3res.Regular (r : LOOKUP3res) : Prop where
  status : IsInt r.status
  objAttributes : r.objAttributes.attributes.Typed
  dirAttributes : r.dirAttributes.attributes.Typed

/-- No call sets the attributes. -/
structure READ3res.Regular (r : READ3res) : Prop where
  status : IsInt r.status
  fileAttributes : r.fileAttributes = {}
  count : r.status = nfs3Ok → r.count = r.data.length

/-- **What holds of the static results**, whatever calls there have been. -/
structure Statics.Regular (s : Statics) : Prop where
  mnt : s.mnt.Regular
  fsinfo : s.fsinfo.Regular
  pathconf : s.pathconf.Regular
  getattr : s.getattr.Regular
  access : s.access.Regular
  readdir : s.readdir.Regular
  lookup : s.lookup.Regular
  read : s.read.Regular

theorem isInt_nfs3Ok : IsInt nfs3Ok := ⟨by decide, by decide⟩

theorem isInt_nfs3errNoent : IsInt nfs3errNoent := ⟨by decide, by decide⟩

theorem isInt_nfs3errIo : IsInt nfs3errIo := ⟨by decide, by decide⟩

theorem Fattr3.typed_zero : ({} : Fattr3).Typed :=
  ⟨isInt_nfs3Ok, by norm_num, by norm_num, by norm_num, by norm_num⟩

theorem Statics.regular_zero : ({} : Statics).Regular where
  mnt := ⟨rfl, .inl rfl⟩
  fsinfo := ⟨rfl, Fattr3.typed_zero, by decide, by norm_num⟩
  pathconf := ⟨rfl, Fattr3.typed_zero, by norm_num, by norm_num⟩
  getattr := ⟨rfl, Fattr3.typed_zero⟩
  access := ⟨rfl, Fattr3.typed_zero, by norm_num⟩
  readdir := ⟨rfl, Fattr3.typed_zero, rfl, fun _ h => absurd h List.not_mem_nil⟩
  lookup := ⟨isInt_nfs3Ok, Fattr3.typed_zero, Fattr3.typed_zero⟩
  read := ⟨isInt_nfs3Ok, rfl, fun _ => rfl⟩

theorem typed_attributesOf (st : Stat) : (attributesOf st).Typed := by
  refine ⟨?_, st.size_lt, st.size_lt, st.dev_lt, st.ino_lt⟩
  show -2 ^ 31 ≤ fileType st.mode ∧ fileType st.mode < 2 ^ 31
  unfold fileType
  split
  · norm_num
  · split <;> norm_num

theorem typed_fillAttributes {a : Fattr3} (ha : a.Typed) : (fillAttributes b path a).Typed := by
  unfold fillAttributes
  split
  · exact typed_attributesOf _
  · exact ha

theorem typed_followedBare {handle : List UInt8} {attr : PostOpAttr} (h : attr.attributes.Typed) :
    (followedBare b handle attr).attributes.Typed := by
  unfold followedBare
  split
  · exact h
  · exact typed_fillAttributes h

theorem typed_entries : ∀ e ∈ (fillEntriesForReaddir b path).1, e.Typed := by
  unfold fillEntriesForReaddir
  split
  · next dirents _ =>
    split
    · intro e he
      obtain ⟨n, hn, rfl⟩ := List.mem_mapIdx.mp he
      exact ⟨(dirents[n]).ino_lt, (dirents[n]).off_lt, b.leftover_lt path n⟩
    · exact fun _ h => absurd h List.not_mem_nil
  · exact fun _ h => absurd h List.not_mem_nil

theorem regular_fsinfo {fsroot : List UInt8} {result : FSINFO3res} (h : result.Regular) :
    (nfsproc3Fsinfo3Svc b fsroot result).Regular := by
  refine ⟨rfl, typed_followedBare h.attributes, ?_, show 2 ^ 64 - 1 < 2 ^ 64 by decide⟩
  unfold nfsproc3Fsinfo3Svc
  by_cases hsocket : b.socketType = 1
  · simp only [if_pos hsocket]
    decide
  · simp only [if_neg hsocket]
    decide

theorem regular_lookup {result : LOOKUP3res} (h : result.Regular) :
    (nfsproc3Lookup3Svc b dir name result).Regular := by
  unfold nfsproc3Lookup3Svc
  split
  · exact ⟨isInt_nfs3Ok, typed_attributesOf _, typed_fillAttributes h.dirAttributes⟩
  · exact ⟨isInt_nfs3errNoent, h.objAttributes, typed_fillAttributes h.dirAttributes⟩

theorem regular_read {offset : ℤ} {count : ℕ} {result : READ3res} (h : result.Regular) :
    (fillREAD3resStream b path offset count result).Regular := by
  have hio : ∀ r : READ3res, r.fileAttributes = result.fileAttributes →
      r.status = nfs3errIo → r.Regular := fun r hattr hstatus =>
    ⟨hstatus ▸ isInt_nfs3errIo, hattr.trans h.fileAttributes,
      fun hok => absurd (hstatus ▸ hok) (by decide)⟩
  unfold fillREAD3resStream
  split
  · split
    · split
      · split
        · exact ⟨isInt_nfs3Ok, h.fileAttributes, fun _ => rfl⟩
        · split
          · exact ⟨isInt_nfs3Ok, h.fileAttributes, fun _ => rfl⟩
          · exact hio _ rfl rfl
        · exact hio _ rfl rfl
      · exact hio _ rfl rfl
    · exact hio _ rfl rfl
  · exact hio _ rfl rfl

/-- Every call keeps it. -/
theorem Statics.Regular.dispatch (hs : s.Regular) (b : Backing) (r : Request) :
    (dispatch b s r).Regular := by
  cases r with
  | mnt path => exact { hs with mnt := ⟨rfl, .inr rfl⟩ }
  | fsinfo fsroot => exact { hs with fsinfo := regular_fsinfo hs.fsinfo }
  | pathconf object =>
    exact { hs with pathconf :=
      ⟨rfl, typed_followedBare hs.pathconf.attributes, show 0xFFFFFFFF < 2 ^ 32 by decide,
        show nfsMaxpathlen < 2 ^ 32 by decide⟩ }
  | getattr object =>
    exact { hs with getattr := ⟨rfl, typed_fillAttributes hs.getattr.attributes⟩ }
  | access object mask =>
    exact { hs with access :=
      ⟨rfl, typed_fillAttributes hs.access.attributes,
        show 1 ||| 2 ||| 4 ||| 8 ||| 16 ||| 32 < 2 ^ 32 by decide⟩ }
  | readdir dir cookie cookieverf count =>
    exact { hs with readdir :=
      ⟨hs.readdir.status, typed_fillAttributes hs.readdir.attributes, hs.readdir.cookieverf,
        typed_entries⟩ }
  | lookup dir name => exact { hs with lookup := regular_lookup hs.lookup }
  | read file offset count => exact { hs with read := regular_read hs.read }

/-! ## What can be encoded -/

/-- **Attributes that can be encoded**: `xdr_u_long` refuses a number of more than 32
bits. -/
structure Fattr3.Fits (a : Fattr3) : Prop where
  mode : a.mode < 2 ^ 32
  nlink : a.nlink < 2 ^ 32
  uid : a.uid < 2 ^ 32
  gid : a.gid < 2 ^ 32
  specdata1 : a.specdata1 < 2 ^ 32
  specdata2 : a.specdata2 < 2 ^ 32
  atime : a.atime.tvSec < 2 ^ 32 ∧ a.atime.tvNsec < 2 ^ 32
  mtime : a.mtime.tvSec < 2 ^ 32 ∧ a.mtime.tvNsec < 2 ^ 32
  ctime : a.ctime.tvSec < 2 ^ 32 ∧ a.ctime.tvNsec < 2 ^ 32

theorem fits_plain {mode : ℕ} (h : mode < 2 ^ 32) : (attributesOf (plain mode)).Fits where
  mode := h
  nlink := Nat.two_pow_pos 32
  uid := Nat.two_pow_pos 32
  gid := Nat.two_pow_pos 32
  specdata1 := Nat.two_pow_pos 32
  specdata2 := Nat.two_pow_pos 32
  atime := ⟨Nat.two_pow_pos 32, Nat.two_pow_pos 32⟩
  mtime := ⟨Nat.two_pow_pos 32, Nat.two_pow_pos 32⟩
  ctime := ⟨Nat.two_pow_pos 32, Nat.two_pow_pos 32⟩

/-- Attributes that do not follow are not encoded. -/
def PostOpAttr.Fits (p : PostOpAttr) : Prop := p.attributesFollow = true → p.attributes.Fits

def Mountres3.Fits (r : Mountres3) : Prop := r.fhandle.length ≤ nfs3Fhsize

def LOOKUP3res.Fits (r : LOOKUP3res) : Prop :=
  r.status = nfs3Ok → (r.objectVal.take r.objectLen).length ≤ nfs3Fhsize
    ∧ r.objAttributes.Fits ∧ r.dirAttributes.Fits

def READ3res.Fits (r : READ3res) : Prop := r.status = nfs3Ok → r.data.length < 2 ^ 32

/-- **The result of a procedure can be encoded.** -/
def Statics.Fits (s : Statics) : Procedure → Prop
  | .mnt => s.mnt.Fits
  | .fsinfo => s.fsinfo.objAttributes.Fits
  | .pathconf => s.pathconf.objAttributes.Fits
  | .getattr => s.getattr.objAttributes.Fits
  | .access => s.access.objAttributes.Fits
  | .readdir => s.readdir.dirAttributes.Fits
  | .lookup => s.lookup.Fits
  | .read => s.read.Fits

@[simp] theorem isSome_nfstime3 {t : Timespec} :
    (xdrNfstime3.encode t).isSome ↔ t.tvSec < 2 ^ 32 ∧ t.tvNsec < 2 ^ 32 := by
  rw [xdrNfstime3, encode_view, isSome_pair]
  exact and_congr isSome_uLong isSome_uLong

theorem isSome_fattr3 {a : Fattr3} (h : a.Typed) : (xdrFattr3.encode a).isSome ↔ a.Fits := by
  have hint : (xdrNfsstat3.encode a.type).isSome := isSome_int.mpr h.type
  have hsize : (xdrUint64.encode a.size).isSome := isSome_uQuad.mpr h.size
  have hused : (xdrUint64.encode a.used).isSome := isSome_uQuad.mpr h.used
  have hfsid : (xdrUint64.encode a.fsid).isSome := isSome_uQuad.mpr h.fsid
  have hfileid : (xdrUint64.encode a.fileid).isSome := isSome_uQuad.mpr h.fileid
  simp only [xdrFattr3, encode_view, isSome_pair, hint, hsize, hused, hfsid, hfileid, xdrUint32,
    xdrSpecdata3, isSome_uLong, isSome_nfstime3, true_and]
  constructor
  · rintro ⟨hmode, hnlink, huid, hgid, ⟨hmajor, hminor⟩, hatime, hmtime, hctime⟩
    exact ⟨hmode, hnlink, huid, hgid, hmajor, hminor, hatime, hmtime, hctime⟩
  · rintro ⟨hmode, hnlink, huid, hgid, hmajor, hminor, hatime, hmtime, hctime⟩
    exact ⟨hmode, hnlink, huid, hgid, ⟨hmajor, hminor⟩, hatime, hmtime, hctime⟩

theorem isSome_postOpAttr {p : PostOpAttr} (h : p.attributes.Typed) :
    (xdrPostOpAttr.encode p.shown).isSome ↔ p.Fits := by
  unfold PostOpAttr.shown xdrPostOpAttr PostOpAttr.Fits
  split
  · next hfollow =>
    rw [isSome_option_some, isSome_fattr3 h]
    exact ⟨fun hs _ => hs.2, fun hs => ⟨isSome_bool true, hs hfollow⟩⟩
  · next hfollow =>
    rw [isSome_option_none]
    exact ⟨fun _ h => absurd h hfollow, fun _ => isSome_bool false⟩

section Unions

variable {α β : Type} {c : Codec UInt8 α} {d : Codec UInt8 β} {status : ℤ} {ok : α} {fail : β}

/-- Of a union, the arm that the status selects is put down. -/
theorem isSome_byStatus_ok (h : status = nfs3Ok) :
    ((xdrNfsstat3.switch nfs3Ok c d).encode (byStatus status ok fail)).isSome
      ↔ (c.encode ok).isSome := by
  rw [byStatus, dif_pos h, isSome_switch_taken]
  exact and_iff_right (isSome_int.mpr isInt_nfs3Ok)

theorem isSome_byStatus_fail (h : status ≠ nfs3Ok) (hint : IsInt status) :
    ((xdrNfsstat3.switch nfs3Ok c d).encode (byStatus status ok fail)).isSome
      ↔ (d.encode fail).isSome := by
  rw [byStatus, dif_neg h, isSome_switch_other]
  exact and_iff_right (isSome_int.mpr hint)

end Unions

theorem isSome_nfsFh3 {handle : List UInt8} :
    (xdrNfsFh3.encode handle).isSome ↔ handle.length ≤ nfs3Fhsize := by
  rw [xdrNfsFh3, isSome_bytes]
  exact and_iff_left_of_imp fun h => h.trans_lt (by decide)

theorem isSome_mountres3 {r : Mountres3} (h : r.Regular) :
    (xdrMountres3.encode r.shown).isSome ↔ r.Fits := by
  have hauth : ((Xdr.Wire.array (Wire.unbounded / 4) int).encode r.authFlavors).isSome := by
    rcases h.flavors with h | h <;> rw [h] <;> decide
  rw [xdrMountres3, Mountres3.shown, isSome_byStatus_ok h.status, xdrMountres3Ok, encode_view,
    isSome_pair, isSome_nfsFh3]
  exact and_iff_left hauth

theorem isSome_FSINFO3res {r : FSINFO3res} (h : r.Regular) :
    (xdrFSINFO3res.encode r.shown).isSome ↔ r.objAttributes.Fits := by
  have hnumbers := h.numbers
  simp only [List.forall_mem_cons] at hnumbers
  obtain ⟨h₁, h₂, h₃, h₄, h₅, h₆, h₇, h₈, h₉, h₁₀, -⟩ := hnumbers
  rw [xdrFSINFO3res, FSINFO3res.shown, isSome_byStatus_ok h.status]
  simp only [xdrFSINFO3resok, encode_view, isSome_pair, isSome_postOpAttr h.attributes, xdrUint32,
    xdrUint64, isSome_uLong, isSome_uQuad, isSome_nfstime3, h₁, h₂, h₃, h₄, h₅, h₆, h₇, h₈, h₉,
    h₁₀, h.maxfilesize, and_true]

theorem isSome_PATHCONF3res {r : PATHCONF3res} (h : r.Regular) :
    (xdrPATHCONF3res.encode r.shown).isSome ↔ r.objAttributes.Fits := by
  rw [xdrPATHCONF3res, PATHCONF3res.shown, isSome_byStatus_ok h.status]
  simp only [xdrPATHCONF3resok, encode_view, isSome_pair, isSome_postOpAttr h.attributes,
    xdrUint32, isSome_uLong, isSome_bool, h.linkmax, h.nameMax, and_true]

theorem isSome_GETATTR3res {r : GETATTR3res} (h : r.Regular) :
    (xdrGETATTR3res.encode r.shown).isSome ↔ r.objAttributes.Fits := by
  rw [xdrGETATTR3res, GETATTR3res.shown, isSome_byStatus_ok h.status, isSome_fattr3 h.attributes]

theorem isSome_ACCESS3res {r : ACCESS3res} (h : r.Regular) :
    (xdrACCESS3res.encode r.shown).isSome ↔ r.objAttributes.Fits := by
  rw [xdrACCESS3res, ACCESS3res.shown, isSome_byStatus_ok h.status, xdrACCESS3resok, encode_view,
    isSome_pair, isSome_postOpAttr h.attributes]
  exact and_iff_left (isSome_uLong.mpr h.access)

theorem isSome_entry3 {e : Entry3} (h : e.Typed) : (xdrEntry3.encode e).isSome := by
  rw [xdrEntry3, encode_view, isSome_pair, isSome_pair]
  exact ⟨isSome_uQuad.mpr h.fileid,
    isSome_bytes.mpr ⟨Nat.le_of_lt_succ h.name, h.name⟩, isSome_uQuad.mpr h.cookie⟩

theorem isSome_READDIR3res {r : READDIR3res} (h : r.Regular) :
    (xdrREADDIR3res.encode r.shown).isSome ↔ r.dirAttributes.Fits := by
  have hverf : (xdrCookieverf3.encode r.cookieverf).isSome := by
    rw [h.cookieverf]
    decide
  have hentries : ((pointers xdrEntry3).encode r.entries).isSome :=
    isSome_pointers.mpr fun e he => isSome_entry3 (h.entries e he)
  rw [xdrREADDIR3res, READDIR3res.shown, isSome_byStatus_ok h.status]
  simp only [xdrREADDIR3resok, encode_view, isSome_pair, isSome_postOpAttr h.attributes, hverf,
    hentries, isSome_bool, and_true]

theorem isSome_LOOKUP3res {r : LOOKUP3res} (h : r.Regular) :
    (xdrLOOKUP3res.encode r.shown).isSome ↔ r.Fits := by
  rw [xdrLOOKUP3res, LOOKUP3res.shown]
  by_cases hok : r.status = nfs3Ok
  · rw [isSome_byStatus_ok hok, xdrLOOKUP3resok, encode_view, isSome_pair, isSome_pair,
      isSome_nfsFh3, isSome_postOpAttr h.objAttributes, isSome_postOpAttr h.dirAttributes]
    exact ⟨fun hs _ => hs, fun hs => hs hok⟩
  · rw [isSome_byStatus_fail hok h.status]
    exact ⟨fun _ h => absurd h hok, fun _ => isSome_option_none.mpr (isSome_bool false)⟩

theorem isSome_READ3res {r : READ3res} (h : r.Regular) :
    (xdrREAD3res.encode r.shown).isSome ↔ r.Fits := by
  have hpost : (xdrPostOpAttr.encode r.fileAttributes.shown).isSome := by
    rw [h.fileAttributes]
    decide
  rw [xdrREAD3res, READ3res.shown]
  by_cases hok : r.status = nfs3Ok
  · have hdata : ((bytes Wire.unbounded).encode r.data).isSome ↔ r.data.length < 2 ^ 32 := by
      rw [isSome_bytes]
      exact and_iff_right_of_imp Nat.le_of_lt_succ
    rw [isSome_byStatus_ok hok, xdrREAD3resok, encode_view, isSome_pair, isSome_pair, isSome_pair,
      hdata, h.count hok, xdrUint32, isSome_uLong]
    exact ⟨fun hs _ => hs.2.2.2, fun hs => ⟨hpost, hs hok, isSome_bool _, hs hok⟩⟩
  · rw [isSome_byStatus_fail hok h.status]
    exact ⟨fun _ h => absurd h hok, fun _ => hpost⟩

/-- **A result is encoded if it fits.** -/
theorem isSome_xdrResult (hs : s.Regular) {p : Procedure} :
    (p.xdrResult.encode (s.shown p)).isSome ↔ s.Fits p := by
  cases p with
  | mnt => exact isSome_mountres3 hs.mnt
  | fsinfo => exact isSome_FSINFO3res hs.fsinfo
  | pathconf => exact isSome_PATHCONF3res hs.pathconf
  | getattr => exact isSome_GETATTR3res hs.getattr
  | access => exact isSome_ACCESS3res hs.access
  | readdir => exact isSome_READDIR3res hs.readdir
  | lookup => exact isSome_LOOKUP3res hs.lookup
  | read => exact isSome_READ3res hs.read

/-- What is asked with a handle can be encoded if the handle fits. -/
theorem isSome_readdirArgs {cookie count : ℕ} {cookieverf : List UInt8}
    (hpath : path.length ≤ nfs3Fhsize) (hcookie : cookie < 2 ^ 64) (hverf : cookieverf.length = 8)
    (hcount : count < 2 ^ 32) :
    (Procedure.readdir.xdrArgument.encode ⟨path, cookie, cookieverf, count⟩).isSome :=
  isSome_pair.mpr ⟨isSome_nfsFh3.mpr hpath, isSome_pair.mpr ⟨isSome_uQuad.mpr hcookie,
    isSome_pair.mpr ⟨isSome_fixed.mpr hverf, isSome_uLong.mpr hcount⟩⟩⟩

theorem isSome_readArgs {offset count : ℕ} (hpath : path.length ≤ nfs3Fhsize)
    (hoffset : offset < 2 ^ 64) (hcount : count < 2 ^ 32) :
    (Procedure.read.xdrArgument.encode ⟨path, offset, count⟩).isSome :=
  isSome_pair.mpr ⟨isSome_nfsFh3.mpr hpath,
    isSome_pair.mpr ⟨isSome_uQuad.mpr hoffset, isSome_uLong.mpr hcount⟩⟩

theorem isSome_lookupArgs (hdir : dir.length ≤ nfs3Fhsize) (hname : name.length < 2 ^ 32) :
    (Procedure.lookup.xdrArgument.encode (dir, name)).isSome :=
  isSome_pair.mpr ⟨isSome_nfsFh3.mpr hdir, isSome_bytes.mpr ⟨Nat.le_of_lt_succ hname, hname⟩⟩

/-! ## What `READ` shows -/

/-- A read never has more bytes than it was asked for. -/
theorem length_fillREAD3resStream_le {offset : ℤ} {count : ℕ} {result : READ3res}
    (h : (fillREAD3resStream b path offset count result).status = nfs3Ok) :
    (fillREAD3resStream b path offset count result).data.length ≤ count := by
  have hio : ∀ r : READ3res, r.status = nfs3errIo → r.status = nfs3Ok → r.data.length ≤ count :=
    fun r hstatus hok => absurd (hstatus ▸ hok) (by decide)
  revert h
  unfold fillREAD3resStream
  split
  · split
    · split
      · split
        · exact fun _ => Nat.zero_le _
        · next bytes _ hbytes =>
          split
          · exact fun _ => b.pread_le path offset count bytes hbytes
          · exact hio _ rfl
        · exact hio _ rfl
      · exact hio _ rfl
    · exact hio _ rfl
  · exact hio _ rfl

/-- What `READ` shows depends on the attributes that it never sets. -/
theorem shown_READ3res_congr {offset : ℤ} {count : ℕ} {x y : READ3res}
    (h : x.fileAttributes = y.fileAttributes) :
    (fillREAD3resStream b path offset count x).shown
      = (fillREAD3resStream b path offset count y).shown := by
  have hfail : ∀ (n : ℕ) (eof : Bool) (data : List UInt8) (n' : ℕ) (eof' : Bool)
      (data' : List UInt8),
      READ3res.shown ⟨nfs3errIo, x.fileAttributes, n, eof, data⟩
        = READ3res.shown ⟨nfs3errIo, y.fileAttributes, n', eof', data'⟩ := fun _ _ _ _ _ _ => by
    rw [h]
    rfl
  unfold fillREAD3resStream
  by_cases hopen : b.open' path = true
  · rw [if_pos hopen, if_pos hopen]
    by_cases hseek : b.lseek path offset = true
    · rw [if_pos hseek, if_pos hseek]
      by_cases hbuffer : b.malloc count = true
      · rw [if_pos hbuffer, if_pos hbuffer]
        cases b.pread path offset count with
        | none => exact hfail _ _ _ _ _ _
        | some data =>
          cases data with
          | nil =>
            dsimp only
            rw [h]
          | cons c data =>
            dsimp only
            by_cases hdata : b.malloc (c :: data).length = true
            · rw [if_pos hdata, if_pos hdata, h]
            · rw [if_neg hdata, if_neg hdata]
              exact hfail _ _ _ _ _ _
      · rw [if_neg hbuffer, if_neg hbuffer]
        exact hfail _ _ _ _ _ _
    · rw [if_neg hseek, if_neg hseek]
      exact hfail _ _ _ _ _ _
  · rw [if_neg hopen, if_neg hopen]
    exact hfail _ _ _ _ _ _

/-! ## Packets -/

variable {p : Procedure} {x : p.Args} {packet rest : List UInt8} {packets : List Packet}

/-- A packet that cannot be decoded leaves no trace. -/
theorem receive_of_none (h : p.xdrArgument.decode packet = none) :
    receive b s p packet = some (s, .decodeErr) := by
  unfold receive
  rw [h]

/-- A packet that can is a call. -/
theorem receive_of_some (h : p.xdrArgument.decode packet = some (x, rest)) :
    receive b s p packet
      = if (p.request x).Survived b then
          some (dispatch b s (p.request x),
            .ofEncoded (p.xdrResult.encode ((dispatch b s (p.request x)).shown p)))
        else none := by
  unfold receive
  rw [h]

theorem receiveAll_cons {y : Packet} {ys : List Packet} :
    receiveAll s (y :: ys)
      = (receive y.backing s y.procedure y.bytes).bind fun z => receiveAll z.1 ys := rfl

/-- **A run of packets is a run of the calls they make**, if the server survives these. -/
theorem receiveAll_eq (s : Statics) (packets : List Packet) :
    receiveAll s packets
      = if ∀ y ∈ packets.filterMap Packet.call, y.1.Survived y.2 then
          some ((packets.filterMap Packet.call).foldl (fun s y => dispatch y.2 s y.1) s)
        else none := by
  induction packets generalizing s with
  | nil =>
    rw [List.filterMap_nil, if_pos fun _ hy => absurd hy List.not_mem_nil]
    rfl
  | cons y ys ih =>
    rw [receiveAll_cons]
    cases hdec : y.procedure.xdrArgument.decode y.bytes with
    | none =>
      have hcall : y.call = none := by rw [Packet.call, hdec, Option.map_none]
      rw [receive_of_none hdec, Option.bind_some, ih, List.filterMap_cons_none hcall]
    | some z =>
      obtain ⟨x, rest⟩ := z
      have hcall : y.call = some (y.procedure.request x, y.backing) := by
        rw [Packet.call, hdec, Option.map_some]
      rw [receive_of_some hdec, List.filterMap_cons_some hcall]
      simp only [List.forall_mem_cons]
      by_cases hk : (y.procedure.request x).Survived y.backing
      · rw [if_pos hk, Option.bind_some, ih, List.foldl_cons]
        simp only [hk, true_and]
      · rw [if_neg hk, Option.bind_none, if_neg fun h => hk h.1]

/-- A server that is still there is where the calls have led it. -/
theorem eq_after_of_receiveAll (hs : receiveAll {} packets = some s) :
    s = after (packets.filterMap Packet.call) := by
  rw [receiveAll_eq] at hs
  split at hs
  · exact (Option.some.inj hs).symm
  · exact absurd hs.symm (Option.some_ne_none _)

theorem regular_foldl {history : List (Request × Backing)} (hs : s.Regular) :
    (history.foldl (fun s y => dispatch y.2 s y.1) s).Regular := by
  induction history generalizing s with
  | nil => exact hs
  | cons y ys ih => exact ih (hs.dispatch _ _)

/-- **It holds of the static results at any time.** -/
theorem Statics.Reached.regular (h : s.Reached) : s.Regular := by
  obtain ⟨packets, hs⟩ := h
  rw [eq_after_of_receiveAll hs]
  exact regular_foldl Statics.regular_zero

/-- Before the first packet. -/
theorem Statics.reached_zero : ({} : Statics).Reached := ⟨[], rfl⟩

/-! ## What is sent -/

/-- **What an answer tells** of the result of a procedure. If it fits, it is decoded from the
bytes and nothing is left of these, and no part of them from the front is decoded. -/
inductive Conveys (p : Procedure) (s : Statics) : Answer → Prop
  | result {bytes} (fits : s.Fits p) (whole : p.xdrResult.decode bytes = some (s.shown p, []))
      (cut : ∀ u v, u ++ v = bytes → v ≠ [] → p.xdrResult.decode u = none) :
      Conveys p s (.result bytes)
  | systemErr (unfit : ¬ s.Fits p) : Conveys p s .systemErr

/-- What is sent tells the result. -/
theorem conveys (hs : s.Regular) :
    Conveys p s (.ofEncoded (p.xdrResult.encode (s.shown p))) := by
  have hfits := isSome_xdrResult hs (p := p)
  cases henc : p.xdrResult.encode (s.shown p) with
  | none =>
    rw [henc] at hfits
    exact .systemErr fun h => absurd (hfits.mpr h) Bool.false_ne_true
  | some bytes =>
    rw [henc] at hfits
    exact .result (hfits.mp rfl) (decode_of_encode henc) fun u v huv hv =>
      decode_cut (huv ▸ henc) hv

/-- **A client is told what the result shows**, if the server survives the call and the
result fits. -/
theorem ask_eq_some_iff (hs : s.Regular) (hx : (p.xdrArgument.encode x).isSome)
    {result : p.Result} :
    ask b s p x = some result ↔ (p.request x).Survived b
      ∧ (dispatch b s (p.request x)).Fits p ∧ (dispatch b s (p.request x)).shown p = result := by
  obtain ⟨packet, hpacket⟩ := Option.isSome_iff_exists.mp hx
  unfold ask
  rw [hpacket, Option.bind_some, receive_of_some (decode_of_encode hpacket)]
  by_cases hk : (p.request x).Survived b
  · have htold := conveys (hs.dispatch b (p.request x)) (p := p)
    rw [if_pos hk, Option.bind_some, and_iff_right hk]
    generalize Answer.ofEncoded (p.xdrResult.encode ((dispatch b s (p.request x)).shown p))
      = answer at htold
    cases htold with
    | systemErr unfit =>
      exact ⟨fun h => absurd h.symm (Option.some_ne_none _), fun h => absurd h.1 unfit⟩
    | result fits whole _ =>
      show (p.xdrResult.decode _).map Prod.fst = some result ↔ _
      rw [whole, Option.map_some, and_iff_right fits]
      exact Option.some_inj
  · rw [if_neg hk, Option.bind_none]
    exact ⟨fun h => absurd h.symm (Option.some_ne_none _), fun h => absurd h.1 hk⟩

end Nfs
