import LLPFilesystem.NfsServer
import LLPFilesystem.Wire

/-!
# What the NFS server reads and sends

The routines of `nfs_xdr.c` byte by byte, and `nfs_svc.c` with them: a packet with the
arguments of a call is decoded, the procedure is called, and the static result is encoded.

The values are those of `nfs.x`. A result is a union over its status; what the flag of
`post_op_attr` hides is not there at all. The results of `NfsServer` lie in C unions, and
`Statics.shown` is how the routines look at them.
-/

namespace Nfs.Wire

open Codec (Switch void)
open Xdr.Wire

/-! ## Values -/

/-- `mountres3_ok`. -/
structure Mountres3Ok where
  fhandle : List UInt8
  authFlavors : List ℤ
  deriving DecidableEq

/-- `FSINFO3resok`. -/
structure FSINFO3resok where
  objAttributes : Option Fattr3
  rtmax : ℕ
  rtpref : ℕ
  rtmult : ℕ
  wtmax : ℕ
  wtpref : ℕ
  wtmult : ℕ
  dtpref : ℕ
  maxfilesize : ℕ
  timeDelta : Timespec
  properties : ℕ
  deriving DecidableEq

/-- `PATHCONF3resok`. -/
structure PATHCONF3resok where
  objAttributes : Option Fattr3
  linkmax : ℕ
  nameMax : ℕ
  noTrunc : Bool
  chownRestricted : Bool
  caseInsensitive : Bool
  casePreserving : Bool
  deriving DecidableEq

/-- `ACCESS3resok`. -/
structure ACCESS3resok where
  objAttributes : Option Fattr3
  access : ℕ
  deriving DecidableEq

/-- `READDIR3args`. -/
structure READDIR3args where
  dir : List UInt8
  cookie : ℕ
  cookieverf : List UInt8
  count : ℕ
  deriving DecidableEq

/-- `READDIR3resok`, with its `dirlist3`. -/
structure READDIR3resok where
  dirAttributes : Option Fattr3
  cookieverf : List UInt8
  entries : List Entry3
  eof : Bool
  deriving DecidableEq

/-- `LOOKUP3resok`. -/
structure LOOKUP3resok where
  object : List UInt8
  objAttributes : Option Fattr3
  dirAttributes : Option Fattr3
  deriving DecidableEq

/-- `READ3args`. -/
structure READ3args where
  file : List UInt8
  offset : ℕ
  count : ℕ
  deriving DecidableEq

/-- `READ3resok`. -/
structure READ3resok where
  fileAttributes : Option Fattr3
  count : ℕ
  eof : Bool
  data : List UInt8
  deriving DecidableEq

/-- A union over a status: what follows `NFS3_OK`, and what any other. -/
abbrev Res (α β : Type) : Type := Switch nfs3Ok α β

/-! ## Routines -/

/-- `NFS3_COOKIEVERFSIZE`. -/
def nfs3Cookieverfsize : ℕ := 8

/-- The bound `~0` of a length. -/
def unbounded : ℕ := 2 ^ 32 - 1

/-- `xdr_uint32`, and with it `xdr_uid3`, `xdr_gid3`, `xdr_mode3` and `xdr_count3`. -/
def xdrUint32 : Codec UInt8 ℕ := uLong

/-- `xdr_uint64`, and with it `xdr_fileid3`, `xdr_cookie3`, `xdr_size3` and
`xdr_offset3`. -/
def xdrUint64 : Codec UInt8 ℕ := uQuad

/-- `xdr_nfsstat3`, `xdr_mountstat3` and `xdr_ftype3`. -/
def xdrNfsstat3 : Codec UInt8 ℤ := int

/-- `xdr_filename3`. -/
def xdrFilename3 : Codec UInt8 (List UInt8) := bytes unbounded

/-- `xdr_dirpath`. -/
def xdrDirpath : Codec UInt8 (List UInt8) := bytes mntpathlen

/-- `xdr_nfs_fh3` and `xdr_fhandle3`. -/
def xdrNfsFh3 : Codec UInt8 (List UInt8) := bytes nfs3Fhsize

/-- `xdr_cookieverf3`. -/
def xdrCookieverf3 : Codec UInt8 (List UInt8) := fixed nfs3Cookieverfsize

/-- `xdr_mountres3_ok`. The flavors are an array of `int`, whose size is a number of 32
bits. -/
def xdrMountres3Ok : Codec UInt8 Mountres3Ok :=
  (xdrNfsFh3.pair (array (unbounded / 4) int)).view
    (fun (fhandle, authFlavors) => ⟨fhandle, authFlavors⟩)
    (fun r => (r.fhandle, r.authFlavors)) fun _ => rfl

/-- `xdr_mountres3`. -/
def xdrMountres3 : Codec UInt8 (Res Mountres3Ok Unit) :=
  xdrNfsstat3.switch nfs3Ok xdrMountres3Ok void

/-- `xdr_nfstime3`. -/
def xdrNfstime3 : Codec UInt8 Timespec :=
  (xdrUint32.pair xdrUint32).view (fun (seconds, nseconds) => ⟨seconds, nseconds⟩)
    (fun t => (t.tvSec, t.tvNsec)) fun _ => rfl

/-- `xdr_specdata3`. -/
def xdrSpecdata3 : Codec UInt8 (ℕ × ℕ) := xdrUint32.pair xdrUint32

/-- `xdr_fattr3`. -/
def xdrFattr3 : Codec UInt8 Fattr3 :=
  (xdrNfsstat3.pair <| xdrUint32.pair <| xdrUint32.pair <| xdrUint32.pair <|
    xdrUint32.pair <| xdrUint64.pair <| xdrUint64.pair <| xdrSpecdata3.pair <|
    xdrUint64.pair <| xdrUint64.pair <| xdrNfstime3.pair <| xdrNfstime3.pair
    xdrNfstime3).view
    (fun (type, mode, nlink, uid, gid, size, used, (specdata1, specdata2), fsid, fileid,
        atime, mtime, ctime) =>
      ⟨type, mode, nlink, uid, gid, size, used, specdata1, specdata2, fsid, fileid,
        atime, mtime, ctime⟩)
    (fun a => (a.type, a.mode, a.nlink, a.uid, a.gid, a.size, a.used,
      (a.specdata1, a.specdata2), a.fsid, a.fileid, a.atime, a.mtime, a.ctime))
    fun _ => rfl

/-- `xdr_post_op_attr`. -/
def xdrPostOpAttr : Codec UInt8 (Option Fattr3) := bool.option xdrFattr3

/-- `xdr_FSINFO3resok`. -/
def xdrFSINFO3resok : Codec UInt8 FSINFO3resok :=
  (xdrPostOpAttr.pair <| xdrUint32.pair <| xdrUint32.pair <| xdrUint32.pair <|
    xdrUint32.pair <| xdrUint32.pair <| xdrUint32.pair <| xdrUint32.pair <|
    xdrUint64.pair <| xdrNfstime3.pair xdrUint32).view
    (fun (objAttributes, rtmax, rtpref, rtmult, wtmax, wtpref, wtmult, dtpref, maxfilesize,
        timeDelta, properties) =>
      ⟨objAttributes, rtmax, rtpref, rtmult, wtmax, wtpref, wtmult, dtpref, maxfilesize,
        timeDelta, properties⟩)
    (fun r => (r.objAttributes, r.rtmax, r.rtpref, r.rtmult, r.wtmax, r.wtpref, r.wtmult,
      r.dtpref, r.maxfilesize, r.timeDelta, r.properties))
    fun _ => rfl

/-- `xdr_FSINFO3res`. -/
def xdrFSINFO3res : Codec UInt8 (Res FSINFO3resok (Option Fattr3)) :=
  xdrNfsstat3.switch nfs3Ok xdrFSINFO3resok xdrPostOpAttr

/-- `xdr_PATHCONF3resok`. The four flags that it gets and puts inline are those that
`xdr_bool` gets and puts. -/
def xdrPATHCONF3resok : Codec UInt8 PATHCONF3resok :=
  (xdrPostOpAttr.pair <| xdrUint32.pair <| xdrUint32.pair <| bool.pair <| bool.pair <|
    bool.pair bool).view
    (fun (objAttributes, linkmax, nameMax, noTrunc, chownRestricted, caseInsensitive,
        casePreserving) =>
      ⟨objAttributes, linkmax, nameMax, noTrunc, chownRestricted, caseInsensitive,
        casePreserving⟩)
    (fun r => (r.objAttributes, r.linkmax, r.nameMax, r.noTrunc, r.chownRestricted,
      r.caseInsensitive, r.casePreserving))
    fun _ => rfl

/-- `xdr_PATHCONF3res`. -/
def xdrPATHCONF3res : Codec UInt8 (Res PATHCONF3resok (Option Fattr3)) :=
  xdrNfsstat3.switch nfs3Ok xdrPATHCONF3resok xdrPostOpAttr

/-- `xdr_GETATTR3res`. -/
def xdrGETATTR3res : Codec UInt8 (Res Fattr3 Unit) := xdrNfsstat3.switch nfs3Ok xdrFattr3 void

/-- `xdr_ACCESS3args`. -/
def xdrACCESS3args : Codec UInt8 (List UInt8 × ℕ) := xdrNfsFh3.pair xdrUint32

/-- `xdr_ACCESS3resok`. -/
def xdrACCESS3resok : Codec UInt8 ACCESS3resok :=
  (xdrPostOpAttr.pair xdrUint32).view (fun (objAttributes, access) => ⟨objAttributes, access⟩)
    (fun r => (r.objAttributes, r.access)) fun _ => rfl

/-- `xdr_ACCESS3res`. -/
def xdrACCESS3res : Codec UInt8 (Res ACCESS3resok (Option Fattr3)) :=
  xdrNfsstat3.switch nfs3Ok xdrACCESS3resok xdrPostOpAttr

/-- `xdr_READDIR3args`. -/
def xdrREADDIR3args : Codec UInt8 READDIR3args :=
  (xdrNfsFh3.pair <| xdrUint64.pair <| xdrCookieverf3.pair xdrUint32).view
    (fun (dir, cookie, cookieverf, count) => ⟨dir, cookie, cookieverf, count⟩)
    (fun x => (x.dir, x.cookie, x.cookieverf, x.count)) fun _ => rfl

/-- `xdr_entry3`, without the link to the next one. -/
def xdrEntry3 : Codec UInt8 Entry3 :=
  (xdrUint64.pair <| xdrFilename3.pair xdrUint64).view
    (fun (fileid, name, cookie) => ⟨fileid, name, cookie⟩)
    (fun e => (e.fileid, e.name, e.cookie)) fun _ => rfl

/-- `xdr_READDIR3resok` and `xdr_dirlist3`. -/
def xdrREADDIR3resok : Codec UInt8 READDIR3resok :=
  (xdrPostOpAttr.pair <| xdrCookieverf3.pair <| (pointers xdrEntry3).pair bool).view
    (fun (dirAttributes, cookieverf, entries, eof) => ⟨dirAttributes, cookieverf, entries, eof⟩)
    (fun r => (r.dirAttributes, r.cookieverf, r.entries, r.eof)) fun _ => rfl

/-- `xdr_READDIR3res`. -/
def xdrREADDIR3res : Codec UInt8 (Res READDIR3resok (Option Fattr3)) :=
  xdrNfsstat3.switch nfs3Ok xdrREADDIR3resok xdrPostOpAttr

/-- `xdr_LOOKUP3args` and `xdr_diropargs3`. -/
def xdrLOOKUP3args : Codec UInt8 (List UInt8 × List UInt8) := xdrNfsFh3.pair xdrFilename3

/-- `xdr_LOOKUP3resok`. -/
def xdrLOOKUP3resok : Codec UInt8 LOOKUP3resok :=
  (xdrNfsFh3.pair <| xdrPostOpAttr.pair xdrPostOpAttr).view
    (fun (object, objAttributes, dirAttributes) => ⟨object, objAttributes, dirAttributes⟩)
    (fun r => (r.object, r.objAttributes, r.dirAttributes)) fun _ => rfl

/-- `xdr_LOOKUP3res`. -/
def xdrLOOKUP3res : Codec UInt8 (Res LOOKUP3resok (Option Fattr3)) :=
  xdrNfsstat3.switch nfs3Ok xdrLOOKUP3resok xdrPostOpAttr

/-- `xdr_READ3args`. -/
def xdrREAD3args : Codec UInt8 READ3args :=
  (xdrNfsFh3.pair <| xdrUint64.pair xdrUint32).view
    (fun (file, offset, count) => ⟨file, offset, count⟩)
    (fun x => (x.file, x.offset, x.count)) fun _ => rfl

/-- `xdr_READ3resok`. -/
def xdrREAD3resok : Codec UInt8 READ3resok :=
  (xdrPostOpAttr.pair <| xdrUint32.pair <| bool.pair (bytes unbounded)).view
    (fun (fileAttributes, count, eof, data) => ⟨fileAttributes, count, eof, data⟩)
    (fun r => (r.fileAttributes, r.count, r.eof, r.data)) fun _ => rfl

/-- `xdr_READ3res`. -/
def xdrREAD3res : Codec UInt8 (Res READ3resok (Option Fattr3)) :=
  xdrNfsstat3.switch nfs3Ok xdrREAD3resok xdrPostOpAttr

end Nfs.Wire

namespace Nfs

open Codec (Switch)
open Wire

/-! ## How the results look to the routines -/

/-- The union in a `post_op_attr`. -/
def PostOpAttr.shown (p : PostOpAttr) : Option Fattr3 :=
  if p.attributesFollow then some p.attributes else none

/-- A union over a status: the arm that the status selects. -/
def byStatus {α β : Type} (status : ℤ) (ok : α) (fail : β) : Res α β :=
  if h : status = nfs3Ok then .taken ok else .other status h fail

def Mountres3.shown (r : Mountres3) : Res Mountres3Ok Unit :=
  byStatus r.fhsStatus ⟨r.fhandle, r.authFlavors⟩ ()

def FSINFO3res.shown (r : FSINFO3res) : Res FSINFO3resok (Option Fattr3) :=
  byStatus r.status
    ⟨r.objAttributes.shown, r.rtmax, r.rtpref, r.rtmult, r.wtmax, r.wtpref, r.wtmult, r.dtpref,
      r.maxfilesize, r.timeDelta, r.properties⟩
    r.objAttributes.shown

def PATHCONF3res.shown (r : PATHCONF3res) : Res PATHCONF3resok (Option Fattr3) :=
  byStatus r.status
    ⟨r.objAttributes.shown, r.linkmax, r.nameMax, r.noTrunc, r.chownRestricted,
      r.caseInsensitive, r.casePreserving⟩
    r.objAttributes.shown

def GETATTR3res.shown (r : GETATTR3res) : Res Fattr3 Unit := byStatus r.status r.objAttributes ()

def ACCESS3res.shown (r : ACCESS3res) : Res ACCESS3resok (Option Fattr3) :=
  byStatus r.status ⟨r.objAttributes.shown, r.access⟩ r.objAttributes.shown

def READDIR3res.shown (r : READDIR3res) : Res READDIR3resok (Option Fattr3) :=
  byStatus r.status ⟨r.dirAttributes.shown, r.cookieverf, r.entries, r.eof⟩ r.dirAttributes.shown

/-- In a refusal the flag of the attributes has just been cleared. -/
def LOOKUP3res.shown (r : LOOKUP3res) : Res LOOKUP3resok (Option Fattr3) :=
  byStatus r.status
    ⟨r.objectVal.take r.objectLen, r.objAttributes.shown, r.dirAttributes.shown⟩ none

def READ3res.shown (r : READ3res) : Res READ3resok (Option Fattr3) :=
  byStatus r.status ⟨r.fileAttributes.shown, r.count, r.eof, r.data⟩ r.fileAttributes.shown

/-! ## Dispatch -/

/-- The procedures, as `mount_3` and `nfs_program_3` know them. -/
inductive Procedure where
  | mnt
  | fsinfo
  | pathconf
  | getattr
  | access
  | readdir
  | lookup
  | read
  deriving DecidableEq, Repr

namespace Procedure

/-- The type of the arguments. -/
abbrev Args : Procedure → Type
  | mnt | fsinfo | pathconf | getattr => List UInt8
  | access => List UInt8 × ℕ
  | readdir => READDIR3args
  | lookup => List UInt8 × List UInt8
  | read => READ3args

/-- `_xdr_argument`. The arguments of `FSINFO`, `PATHCONF` and `GETATTR` are a handle and
no more. -/
def xdrArgument : (p : Procedure) → Codec UInt8 p.Args
  | mnt => Wire.xdrDirpath
  | fsinfo | pathconf | getattr => Wire.xdrNfsFh3
  | access => Wire.xdrACCESS3args
  | readdir => Wire.xdrREADDIR3args
  | lookup => Wire.xdrLOOKUP3args
  | read => Wire.xdrREAD3args

/-- The call that decoded arguments make. -/
def request : (p : Procedure) → p.Args → Request
  | mnt, path => .mnt path
  | fsinfo, fsroot => .fsinfo fsroot
  | pathconf, object => .pathconf object
  | getattr, object => .getattr object
  | access, (object, mask) => .access object mask
  | readdir, ⟨dir, cookie, cookieverf, count⟩ => .readdir dir cookie cookieverf count
  | lookup, (dir, name) => .lookup dir name
  | read, ⟨file, offset, count⟩ => .read file offset count

/-- The type of the result. -/
abbrev Result : Procedure → Type
  | mnt => Res Mountres3Ok Unit
  | fsinfo => Res FSINFO3resok (Option Fattr3)
  | pathconf => Res PATHCONF3resok (Option Fattr3)
  | getattr => Res Fattr3 Unit
  | access => Res ACCESS3resok (Option Fattr3)
  | readdir => Res READDIR3resok (Option Fattr3)
  | lookup => Res LOOKUP3resok (Option Fattr3)
  | read => Res READ3resok (Option Fattr3)

/-- `_xdr_result`. -/
def xdrResult : (p : Procedure) → Codec UInt8 p.Result
  | mnt => Wire.xdrMountres3
  | fsinfo => Wire.xdrFSINFO3res
  | pathconf => Wire.xdrPATHCONF3res
  | getattr => Wire.xdrGETATTR3res
  | access => Wire.xdrACCESS3res
  | readdir => Wire.xdrREADDIR3res
  | lookup => Wire.xdrLOOKUP3res
  | read => Wire.xdrREAD3res

end Procedure

/-- The static result of a procedure. -/
def Statics.shown (s : Statics) : (p : Procedure) → p.Result
  | .mnt => s.mnt.shown
  | .fsinfo => s.fsinfo.shown
  | .pathconf => s.pathconf.shown
  | .getattr => s.getattr.shown
  | .access => s.access.shown
  | .readdir => s.readdir.shown
  | .lookup => s.lookup.shown
  | .read => s.read.shown

/-- What is sent for a packet. -/
inductive Answer where
  | result (bytes : List UInt8)
  | systemErr
  | decodeErr
  deriving DecidableEq, Repr

/-- `svc_sendreply`, and `svcerr_systemerr` if it fails. -/
def Answer.ofEncoded : Option (List UInt8) → Answer
  | some bytes => .result bytes
  | none => .systemErr

/-- **A packet for a procedure**, as `svc_getargs`, the procedure and `svc_sendreply` deal
with it; `none` if the server does not survive. -/
def receive (b : Backing) (s : Statics) (p : Procedure) (packet : List UInt8) :
    Option (Statics × Answer) :=
  match p.xdrArgument.decode packet with
  | none => some (s, .decodeErr)
  | some (x, _) =>
    if (p.request x).Survived b then
      some (dispatch b s (p.request x),
        .ofEncoded (p.xdrResult.encode ((dispatch b s (p.request x)).shown p)))
    else none

/-- A packet, and what stood behind the server when it came. -/
structure Packet where
  backing : Backing
  procedure : Procedure
  bytes : List UInt8

/-- **The call that a packet makes**, and what stands behind it. -/
def Packet.call (x : Packet) : Option (Request × Backing) :=
  (x.procedure.xdrArgument.decode x.bytes).map fun y => (x.procedure.request y.1, x.backing)

/-- **The server after some packets**, if it survives them. -/
def receiveAll : Statics → List Packet → Option Statics
  | s, [] => some s
  | s, x :: xs =>
    (receive x.backing s x.procedure x.bytes).bind fun y => receiveAll y.1 xs

/-- **Static results to which some packets have led.** -/
def Statics.Reached (s : Statics) : Prop := ∃ packets, receiveAll {} packets = some s

/-- **What a client is told**: its arguments are put down, the packet is received, and
what is sent is decoded. -/
def ask (b : Backing) (s : Statics) (p : Procedure) (x : p.Args) : Option p.Result :=
  (p.xdrArgument.encode x).bind fun packet =>
    (receive b s p packet).bind fun y =>
      match y.2 with
      | .result bytes => (p.xdrResult.decode bytes).map Prod.fst
      | _ => none

end Nfs
