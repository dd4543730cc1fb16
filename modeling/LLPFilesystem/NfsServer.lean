import Mathlib.Data.Nat.Bitwise
import Mathlib.Tactic.NormNum
import LLPFilesystem.Text

/-!
# The NFS server

`nfs_server.c`, `tools.c` and `read.c`: the procedures of the calls the server answers. Each
returns a result that is static, and fills in some of its fields; what a call leaves is there
for the next one (`Statics`).

What the file system, the memory and the C library answer is a parameter of each call
(`Backing`). A handle is the path of the object. It is decoded into memory of its own
length; `GETATTR`, `ACCESS`, `READDIR`, `LOOKUP` and `READ` put a zero behind it, `FSINFO`
and `PATHCONF` read what happens to lie there. The names in a listing are pointers into the
buffer of a directory that has been closed, so a reply has what happens to lie there.
-/

namespace Nfs

open Text

/-- `NFS3_FHSIZE` and `FHSIZE3`. -/
def nfs3Fhsize : ℕ := 64

/-- `MNTPATHLEN`. -/
def mntpathlen : ℕ := 1024

/-- `NFS_MAXPATHLEN`. -/
def nfsMaxpathlen : ℕ := 1024

/-- `NFS3_OK`, which is also `MNT3_OK`. -/
def nfs3Ok : ℤ := 0

/-- `NFS3ERR_NOENT`. -/
def nfs3errNoent : ℤ := 2

/-- `NFS3ERR_IO`. -/
def nfs3errIo : ℤ := 5

/-! ## What the server asks for -/

structure Timespec where
  tvSec : ℕ
  tvNsec : ℕ
  deriving DecidableEq, Repr

/-- What `stat` tells. -/
structure Stat where
  mode : ℕ
  nlink : ℕ
  uid : ℕ
  gid : ℕ
  size : ℕ
  major : ℕ
  minor : ℕ
  dev : ℕ
  ino : ℕ
  atim : Timespec
  mtim : Timespec
  ctim : Timespec
  size_lt : size < 2 ^ 64
  dev_lt : dev < 2 ^ 64
  ino_lt : ino < 2 ^ 64
  deriving DecidableEq

/-- An entry as `readdir` gives it. -/
structure Dirent where
  ino : ℕ
  name : List UInt8
  off : ℕ
  ino_lt : ino < 2 ^ 64
  off_lt : off < 2 ^ 64
  deriving DecidableEq

/-- **What stands behind the server** during a call: the file system, and the
memory. -/
structure Backing where
  stat : List UInt8 → Option Stat
  /-- `opendir`, and the entries that `readdir` gives. -/
  opendir : List UInt8 → Option (List Dirent)
  /-- The string that lies where `readdir` had put the name of the `n`-th entry, once the
  directory has been closed. -/
  leftover : List UInt8 → ℕ → List UInt8
  open' : List UInt8 → Bool
  lseek : List UInt8 → ℤ → Bool
  /-- The bytes that `pread` reads, `none` if it fails. -/
  pread : List UInt8 → ℤ → ℕ → Option (List UInt8)
  /-- Whether the allocations of `n` bytes succeed. -/
  malloc : ℕ → Bool
  /-- Whether memory allocated for `n` bytes has room for one more. -/
  room : ℕ → Bool
  /-- The byte that lies before a decoded handle. -/
  before : UInt8
  /-- The bytes that lie behind it. -/
  behind : List UInt8
  /-- What `get_socket_type` finds. -/
  socketType : ℤ
  leftover_lt : ∀ path n, (leftover path n).length < 2 ^ 32
  pread_le : ∀ path offset count bytes, pread path offset count = some bytes →
    bytes.length ≤ count

/-! ## Results -/

/-- `fattr3`. -/
structure Fattr3 where
  type : ℤ := 0
  mode : ℕ := 0
  nlink : ℕ := 0
  uid : ℕ := 0
  gid : ℕ := 0
  size : ℕ := 0
  used : ℕ := 0
  specdata1 : ℕ := 0
  specdata2 : ℕ := 0
  fsid : ℕ := 0
  fileid : ℕ := 0
  atime : Timespec := ⟨0, 0⟩
  mtime : Timespec := ⟨0, 0⟩
  ctime : Timespec := ⟨0, 0⟩
  deriving DecidableEq, Repr

/-- `post_op_attr`. -/
structure PostOpAttr where
  attributesFollow : Bool := false
  attributes : Fattr3 := {}
  deriving DecidableEq, Repr

/-- `mountres3`. -/
structure Mountres3 where
  fhsStatus : ℤ := 0
  fhandle : List UInt8 := []
  authFlavors : List ℤ := []

/-- `FSINFO3res`. -/
structure FSINFO3res where
  status : ℤ := 0
  objAttributes : PostOpAttr := {}
  rtmax : ℕ := 0
  rtpref : ℕ := 0
  rtmult : ℕ := 0
  wtmax : ℕ := 0
  wtpref : ℕ := 0
  wtmult : ℕ := 0
  dtpref : ℕ := 0
  maxfilesize : ℕ := 0
  timeDelta : Timespec := ⟨0, 0⟩
  properties : ℕ := 0

/-- `PATHCONF3res`. -/
structure PATHCONF3res where
  status : ℤ := 0
  objAttributes : PostOpAttr := {}
  linkmax : ℕ := 0
  nameMax : ℕ := 0
  noTrunc : Bool := false
  chownRestricted : Bool := false
  caseInsensitive : Bool := false
  casePreserving : Bool := false

/-- `GETATTR3res`. -/
structure GETATTR3res where
  status : ℤ := 0
  objAttributes : Fattr3 := {}

/-- `ACCESS3res`. -/
structure ACCESS3res where
  status : ℤ := 0
  objAttributes : PostOpAttr := {}
  access : ℕ := 0

/-- `entry3`, without the link to the next one. -/
structure Entry3 where
  fileid : ℕ
  name : List UInt8
  cookie : ℕ
  deriving DecidableEq, Repr

/-- `READDIR3res`. -/
structure READDIR3res where
  status : ℤ := 0
  dirAttributes : PostOpAttr := {}
  cookieverf : List UInt8 := List.replicate 8 0
  entries : List Entry3 := []
  eof : Bool := false

/-- `LOOKUP3res`. The attributes of a refusal follow if `attributesFollow` is set, which
lies on the length of the handle of a success. -/
structure LOOKUP3res where
  status : ℤ := 0
  objectLen : ℕ := 0
  objectVal : List UInt8 := []
  objAttributes : PostOpAttr := {}
  dirAttributes : PostOpAttr := {}

/-- `READ3res`. The attributes of a success and of a refusal lie on each other. -/
structure READ3res where
  status : ℤ := 0
  fileAttributes : PostOpAttr := {}
  count : ℕ := 0
  eof : Bool := false
  data : List UInt8 := []

/-- **The static results**, as zeros before the first call. -/
structure Statics where
  mnt : Mountres3 := {}
  fsinfo : FSINFO3res := {}
  pathconf : PATHCONF3res := {}
  getattr : GETATTR3res := {}
  access : ACCESS3res := {}
  readdir : READDIR3res := {}
  lookup : LOOKUP3res := {}
  read : READ3res := {}

/-! ## Tools -/

/-- The file type in a mode, as `S_ISREG` and `S_ISDIR` find it. -/
def fileType (mode : ℕ) : ℤ :=
  if mode &&& 0o170000 = 0o040000 then 2
  else if mode &&& 0o170000 = 0o100000 then 1
  else -1

/-- The attributes in what `stat` tells. -/
def attributesOf (st : Stat) : Fattr3 where
  type := fileType st.mode
  mode := st.mode
  nlink := st.nlink
  uid := st.uid
  gid := st.gid
  size := st.size
  used := st.size
  specdata1 := st.major
  specdata2 := st.minor
  fsid := st.dev
  fileid := st.ino
  atime := st.atim
  mtime := st.mtim
  ctime := st.ctim

/-- **`fill_attributes`**: the attributes are left alone if there is no such
object. -/
def fillAttributes (b : Backing) (path : List UInt8) (attributes : Fattr3) : Fattr3 :=
  match b.stat path with
  | some st => attributesOf st
  | none => attributes

/-- `attributes_follow` is set, and the attributes are filled in. -/
def followed (b : Backing) (path : List UInt8) (attr : PostOpAttr) : PostOpAttr where
  attributesFollow := true
  attributes := fillAttributes b path attr.attributes

/-- The same for a handle behind which no zero has been put. `xdr_bytes` leaves the null
pointer for an empty one, and under that `stat` finds nothing. -/
def followedBare (b : Backing) (handle : List UInt8) (attr : PostOpAttr) : PostOpAttr :=
  if handle = [] then ⟨true, attr.attributes⟩ else followed b (cstr (handle ++ b.behind)) attr

/-- `sizeof(entry3)`. -/
def sizeofEntry3 : ℕ := 32

/-- **`fill_entries_for_readdir`**: the entries, and what it says of the end. An entry keeps
the pointer to its name in the buffer of the directory, which is closed. -/
def fillEntriesForReaddir (b : Backing) (dirPath : List UInt8) : List Entry3 × Bool :=
  match b.opendir dirPath with
  | some dirents =>
    if dirents = [] ∨ b.malloc sizeofEntry3 then
      (dirents.mapIdx fun n e => ⟨e.ino, b.leftover dirPath n, e.off⟩, false)
    else ([], true)
  | none => ([], true)

/-- **`fill_READ3res_stream`**. -/
def fillREAD3resStream (b : Backing) (filePath : List UInt8) (offset : ℤ) (count : ℕ)
    (result : READ3res) : READ3res :=
  if b.open' filePath then
    if b.lseek filePath offset then
      if b.malloc count then
        match b.pread filePath offset count with
        | some [] => { result with status := nfs3Ok, count := 0, eof := true, data := [] }
        | some bytes =>
          if b.malloc bytes.length then
            { result with
              status := nfs3Ok, count := bytes.length, eof := false, data := bytes }
          else
            { result with
              status := nfs3errIo, count := bytes.length, eof := false, data := [] }
        | none => { result with status := nfs3errIo }
      else { result with status := nfs3errIo }
    else { result with status := nfs3errIo }
  else { result with status := nfs3errIo }

/-! ## Procedures -/

/-- The path in a handle, behind which a zero has been put. -/
def pathOf (handle : List UInt8) : List UInt8 := cstr handle

/-- `mountproc3_mnt_3_svc`. -/
def mountproc3Mnt3Svc (path : List UInt8) (result : Mountres3) : Mountres3 :=
  { result with fhsStatus := nfs3Ok, fhandle := cstr path, authFlavors := [1] }

/-- `nfsproc3_fsinfo_3_svc`. -/
def nfsproc3Fsinfo3Svc (b : Backing) (fsroot : List UInt8) (result : FSINFO3res) :
    FSINFO3res :=
  { result with
    status := nfs3Ok
    objAttributes := followedBare b fsroot result.objAttributes
    rtmax := if b.socketType = 1 then 524288 else 32768
    rtpref := if b.socketType = 1 then 524288 else 32768
    rtmult := 4096
    wtmax := if b.socketType = 1 then 524288 else 32768
    wtpref := if b.socketType = 1 then 524288 else 32768
    wtmult := 4096
    dtpref := 4096
    maxfilesize := 2 ^ 64 - 1
    timeDelta := ⟨1, 0⟩
    properties := 1 ||| 2 ||| 8 ||| 16 }

/-- `nfsproc3_pathconf_3_svc`. -/
def nfsproc3Pathconf3Svc (b : Backing) (object : List UInt8) (result : PATHCONF3res) :
    PATHCONF3res :=
  { result with
    status := nfs3Ok
    objAttributes := followedBare b object result.objAttributes
    linkmax := 0xFFFFFFFF
    nameMax := nfsMaxpathlen
    noTrunc := true
    chownRestricted := false
    caseInsensitive := false
    casePreserving := true }

/-- `nfsproc3_getattr_3_svc`. -/
def nfsproc3Getattr3Svc (b : Backing) (object : List UInt8) (result : GETATTR3res) :
    GETATTR3res :=
  { result with
    status := nfs3Ok
    objAttributes := fillAttributes b (pathOf object) result.objAttributes }

/-- `nfsproc3_access_3_svc`. -/
def nfsproc3Access3Svc (b : Backing) (object : List UInt8) (result : ACCESS3res) :
    ACCESS3res :=
  { result with
    status := nfs3Ok
    objAttributes := followed b (pathOf object) result.objAttributes
    access := 1 ||| 2 ||| 4 ||| 8 ||| 16 ||| 32 }

/-- `nfsproc3_readdir_3_svc`. It sets no status. -/
def nfsproc3Readdir3Svc (b : Backing) (dir : List UInt8) (result : READDIR3res) :
    READDIR3res :=
  { result with
    dirAttributes := followed b (pathOf dir) result.dirAttributes
    entries := (fillEntriesForReaddir b (pathOf dir)).1
    eof := !(fillEntriesForReaddir b (pathOf dir)).2 }

/-- The path of a name in a directory, as `nfsproc3_lookup_3_svc` puts it together. For
the empty path it looks at the byte before it. -/
def joinPath (before : UInt8) (dirPath fileName : List UInt8) : List UInt8 :=
  if dirPath.getLastD before = 47 then dirPath ++ fileName else dirPath ++ 47 :: fileName

/-- **`nfsproc3_lookup_3_svc`**. -/
def nfsproc3Lookup3Svc (b : Backing) (dir name : List UInt8) (result : LOOKUP3res) :
    LOOKUP3res :=
  match b.stat (joinPath b.before (pathOf dir) (cstr name)) with
  | some st =>
    { result with
      status := nfs3Ok
      objectLen := (joinPath b.before (pathOf dir) (cstr name)).length
      objectVal := joinPath b.before (pathOf dir) (cstr name)
      objAttributes := ⟨true, attributesOf st⟩
      dirAttributes := followed b (pathOf dir) result.dirAttributes }
  | none =>
    -- `resfail.dir_attributes.attributes_follow` lies on the length of the handle
    { result with
      status := nfs3errNoent
      objectLen := 0
      dirAttributes := followed b (pathOf dir) result.dirAttributes }

/-- `nfsproc3_read_3_svc`. The offset becomes a signed number. -/
def nfsproc3Read3Svc (b : Backing) (file : List UInt8) (offset count : ℕ) (result : READ3res) :
    READ3res :=
  fillREAD3resStream b (pathOf file) (BitVec.ofNat 64 offset).toInt count result

/-! ## Calls -/

/-- A call, with its arguments. -/
inductive Request where
  | mnt (path : List UInt8)
  | fsinfo (fsroot : List UInt8)
  | pathconf (object : List UInt8)
  | getattr (object : List UInt8)
  | access (object : List UInt8) (access : ℕ)
  | readdir (dir : List UInt8) (cookie : ℕ) (cookieverf : List UInt8) (count : ℕ)
  | lookup (dir name : List UInt8)
  | read (file : List UInt8) (offset count : ℕ)

/-- **A handle behind which a zero can be put**: it is not empty, so that `xdr_bytes` has
allocated memory for it, and that has room for one byte more. -/
def Backing.Terminates (b : Backing) (handle : List UInt8) : Prop :=
  handle ≠ [] ∧ b.room handle.length = true

/-- **The server survives a call.** A zero that cannot be put behind the handle goes through
the null pointer, or into what the allocator has written behind the block; and `LOOKUP`
copies the path to wherever `malloc` says. -/
def Request.Survived (b : Backing) : Request → Prop
  | .mnt _ | .fsinfo _ | .pathconf _ => True
  | .getattr handle | .access handle _ | .readdir handle _ _ _ | .read handle _ _ =>
    b.Terminates handle
  | .lookup dir name =>
    b.Terminates dir ∧ b.malloc ((pathOf dir).length + (cstr name).length + 2) = true

instance (b : Backing) (handle : List UInt8) : Decidable (b.Terminates handle) :=
  inferInstanceAs (Decidable (_ ∧ _))

instance (b : Backing) : (r : Request) → Decidable (r.Survived b)
  | .mnt _ | .fsinfo _ | .pathconf _ => instDecidableTrue
  | .getattr _ | .access _ _ | .readdir _ _ _ _ | .read _ _ _ =>
    inferInstanceAs (Decidable (b.Terminates _))
  | .lookup _ _ => inferInstanceAs (Decidable (_ ∧ _))

/-- **The procedure of a call**, as `mount_3` and `nfs_program_3` choose it. -/
def dispatch (b : Backing) (s : Statics) : Request → Statics
  | .mnt path => { s with mnt := mountproc3Mnt3Svc path s.mnt }
  | .fsinfo fsroot => { s with fsinfo := nfsproc3Fsinfo3Svc b fsroot s.fsinfo }
  | .pathconf object => { s with pathconf := nfsproc3Pathconf3Svc b object s.pathconf }
  | .getattr object => { s with getattr := nfsproc3Getattr3Svc b object s.getattr }
  | .access object _ => { s with access := nfsproc3Access3Svc b object s.access }
  | .readdir dir _ _ _ => { s with readdir := nfsproc3Readdir3Svc b dir s.readdir }
  | .lookup dir name => { s with lookup := nfsproc3Lookup3Svc b dir name s.lookup }
  | .read file offset count => { s with read := nfsproc3Read3Svc b file offset count s.read }

/-- **The server after some calls**, each with what stood behind it. -/
def after (history : List (Request × Backing)) : Statics :=
  history.foldl (fun s x => dispatch x.2 s x.1) {}

/-! ## Two file systems -/

/-- An object with a mode and nothing else. -/
def plain (mode : ℕ) : Stat where
  mode := mode
  nlink := 0
  uid := 0
  gid := 0
  size := 0
  major := 0
  minor := 0
  dev := 0
  ino := 0
  atim := ⟨0, 0⟩
  mtim := ⟨0, 0⟩
  ctim := ⟨0, 0⟩
  size_lt := by norm_num
  dev_lt := by norm_num
  ino_lt := by norm_num

/-- The file system without any object. The allocator is one whose blocks end eight bytes
behind a multiple of sixteen, and hold 24 bytes at least. -/
def nowhere : Backing where
  stat _ := none
  opendir _ := none
  leftover _ _ := []
  open' _ := false
  lseek _ _ := false
  pread _ _ _ := none
  malloc _ := true
  room n := n < 24 ∨ n % 16 ≠ 8
  before := 0
  behind := []
  socketType := 1
  leftover_lt _ _ := by norm_num
  pread_le := by simp

/-- A file system that finds such an object under every path. -/
def everywhere (mode : ℕ) : Backing := { nowhere with stat := fun _ => some (plain mode) }

end Nfs
