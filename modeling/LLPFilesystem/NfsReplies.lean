import LLPFilesystem.NfsCalls

/-!
# What a reply tells of earlier calls

The result of a procedure is static. `FSINFO`, `PATHCONF`, `GETATTR`, `ACCESS` and `READDIR`
answer `NFS3_OK` whether the object is found or not, and send the attributes that the
result holds; so does `LOOKUP` for the directory. If `stat` finds no object, these are
the attributes of an earlier call. Everything else that a reply shows is set anew, or never
(`Statics.Regular`). So a reply is independent of what was asked before exactly if the
object it describes is found (`replies_independent_iff`).
-/

namespace Nfs

open Codec Text Wire

variable {b : Backing} {s₁ s₂ : Statics} {r : Request} {path packet rest : List UInt8}
  {p : Procedure} {x : p.Args} {mode : ℕ}

/-! ## Replies that are set anew -/

/-- The object that a reply describes is found. Nothing is found for an empty handle without
a zero behind it. For `LOOKUP` it is the directory, if the name is found in it and the reply
can be encoded. -/
def Request.Found (b : Backing) : Request → Prop
  | .mnt _ | .read _ _ _ => True
  | .fsinfo handle | .pathconf handle =>
    handle ≠ [] ∧ (b.stat (cstr (handle ++ b.behind))).isSome
  | .getattr handle | .access handle _ | .readdir handle _ _ _ =>
    (b.stat (pathOf handle)).isSome
  | .lookup dir name =>
    ∀ st, b.stat (joinPath b.before (pathOf dir) (cstr name)) = some st →
      (joinPath b.before (pathOf dir) (cstr name)).length ≤ nfs3Fhsize →
      (attributesOf st).Fits → (b.stat (pathOf dir)).isSome

namespace Procedure

/-- The attributes in a result: those of the object, and for `LOOKUP` of the directory. -/
def attributes : (p : Procedure) → p.Result → Option Fattr3
  | mnt, _ => none
  | fsinfo, .taken r => r.objAttributes
  | fsinfo, .other _ _ a => a
  | pathconf, .taken r => r.objAttributes
  | pathconf, .other _ _ a => a
  | getattr, .taken a => some a
  | getattr, .other _ _ _ => none
  | access, .taken r => r.objAttributes
  | access, .other _ _ a => a
  | readdir, .taken r => r.dirAttributes
  | readdir, .other _ _ a => a
  | lookup, .taken r => r.dirAttributes
  | lookup, .other _ _ a => a
  | read, .taken r => r.fileAttributes
  | read, .other _ _ a => a

end Procedure

end Nfs
