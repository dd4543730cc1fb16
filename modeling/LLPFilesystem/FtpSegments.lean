import LLPFilesystem.FtpDirectories
import LLPFilesystem.FtpSession

/-!
# Segments are not lines

`handle_ftp_commands` takes what one `recv` delivers for one command line. What a
session does is determined by the commands at the starts of the segments
(`heard`), up to the first that ends it, and a cut of some lines is handled like
the lines themselves exactly if the same commands are heard
(`segmentation_iff`). No line at all survives every cut: the first one can always be
cut so that an unknown command is heard too many.
-/

namespace Ftp

open Text

variable {φ ι : Type} {k : Posix φ ι} {a : Answers} {answers : ℕ → Answers}
  {s t : Session φ ι} {p : Process φ ι} {c : Command} {r l : List UInt8}
  {segments lines : List (List UInt8)} {broken : Bool} {status : Status}

/-! ## What is heard -/

/-- What a segment is heard as. -/
inductive Heard where
  /-- No zero ends it. -/
  | overrun
  /-- An empty string, which ends the session. -/
  | silence
  | command (c : Command)
  deriving DecidableEq, Repr

/-- **What a segment is heard as**: the command at its start. -/
def hear (received : List UInt8) : Heard :=
  if bufferSize ≤ received.length ∧ 0 ∉ received then .overrun
  else if cstr received = [] then .silence
  else .command (commandOf received)

/-- **The commands that are heard**, up to the first segment that ends the session,
and whether that one runs into undefined behaviour: no zero ends it, or its word
does not fit. -/
def heard : List (List UInt8) → List Command × Bool
  | [] => ([], false)
  | received :: rest =>
    match hear received with
    | .overrun => ([], true)
    | .silence => ([], false)
    | .command c =>
      if c.Fits then if c = .quit then ([c], false) else (c :: (heard rest).1, (heard rest).2)
      else ([c], true)

/-- A turn of the loop, by what is heard. -/
theorem step_eq (k : Posix φ ι) (a : Answers) (s : Session φ ι) (r : List UInt8) :
    step k a s r = match hear r with
      | .overrun => (s, .undefined)
      | .silence => (s, .lost)
      | .command c =>
        if c.Fits then execute k a (s.log c) c else (s.log c, .undefined) := by
  unfold step hear
  split
  · rfl
  · split
    · rfl
    · rfl

/-! ## What a session does is what is heard -/

/-- **The commands of a session, one after the other**, and what comes of them; a
set flag means undefined behaviour behind them. -/
def perform (k : Posix φ ι) (answers : ℕ → Answers) (s : Session φ ι) :
    List Command → Bool → Session φ ι × Bool
  | [], undefined => (s, undefined)
  | c :: cs, undefined =>
    if c.Fits then
      match execute k (answers 0) (s.log c) c with
      | (t, .going) => perform k (fun n => answers (n + 1)) t cs undefined
      | (t, status) => (t, status.isUndefined)
    else (s.log c, true)

/-- What is seen of a session: the commands it has executed, the replies it has
sent, and whether its behaviour was undefined. -/
def seen (o : Session φ ι × Status) : List Command × List (List UInt8) × Bool :=
  (o.1.commands, o.1.replies, o.2.isUndefined)

/-- The loop performs what is heard. -/
theorem loop_eq_perform (k : Posix φ ι) (answers : ℕ → Answers) (s : Session φ ι)
    (segments : List (List UInt8)) :
    ((loop k answers s segments).1, (loop k answers s segments).2.isUndefined)
      = perform k answers s (heard segments).1 (heard segments).2 := by
  induction segments generalizing answers s with
  | nil => rfl
  | cons r rest ih =>
    rw [loop, step_eq, heard]
    cases hr : hear r with
    | overrun => rfl
    | silence => rfl
    | command c =>
      dsimp only
      by_cases hfits : c.Fits
      · rw [if_pos hfits, if_pos hfits]
        cases hrun : execute k (answers 0) (s.log c) c with
        | mk t status =>
          rcases execute_status hrun with hdead | ⟨rfl, hc⟩ | ⟨rfl, rfl, -⟩
          · have hstop := Status.outlived_eq_false.mp hdead
            by_cases hc : c = .quit
            · rw [if_pos hc, perform, if_pos hfits, hrun]
              rcases hstop with rfl | rfl
              · rfl
              · rfl
            · rw [if_neg hc, perform, if_pos hfits, hrun]
              rcases hstop with rfl | rfl
              · rfl
              · rfl
          · rw [if_neg hc, perform, if_pos hfits, hrun]
            exact ih _ t
          · rw [if_pos rfl, perform, if_pos hfits, hrun]
      · rw [if_neg hfits, if_neg hfits, perform, if_neg hfits]
        rfl

/-- What is seen of `handle_ftp_commands` is what is seen of its loop. -/
theorem seen_handleFtpCommands :
    seen (handleFtpCommands k answers p segments broken)
      = seen (loop k answers (start p) segments) := by
  unfold handleFtpCommands
  split
  · next t heq =>
    rw [heq]
    unfold seen
    cases broken with
    | true => rfl
    | false => rfl
  · next t status _ heq => rw [heq]

/-- A session is seen by what is heard. -/
theorem seen_of_heard (h : heard segments = heard lines) :
    seen (handleFtpCommands k answers p segments broken)
      = seen (handleFtpCommands k answers p lines broken) := by
  have hsame : ((loop k answers (start p) segments).1,
        (loop k answers (start p) segments).2.isUndefined)
      = ((loop k answers (start p) lines).1,
        (loop k answers (start p) lines).2.isUndefined) := by
    rw [loop_eq_perform, loop_eq_perform, h]
  rw [seen_handleFtpCommands, seen_handleFtpCommands]
  unfold seen
  rw [(Prod.mk.inj hsame).1, (Prod.mk.inj hsame).2]

/-- The kernel that grants nothing. -/
def refusing : Answers where
  socket _ := false
  bind := false
  listen := false
  getsockname := false
  ip := []
  port := 0
  accept _ := false
  fopen _ := false
  opendir _ := false
  incoming := []
  fwrite _ := 0
  flush _ := 0
  write _ := 0
  fclose := 0
  fread _ := 0
  send _ := some 0

/-- **Under the kernel that grants nothing**, a session shows what it hears. -/
theorem heard_eq_seen (k : Posix φ ι) (s : Session φ ι) (segments : List (List UInt8)) :
    (loop k (fun _ => refusing) s segments).1.commands = s.commands ++ (heard segments).1
    ∧ (loop k (fun _ => refusing) s segments).2.isUndefined = (heard segments).2 := by
  induction segments generalizing s with
  | nil => exact ⟨(List.append_nil _).symm, rfl⟩
  | cons r rest ih =>
    rw [loop, step_eq, heard]
    cases hr : hear r with
    | overrun => exact ⟨(List.append_nil _).symm, rfl⟩
    | silence => exact ⟨(List.append_nil _).symm, rfl⟩
    | command c =>
      dsimp only
      by_cases hfits : c.Fits
      · rw [if_pos hfits, if_pos hfits]
        obtain ⟨hcommands, hdefined⟩ :=
          execute_of_refused (k := k) (s := s.log c) (c := c) (a := refusing) (fun _ => rfl)
        cases hrun : execute k refusing (s.log c) c with
        | mk t status =>
          rw [hrun] at hcommands hdefined
          rcases execute_status hrun with hdead | ⟨rfl, hc⟩ | ⟨rfl, rfl, -⟩
          · exact absurd (hdead.symm.trans hdefined) (by decide)
          · obtain ⟨htail, hflag⟩ := ih t
            rw [if_neg hc]
            refine ⟨?_, hflag⟩
            show (loop k (fun _ => refusing) t rest).1.commands = _
            rw [htail, show t.commands = s.commands ++ [c] from hcommands,
              List.append_assoc, List.singleton_append]
          · rw [if_pos rfl]
            exact ⟨hcommands, rfl⟩
      · rw [if_neg hfits, if_neg hfits]
        exact ⟨rfl, rfl⟩

/-! ## Lines and their cuts -/

/-- A command line: it ends with `CRLF`, holds no other line feed, and is shorter
than the buffer. -/
def IsLine (line : List UInt8) : Prop :=
  ∃ body, line = body ++ [13, 10] ∧ 10 ∉ body ∧ line.length < bufferSize

/-- **A cut** of some lines into what `recv` delivers: one byte at least, and no
more than the buffer holds. -/
structure IsCut (segments lines : List (List UInt8)) : Prop where
  flatten : segments.flatten = lines.flatten
  pieces : ∀ r ∈ segments, r ≠ [] ∧ r.length ≤ bufferSize

/-- **A cut makes no difference**: whatever the kernel answers, the session shows
what it shows if `recv` delivers line by line. -/
def Unaffected (k : Posix φ ι) (p : Process φ ι) (broken : Bool)
    (segments lines : List (List UInt8)) : Prop :=
  ∀ answers, seen (handleFtpCommands k answers p segments broken)
    = seen (handleFtpCommands k answers p lines broken)

/-- A cut makes no difference exactly if the same commands are heard. -/
theorem unaffected_iff :
    Unaffected k p broken segments lines ↔ heard segments = heard lines := by
  refine ⟨fun h => ?_, fun h answers => seen_of_heard h⟩
  have hseen := h fun _ => refusing
  rw [seen_handleFtpCommands, seen_handleFtpCommands] at hseen
  obtain ⟨hcommands, hreplies⟩ := Prod.mk.inj hseen
  obtain ⟨hsegs, hsegs'⟩ := heard_eq_seen k (start p) segments
  obtain ⟨hlines, hlines'⟩ := heard_eq_seen k (start p) lines
  refine Prod.ext ?_ ?_
  · have hlist : (start p).commands ++ (heard segments).1
        = (start p).commands ++ (heard lines).1 := hsegs.symm.trans (hcommands.trans hlines)
    exact List.append_cancel_left hlist
  · exact hsegs'.symm.trans ((Prod.mk.inj hreplies).2.trans hlines')

/-! ## Every first line can be cut badly -/

theorem hear_of_head_ne (hr : r.length < bufferSize) (h0 : r ≠ []) (h : r.head? ≠ some 0) :
    hear r = .command (commandOf r) := by
  have hcstr : cstr r ≠ [] := fun hnil => (cstr_eq_nil.mp hnil).elim h0 h
  unfold hear
  rw [if_neg (fun hc => absurd hr (Nat.not_lt_of_le hc.1)), if_neg hcstr]

/-- A segment that starts with a zero ends the session. -/
theorem hear_of_head (h : r.head? = some 0) : hear r = .silence := by
  have hmem : (0 : UInt8) ∈ r := List.mem_of_mem_head? h
  unfold hear
  rw [if_neg (fun hc => hc.2 hmem), if_pos (cstr_eq_nil.mpr (.inr h))]

/-- The verbs, in the order they are tried. -/
def verbs : List String :=
  ["PORT", "PASV", "STOR", "RETR", "EPSV", "LIST", "TYPE", "USER", "PASS", "CWD", "CDUP",
    "RMD", "MKD", "PWD", "QUIT"]

/-- A command is unknown if it starts with none of the verbs. -/
theorem commandOf_eq_unknown :
    commandOf r = .unknown ↔ ∀ verb ∈ verbs, startsWith r verb = false := by
  have hstep : ∀ {verb : String} {vs : List String} {x y : Command}, x ≠ .unknown →
      (y = .unknown ↔ ∀ v ∈ vs, startsWith r v = false) →
      ((if startsWith r verb then x else y) = .unknown
        ↔ ∀ v ∈ verb :: vs, startsWith r v = false) := by
    intro verb vs x y hx hy
    rw [List.forall_mem_cons, ← hy]
    cases hv : startsWith r verb with
    | true => exact ⟨fun h => absurd h hx, fun h => absurd h.1 (by decide)⟩
    | false => exact ⟨fun h => ⟨rfl, h⟩, fun h => h.2⟩
  unfold commandOf verbs
  iterate 15 refine hstep nofun ?_
  exact ⟨fun _ _ hv => absurd hv List.not_mem_nil, fun _ => rfl⟩

/-- A single byte is no command. -/
theorem commandOf_singleton (b : UInt8) : commandOf [b] = .unknown := by
  have hlong : ∀ verb ∈ verbs, 1 < (ascii verb).length := by decide
  exact commandOf_eq_unknown.mpr fun verb hv => startsWith_of_length_lt (hlong verb hv)

/-- The line feed of a line does not decide whether its command is known. -/
theorem commandOf_concat :
    commandOf (l ++ [10]) = .unknown ↔ commandOf l = .unknown := by
  have hverbs : ∀ verb ∈ verbs, (10 : UInt8) ∉ ascii verb := by decide
  rw [commandOf_eq_unknown, commandOf_eq_unknown]
  exact forall₂_congr fun verb hv => by rw [startsWith_concat (hverbs verb hv)]

/-- A command that is not known is not executed for long. -/
theorem heard_unknown {rest : List (List UInt8)} (h : hear r = .command .unknown) :
    heard (r :: rest) = (.unknown :: (heard rest).1, (heard rest).2) := by
  rw [heard, h]
  dsimp only
  rw [if_pos (by decide), if_neg (by decide)]

/-- The first command that is heard. -/
theorem head_heard {rest : List (List UInt8)} (h : hear r = .command c) :
    (heard (r :: rest)).1.head? = some c := by
  rw [heard, h]
  dsimp only
  split
  · split
    · rfl
    · rfl
  · rfl

/-- Lines are pieces as they are. -/
theorem IsLine.piece (h : IsLine l) : l ≠ [] ∧ l.length ≤ bufferSize := by
  obtain ⟨body, rfl, -, hlt⟩ := h
  exact ⟨List.append_ne_nil_of_right_ne_nil _ (List.cons_ne_nil _ _), Nat.le_of_lt hlt⟩

/-- An unknown command, with the line feed cut off: two unknown commands. -/
theorem exists_bad_cut_of_unknown (hlen : (l ++ [10]).length < bufferSize) (hl : l ≠ [])
    (h : (l ++ [10]).head? ≠ some 0) (hunknown : commandOf (l ++ [10]) = .unknown)
    (hlines : ∀ r ∈ lines, IsLine r) :
    ∃ segments, IsCut segments ((l ++ [10]) :: lines)
      ∧ heard segments ≠ heard ((l ++ [10]) :: lines) := by
  have hlen' : l.length < bufferSize := by
    rw [List.length_append] at hlen
    exact Nat.lt_of_le_of_lt (Nat.le_add_right _ _) hlen
  have hhead : l.head? ≠ some 0 := fun h0 => h (by
    rw [List.head?_append, h0]
    rfl)
  have hfirst : hear l = .command .unknown := by
    rw [hear_of_head_ne hlen' hl hhead, commandOf_concat.mp hunknown]
  have hsecond : hear [10] = .command .unknown := by decide
  have hall : hear (l ++ [10]) = .command .unknown := by
    rw [hear_of_head_ne hlen (List.append_ne_nil_of_left_ne_nil hl _) h, hunknown]
  refine ⟨l :: [10] :: lines, ⟨?_, ?_⟩, fun heq => ?_⟩
  · rw [List.flatten_cons, List.flatten_cons, List.flatten_cons, List.append_assoc]
  · rintro r (_ | ⟨_, _ | ⟨_, hr⟩⟩)
    · exact ⟨hl, Nat.le_of_lt hlen'⟩
    · exact ⟨List.cons_ne_nil _ _, by decide⟩
    · exact (hlines r hr).piece
  · rw [heard_unknown hfirst, heard_unknown hsecond, heard_unknown hall] at heq
    have hlength := congrArg List.length (Prod.mk.inj heq).1
    exact absurd hlength (Nat.succ_ne_self _)

/-- A known command, with its first byte cut off: an unknown command comes first. -/
theorem exists_bad_cut_of_known {b : UInt8} (hlen : (b :: l).length < bufferSize)
    (hl : l ≠ []) (h : (b :: l).head? ≠ some 0) (hknown : commandOf (b :: l) ≠ .unknown)
    (hlines : ∀ r ∈ lines, IsLine r) :
    ∃ segments, IsCut segments ((b :: l) :: lines)
      ∧ heard segments ≠ heard ((b :: l) :: lines) := by
  have hone : [b].length < bufferSize := by
    show 1 < bufferSize
    decide
  have hfirst : hear [b] = .command .unknown := by
    rw [hear_of_head_ne hone (List.cons_ne_nil _ _) h, commandOf_singleton]
  refine ⟨[b] :: l :: lines, ⟨?_, ?_⟩, fun heq => ?_⟩
  · rw [List.flatten_cons, List.flatten_cons, List.flatten_cons]
    rfl
  · rintro r (_ | ⟨_, _ | ⟨_, hr⟩⟩)
    · exact ⟨List.cons_ne_nil _ _, Nat.le_of_lt hone⟩
    · exact ⟨hl, Nat.le_of_lt (Nat.lt_trans (Nat.lt_succ_self _) hlen)⟩
    · exact (hlines r hr).piece
  · have hhead : (heard ((b :: l) :: lines)).1.head? = some _ :=
      head_heard (hear_of_head_ne hlen (List.cons_ne_nil _ _) h)
    rw [← heq, head_heard hfirst] at hhead
    exact hknown (Option.some.inj hhead).symm

/-- **The first line can be cut badly**, unless it starts with a zero. -/
theorem exists_bad_cut (hline : IsLine l) (h : l.head? ≠ some 0)
    (hlines : ∀ r ∈ lines, IsLine r) :
    ∃ segments, IsCut segments (l :: lines) ∧ heard segments ≠ heard (l :: lines) := by
  obtain ⟨body, rfl, -, hlen⟩ := hline
  by_cases hunknown : commandOf (body ++ [13, 10]) = .unknown
  · have hsplit : body ++ [13, 10] = (body ++ [13]) ++ [10] := by
      rw [List.append_assoc]
      rfl
    rw [hsplit] at hlen h hunknown ⊢
    exact exists_bad_cut_of_unknown hlen
      (List.append_ne_nil_of_right_ne_nil _ (List.cons_ne_nil _ _)) h hunknown hlines
  · cases body with
    | nil =>
      exact exists_bad_cut_of_known hlen (List.cons_ne_nil _ _) h hunknown hlines
    | cons b body =>
      exact exists_bad_cut_of_known hlen
        (List.append_ne_nil_of_right_ne_nil _ (List.cons_ne_nil _ _)) h hunknown hlines

/-- **When cutting lines makes no difference.** A cut of some lines is handled like
the lines themselves exactly if the same commands are heard, with the same words,
up to the one that ends the session. Every cut of the lines is, only if there is no
line or the first one starts with a zero, which ends the session. -/
theorem segmentation_iff (k : Posix φ ι) (p : Process φ ι) (broken : Bool)
    (hlines : ∀ l ∈ lines, IsLine l) :
    (∀ segments, IsCut segments lines →
      (Unaffected k p broken segments lines ↔ heard segments = heard lines))
    ∧ ((∀ segments, IsCut segments lines → Unaffected k p broken segments lines)
      ↔ lines = [] ∨ lines.flatten.head? = some 0) := by
  refine ⟨fun segments _ => unaffected_iff, fun h => ?_, ?_⟩
  · cases lines with
    | nil => exact .inl rfl
    | cons l lines =>
      refine .inr (by_contra fun h0 => ?_)
      have hline := hlines l List.mem_cons_self
      have hhead : l.head? ≠ some 0 := fun hl => h0 (by
        rw [List.flatten_cons, List.head?_append, hl]
        rfl)
      obtain ⟨segments, hcut, hne⟩ := exists_bad_cut hline hhead
        fun l' hl' => hlines l' (List.mem_cons_of_mem _ hl')
      exact hne (unaffected_iff.mp (h segments hcut))
  · rintro (rfl | h0) segments hcut
    · have hnil : segments = [] := by
        refine List.eq_nil_iff_forall_not_mem.mpr fun r hr => (hcut.pieces r hr).1 ?_
        exact List.flatten_eq_nil_iff.mp hcut.flatten r hr
      rw [hnil]
      exact fun _ => rfl
    · -- both hear nothing
      have hsilent : ∀ rs : List (List UInt8), (∀ r ∈ rs, r ≠ []) →
          rs.flatten.head? = some 0 → heard rs = ([], false) := by
        intro rs hne hhead
        cases rs with
        | nil => exact absurd hhead.symm (Option.some_ne_none _)
        | cons r rs =>
          obtain ⟨b, r, rfl⟩ := List.exists_cons_of_ne_nil (hne _ List.mem_cons_self)
          have hb : (b :: r).head? = some 0 := hhead
          rw [heard, hear_of_head hb]
      have hnonempty : ∀ l ∈ lines, l ≠ [] := fun l hl => by
        obtain ⟨body, rfl, -⟩ := hlines l hl
        exact List.append_ne_nil_of_right_ne_nil _ (List.cons_ne_nil _ _)
      refine unaffected_iff.mpr ?_
      rw [hsilent segments (fun r hr => (hcut.pieces r hr).1) (by rw [hcut.flatten]; exact h0),
        hsilent lines hnonempty h0]

/-- A line that leaves the session. -/
theorem isLine_quit : ∀ l ∈ [ascii "QUIT\r\n"], IsLine l := by
  refine List.forall_mem_singleton.mpr ⟨ascii "QUIT", rfl, ?_, ?_⟩
  · decide
  · decide

theorem segmentation_iff_quit :
    (∀ segments, IsCut segments [ascii "QUIT\r\n"] →
      (Unaffected directories freshServer false segments [ascii "QUIT\r\n"]
        ↔ heard segments = heard [ascii "QUIT\r\n"]))
    ∧ ((∀ segments, IsCut segments [ascii "QUIT\r\n"] →
        Unaffected directories freshServer false segments [ascii "QUIT\r\n"])
      ↔ [ascii "QUIT\r\n"] = [] ∨ [ascii "QUIT\r\n"].flatten.head? = some 0) :=
  segmentation_iff directories freshServer false isLine_quit

/-- **A verb that is cut.** The line `PWD` in two segments is answered twice, and by
neither answer with the working directory. -/
theorem pwd_cut :
    (∀ l ∈ [ascii "PWD\r\n"], IsLine l)
    ∧ IsCut [ascii "P", ascii "WD\r\n"] [ascii "PWD\r\n"]
    ∧ (handleFtpCommands directories (fun _ => refusing) freshServer
        [ascii "PWD\r\n"] false).1.replies
      = [ascii "220 Welcome to FTP server\r\n",
          ascii "257 \"/srv\" is the current directory\r\n"]
    ∧ (handleFtpCommands directories (fun _ => refusing) freshServer
        [ascii "P", ascii "WD\r\n"] false).1.replies
      = [ascii "220 Welcome to FTP server\r\n", ascii "500 Unknown command\r\n",
          ascii "500 Unknown command\r\n"]
    ∧ ¬ Unaffected directories freshServer false [ascii "P", ascii "WD\r\n"]
        [ascii "PWD\r\n"] := by
  refine ⟨?_, ⟨by decide, by decide⟩, by decide, by decide, fun h => ?_⟩
  · exact List.forall_mem_singleton.mpr ⟨ascii "PWD", rfl, by decide, by decide⟩
  · exact absurd (unaffected_iff.mp h) (by decide)

end Ftp
