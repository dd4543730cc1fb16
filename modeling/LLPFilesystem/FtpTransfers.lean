import LLPFilesystem.FtpDirectories
import LLPFilesystem.FtpSession
import LLPFilesystem.Pieces

/-!
# What a transfer has moved

`receive_file` and `send_file` return nothing, so `STOR` and `RETR` cannot know whether
the file was opened, whether receiving or reading failed, and whether all bytes were
written or sent. They reply 226 in every case, unless the server is killed. What they
have moved is known here: of the chunks that are received, what comes through the buffer
of the file (`read_receiveLoop`), and of each piece that is read, the part that `send`
took (`sent_sendLoop`). So a 226 is the truth exactly if the file could be opened,
nothing failed, and nothing was lost (`transfers_reported_iff`).
-/

namespace Ftp

open Text Pieces

variable {φ ι : Type} {k : Posix φ ι} {a : Answers} {s t : Session φ ι} {f g : φ} {i j : ι}
  {filename bytes more content : List UInt8} {incoming : List (Option (List UInt8))}
  {buffered : List UInt8} {n : ℕ} {done : Prop}

/-- **Files as they should be**: a file that has been created is empty, appended bytes
stand behind those that were there, other files are left alone, and paths lead where
they led. -/
structure Posix.Files (k : Posix φ ι) : Prop where
  read_create : ∀ {f g i}, k.create f i = some g → k.read g i = some []
  read_append : ∀ {f i bytes more}, k.read f i = some bytes →
    k.read (k.append f i more) i = some (bytes ++ more)
  read_create_of_ne : ∀ {f g i j}, k.create f i = some g → j ≠ i → k.read g j = k.read f j
  read_append_of_ne : ∀ {f i j more}, j ≠ i → k.read (k.append f i more) j = k.read f j
  locate_create : ∀ {f g i j d path}, k.create f i = some g → k.locate f d path = some j →
    k.locate g d path = some j
  locate_append : ∀ {f i more d path},
    k.locate (k.append f i more) d path = k.locate f d path

/-! ## What the calls deliver -/

/-- The chunks that are received, up to the end of the connection or an error. -/
def chunks : List (Option (List UInt8)) → List (List UInt8)
  | some (b :: bytes) :: rest => (b :: bytes) :: chunks rest
  | _ => []

/-- Receiving comes to the end of the connection, not to an error. -/
def orderly : List (Option (List UInt8)) → Bool
  | some (_ :: _) :: rest => orderly rest
  | none :: _ => false
  | _ => true

/-- A connection on the data socket is accepted. -/
def Accepts (a : Answers) (s : Session φ ι) : Prop :=
  ∃ d, s.dataSocket = some d ∧ d ∈ s.listening ∧ a.accept s.fds = true

/-- The descriptors during a transfer. -/
def Session.busy (s : Session φ ι) : Finset ℕ := insert (lowest s.fds) s.fds

/-- The buffer of a file that is written. -/
def Answers.buffer (a : Answers) : Buffer := ⟨a.fwrite, a.flush, a.write, a.fclose⟩

/-- How much the `n`-th `fread` of `send_file` delivers, where so much is left. -/
def Answers.delivers (a : Answers) (n : ℕ) : ℕ := min bufferSize (a.fread n)

/-- **A `STOR` loses nothing**: the file can be opened, receiving comes to the end of the
connection, each chunk is taken whole by `fwrite`, and whatever is flushed from the
buffer of the file is written, by `fclose` too. -/
def StoresAll (k : Posix φ ι) (filename : List UInt8) (a : Answers) (s : Session φ ι) : Prop :=
  ∃ i, k.locate s.files s.cwd filename = some i ∧ a.fopen s.busy = true
    ∧ (k.create s.files i).isSome ∧ orderly a.incoming = true
    ∧ a.buffer.Whole 0 [] (chunks a.incoming)

/-- **A `RETR` loses nothing**: the file can be opened and is not a directory, `fread`
delivers nothing only when it has delivered all of it, and each piece is sent whole. -/
def SendsAll (k : Posix φ ι) (filename : List UInt8) (a : Answers) (s : Session φ ι) : Prop :=
  ∃ i content, k.locate s.files s.cwd filename = some i ∧ a.fopen s.busy = true
    ∧ k.opens s.files i = true ∧ k.read s.files i = some content
    ∧ (∀ n, a.delivers n = 0 → content.length ≤ (Finset.range n).sum a.delivers)
    ∧ ∀ n piece, (cut a.delivers (content.length + 1) 0 content)[n]? = some piece →
      ∃ q, a.send n = some q ∧ piece.length ≤ q

/-! ## What is reported -/

/-- The replies that have been added. -/
def newReplies (s t : Session φ ι) : List (List UInt8) := t.replies.drop s.replies.length

/-- What has been put on the data connection. -/
def newlySent (s t : Session φ ι) : List UInt8 := (t.sent.drop s.sent.length).flatten

/-- The reply 226. -/
def transferComplete : List UInt8 := ascii "226 File transfer complete.\r\n"

/-- A reply with a code from 400 on. -/
def IsRefusal (reply : List UInt8) : Prop := reply.head? = some 52 ∨ reply.head? = some 53

/-- **The replies tell whether something is done**: 226 only if it is, and a refusal if
it is not. -/
def Reports (done : Prop) (s t : Session φ ι) : Prop :=
  (transferComplete ∈ newReplies s t → done) ∧ (¬ done → ∃ r ∈ newReplies s t, IsRefusal r)

/-- **The bytes stored are the whole sequence received**, up to the end of the
connection, in a file that was opened for them. -/
def Stored (k : Posix φ ι) (filename : List UInt8) (a : Answers) (s t : Session φ ι) : Prop :=
  orderly a.incoming = true ∧ ∃ i, k.locate s.files s.cwd filename = some i
    ∧ a.fopen s.busy = true ∧ (k.create s.files i).isSome
    ∧ k.read t.files i = some (chunks a.incoming).flatten

/-- **The bytes put on the data connection are the whole file**, which was opened. -/
def Sent (k : Posix φ ι) (filename : List UInt8) (a : Answers) (s t : Session φ ι) : Prop :=
  ∃ i content, k.locate s.files s.cwd filename = some i ∧ a.fopen s.busy = true
    ∧ k.opens s.files i = true ∧ k.read s.files i = some content ∧ newlySent s t = content

/-! ## The loops -/

/-- **The loop of `receive_file`** leaves in the file what comes through its buffer. -/
theorem read_receiveLoop (hk : k.Files) (h : k.read f i = some bytes) :
    k.read (receiveLoop k a i n buffered incoming f) i
      = some (bytes ++ a.buffer.moved n buffered (chunks incoming)) := by
  induction incoming generalizing n buffered f bytes with
  | nil => exact hk.read_append h
  | cons chunk rest ih =>
    match chunk with
    | some (b :: chunk) =>
      rw [receiveLoop, chunks, Buffer.moved, ← List.append_assoc]
      exact ih (hk.read_append h)
    | some [] | none => exact hk.read_append h

/-- The loop of `receive_file` leaves the other files alone. -/
theorem read_receiveLoop_of_ne (hk : k.Files) (h : j ≠ i) :
    k.read (receiveLoop k a i n buffered incoming f) j = k.read f j := by
  induction incoming generalizing n buffered f with
  | nil => exact hk.read_append_of_ne h
  | cons chunk rest ih =>
    match chunk with
    | some (b :: chunk) =>
      rw [receiveLoop]
      exact ih.trans (hk.read_append_of_ne h)
    | some [] | none => exact hk.read_append_of_ne h

/-- Paths lead where they led. -/
theorem locate_receiveLoop (hk : k.Files) {d : ι} {path : List UInt8} :
    k.locate (receiveLoop k a i n buffered incoming f) d path = k.locate f d path := by
  induction incoming generalizing n buffered f with
  | nil => exact hk.locate_append
  | cons chunk rest ih =>
    match chunk with
    | some (b :: chunk) =>
      rw [receiveLoop]
      exact ih.trans hk.locate_append
    | some [] | none => exact hk.locate_append

/-- **The loop of `send_file`** puts on the data connection what `send` took of each
piece, and does nothing else. -/
theorem sent_sendLoop (a : Answers) (fuel n : ℕ) (bytes : List UInt8) (s : Session φ ι) :
    ∃ puts, (sendLoop a fuel n bytes s).1 = { s with sent := s.sent ++ puts }
      ∧ puts.flatten = moved a.send n (cut a.delivers fuel n bytes) := by
  induction fuel generalizing n bytes s with
  | zero => exact ⟨[], by rw [sendLoop, List.append_nil], rfl⟩
  | succ fuel ih =>
    rw [sendLoop, cut]
    rw [← show a.delivers n = min bufferSize (a.fread n) from rfl]
    split
    · exact ⟨[], by rw [List.append_nil], rfl⟩
    · cases hsend : a.send n with
      | none =>
        rw [moved_cons_none hsend]
        exact ⟨[], by rw [List.append_nil], rfl⟩
      | some m =>
        obtain ⟨puts, hloop, hflat⟩ := ih (n + 1) (bytes.drop (a.delivers n))
          (s.put ((bytes.take (a.delivers n)).take m))
        refine ⟨(bytes.take (a.delivers n)).take m :: puts, hloop.trans ?_, ?_⟩
        · show ({ s with sent := s.sent ++ [(bytes.take (a.delivers n)).take m] ++ puts }
            : Session φ ι) = _
          rw [List.append_assoc]
          rfl
        · rw [List.flatten_cons, hflat, moved_cons_some hsend]

/-! ## The files -/

/-- **What `receive_file` stores**, if the file can be opened. -/
theorem receiveFile_opened (hi : k.locate s.files s.cwd filename = some i)
    (hfopen : a.fopen s.fds = true) (hg : k.create s.files i = some g) :
    (receiveFile k filename a s).files = receiveLoop k a i 0 [] a.incoming g := by
  unfold receiveFile
  rw [hi]
  dsimp only
  rw [if_pos hfopen, hg]

theorem replies_receiveFile : (receiveFile k filename a s).replies = s.replies := by
  unfold receiveFile
  split
  · split
    · split
      · rfl
      · rfl
    · rfl
  · rfl

/-- **What `send_file` sends**, if the file can be opened. -/
theorem sent_sendFile (hi : k.locate s.files s.cwd filename = some i)
    (hfopen : a.fopen s.fds = true) (hopens : k.opens s.files i = true)
    (hread : k.read s.files i = some content) :
    ∃ puts, (sendFile k filename a s).1.sent = s.sent ++ puts
      ∧ puts.flatten = moved a.send 0 (cut a.delivers (content.length + 1) 0 content) := by
  obtain ⟨puts, hloop, hflat⟩ := sent_sendLoop a (content.length + 1) 0 content (s.touch i)
  refine ⟨puts, ?_, hflat⟩
  unfold sendFile
  rw [hi]
  dsimp only
  rw [if_pos ⟨hfopen, hopens⟩, hread]
  dsimp only
  rw [hloop]
  rfl

/-- `send_file` leaves the files, and says nothing. -/
theorem sendFile_leaves (k : Posix φ ι) (filename : List UInt8) (a : Answers)
    (s : Session φ ι) :
    (sendFile k filename a s).1.files = s.files
      ∧ (sendFile k filename a s).1.replies = s.replies := by
  unfold sendFile
  split
  · split
    · split
      · next content _ =>
        obtain ⟨puts, hloop, -⟩ := sent_sendLoop a (content.length + 1) 0 content (s.touch _)
        rw [hloop]
        exact ⟨rfl, rfl⟩
      · exact ⟨rfl, rfl⟩
    · exact ⟨rfl, rfl⟩
  · exact ⟨rfl, rfl⟩

/-! ## A transfer -/

/-- Closing the data socket leaves the files and what has been said. -/
theorem closeDataSocket_eq :
    s.closeDataSocket.files = s.files ∧ s.closeDataSocket.replies = s.replies
      ∧ s.closeDataSocket.sent = s.sent := by
  unfold Session.closeDataSocket
  split
  · exact ⟨rfl, rfl, rfl⟩
  · exact ⟨rfl, rfl, rfl⟩

/-- **A transfer whose connection is accepted** ends as its use of the connection does,
and has the closing reply behind it if the session goes on. -/
theorem transfer_accepted (opening closing : String) (use : Session φ ι → Session φ ι × Status)
    (h : Accepts a s) :
    let o := use ((s.opened (lowest s.fds)).reply (ascii opening))
    let t := transfer opening closing use a s
    t.2 = o.2 ∧ t.1.files = o.1.files ∧ t.1.sent = o.1.sent
      ∧ t.1.replies = o.1.replies ++ if o.2 = .going then [ascii closing] else [] := by
  intro o t
  obtain ⟨d, hd, hmem, haccept⟩ := h
  have hconn : acceptPassiveConnection a s = (some (lowest s.fds), s.opened (lowest s.fds)) := by
    unfold acceptPassiveConnection
    rw [hd]
    exact if_pos ⟨hmem, haccept⟩
  have ho : o = use ((s.opened (lowest s.fds)).reply (ascii opening)) := rfl
  have ht : t = transfer opening closing use a s := rfl
  clear_value o t
  unfold transfer at ht
  rw [hconn] at ht
  dsimp only at ht
  rw [← ho] at ht
  subst ht
  obtain ⟨u, status⟩ := o
  cases status with
  | going =>
    obtain ⟨hfiles, hreplies, hsent⟩ := closeDataSocket_eq
      (s := (u.reply (ascii closing)).close (lowest s.fds))
    exact ⟨rfl, hfiles, hsent, hreplies⟩
  | quit | lost | failed | undefined | killed =>
    exact ⟨rfl, rfl, rfl, (List.append_nil _).symm⟩

/-- **`STOR` on an accepted connection.** -/
theorem stor_accepted (h : Accepts a s) :
    (stor k filename a s).1.files
        = (receiveFile k filename a ((s.opened (lowest s.fds)).reply
          (ascii "150 Opening data connection for STOR.\r\n"))).files
      ∧ newReplies s (stor k filename a s).1
        = [ascii "150 Opening data connection for STOR.\r\n", transferComplete] := by
  obtain ⟨-, hfiles, -, hreplies⟩ := transfer_accepted "150 Opening data connection for STOR.\r\n"
    "226 File transfer complete.\r\n" (fun t => (receiveFile k filename a t, .going)) h
  refine ⟨hfiles, ?_⟩
  show List.drop s.replies.length (stor k filename a s).1.replies = _
  rw [show (stor k filename a s).1.replies = _ from hreplies, replies_receiveFile, if_pos rfl]
  show List.drop s.replies.length (s.replies ++ [_] ++ [transferComplete]) = _
  rw [List.append_assoc, List.drop_left]
  rfl

/-- **What `STOR` stores** on an accepted connection, if the file can be opened. -/
theorem stor_files (h : Accepts a s) (hi : k.locate s.files s.cwd filename = some i)
    (hfopen : a.fopen s.busy = true) (hg : k.create s.files i = some g) :
    (stor k filename a s).1.files = receiveLoop k a i 0 [] a.incoming g := by
  rw [(stor_accepted h).1]
  exact receiveFile_opened hi hfopen hg

/-- **`RETR` on an accepted connection**: its replies, the last one unless the server is
killed, and what it sends if the file can be opened. -/
theorem retr_accepted (h : Accepts a s) :
    newReplies s (retr k filename a s).1
        = ascii "150 Opening data connection for RETR.\r\n"
          :: (if (retr k filename a s).2 = .going then [transferComplete] else [])
      ∧ ∀ i content, k.locate s.files s.cwd filename = some i → a.fopen s.busy = true →
        k.opens s.files i = true → k.read s.files i = some content →
        newlySent s (retr k filename a s).1
          = moved a.send 0 (cut a.delivers (content.length + 1) 0 content) := by
  obtain ⟨hstatus, -, hsent, hreplies⟩ :=
    transfer_accepted "150 Opening data connection for RETR.\r\n"
      "226 File transfer complete.\r\n" (sendFile k filename a) h
  refine ⟨?_, fun i content hi hfopen hopens hread => ?_⟩
  · show List.drop s.replies.length (retr k filename a s).1.replies = _
    rw [show (retr k filename a s).1.replies = _ from hreplies,
      (sendFile_leaves k filename a _).2, show (retr k filename a s).2 = _ from hstatus]
    show List.drop s.replies.length (s.replies ++ [_] ++ _) = _
    rw [List.append_assoc, List.drop_left]
    rfl
  · obtain ⟨puts, hputs, hflat⟩ := sent_sendFile (s := (s.opened (lowest s.fds)).reply
      (ascii "150 Opening data connection for RETR.\r\n")) hi hfopen hopens hread
    show (List.drop s.sent.length (retr k filename a s).1.sent).flatten = _
    rw [show (retr k filename a s).1.sent = _ from hsent, hputs]
    show (List.drop s.sent.length (s.sent ++ puts)).flatten = _
    rw [List.drop_left, hflat]

/-! ## When 226 is the truth -/

/-- Whoever refuses in no case tells the truth exactly if the thing is done. -/
theorem reports_iff (h : ∀ r ∈ newReplies s t, ¬ IsRefusal r) : Reports done s t ↔ done := by
  refine ⟨fun hreports => by_contra fun hno => ?_, fun hdone => ⟨fun _ => hdone, fun hno =>
    absurd hdone hno⟩⟩
  obtain ⟨r, hr, hrefusal⟩ := hreports.2 hno
  exact h r hr hrefusal

/-- Neither reply of a transfer is a refusal. -/
theorem not_isRefusal_of_transfer {r : List UInt8}
    (h : r ∈ [ascii "150 Opening data connection for STOR.\r\n",
      ascii "150 Opening data connection for RETR.\r\n", transferComplete]) :
    ¬ IsRefusal r := by
  unfold IsRefusal
  revert r
  decide

/-- A `STOR` has stored everything exactly if it loses nothing. -/
theorem stored_iff (hk : k.Files) (h : Accepts a s) :
    Stored k filename a s (stor k filename a s).1 ↔ StoresAll k filename a s := by
  have hread : ∀ i g, k.locate s.files s.cwd filename = some i → a.fopen s.busy = true →
      k.create s.files i = some g →
      (k.read (stor k filename a s).1.files i = some (chunks a.incoming).flatten
        ↔ a.buffer.Whole 0 [] (chunks a.incoming)) := by
    intro i g hi hfopen hg
    rw [stor_files h hi hfopen hg, read_receiveLoop hk (hk.read_create hg), List.nil_append,
      Option.some.injEq, ← Buffer.moved_eq_iff, List.nil_append]
  constructor
  · rintro ⟨horderly, i, hi, hfopen, hcreate, hwhole⟩
    obtain ⟨g, hg⟩ := Option.isSome_iff_exists.mp hcreate
    exact ⟨i, hi, hfopen, hcreate, horderly, (hread i g hi hfopen hg).mp hwhole⟩
  · rintro ⟨i, hi, hfopen, hcreate, horderly, hfull⟩
    obtain ⟨g, hg⟩ := Option.isSome_iff_exists.mp hcreate
    exact ⟨horderly, i, hi, hfopen, hcreate, (hread i g hi hfopen hg).mpr hfull⟩

/-- A `RETR` has sent everything exactly if it loses nothing. -/
theorem sent_iff (h : Accepts a s) :
    Sent k filename a s (retr k filename a s).1 ↔ SendsAll k filename a s := by
  refine exists_congr fun i => exists_congr fun content => ?_
  refine and_congr_right fun hi => and_congr_right fun hfopen => and_congr_right fun hopens =>
    and_congr_right fun hread => ?_
  rw [(retr_accepted h).2 i content hi hfopen hopens hread,
    moved_cut_eq_iff (Nat.lt_succ_self _)]
  simp only [Nat.zero_add]

/-- **When 226 is the truth.** On an accepted data connection, whatever the file holds
and however the calls behave: `STOR` and `RETR` reply 226 only for a complete transfer,
and a refusal otherwise, exactly if the file can be opened, neither receiving nor reading
fails, and everything is written or sent, with what is flushed when the file is closed. -/
theorem transfers_reported_iff (hk : k.Files) (h : Accepts a s) :
    (Reports (Stored k filename a s (execute k a s (.stor filename)).1) s
        (execute k a s (.stor filename)).1 ↔ StoresAll k filename a s)
      ∧ (Reports (Sent k filename a s (execute k a s (.retr filename)).1) s
        (execute k a s (.retr filename)).1 ↔ SendsAll k filename a s) := by
  constructor
  · show Reports (Stored k filename a s (stor k filename a s).1) s (stor k filename a s).1 ↔ _
    rw [reports_iff fun r hr => ?_]
    · exact stored_iff hk h
    · rw [(stor_accepted h).2] at hr
      exact not_isRefusal_of_transfer (by grind)
  · show Reports (Sent k filename a s (retr k filename a s).1) s (retr k filename a s).1 ↔ _
    rw [reports_iff fun r hr => ?_]
    · exact sent_iff h
    · rw [(retr_accepted h).1] at hr
      exact not_isRefusal_of_transfer (by grind)

/-! ## A disk that is full -/

/-- The file system of names without directories, each with the bytes of its file. -/
def flat : Posix (List UInt8 → Option (List UInt8)) (List UInt8) where
  locate _ _ path := if path = [] then none else some path
  getcwd _ _ := some (ascii "/")
  enter _ _ := true
  mkdir _ _ := none
  rmdir _ _ := none
  create f i := some fun j => if j = i then some [] else f j
  append f i more := fun j => if j = i then (f j).map (· ++ more) else f j
  opens f i := (f i).isSome
  read f i := f i
  entries _ _ := some []
  stat _ _ := none
  date _ := []

theorem files_flat : flat.Files where
  read_create {f g i} h := by
    obtain rfl := Option.some.inj h
    exact if_pos rfl
  read_append {f i bytes more} h := by
    show (if i = i then (f i).map (· ++ more) else f i) = _
    rw [if_pos rfl, show f i = some bytes from h]
    rfl
  read_create_of_ne {f g i j} h hne := by
    obtain rfl := Option.some.inj h
    exact if_neg hne
  read_append_of_ne hne := if_neg hne
  locate_create _ h := h
  locate_append := rfl

/-- A session on no files, with a data socket that listens. -/
def ready : Session (List UInt8 → Option (List UInt8)) (List UInt8) :=
  { start ⟨fun _ => none, ascii "/", {0, 1, 2, 3, 4}, {4}⟩ with dataSocket := some 4 }

/-- A kernel that grants everything and delivers some bytes. -/
def delivering (bytes : List UInt8) : Answers := { granting with incoming := [some bytes] }

/-- A kernel that delivers three bytes to a disk that is full: they stay in the buffer of
the file until it is closed. -/
def fullDisk : Answers :=
  { delivering (ascii "abc") with
    flush := fun _ => 0
    fclose := 0 }

/-- A file that is stored where there is room for it, and one that is asked for before it
is there. -/
theorem transfers_reported_abc :
    (Reports (Stored flat (ascii "f") (delivering (ascii "abc")) ready
        (execute flat (delivering (ascii "abc")) ready (.stor (ascii "f"))).1) ready
      (execute flat (delivering (ascii "abc")) ready (.stor (ascii "f"))).1
        ↔ StoresAll flat (ascii "f") (delivering (ascii "abc")) ready)
    ∧ (Reports (Sent flat (ascii "f") (delivering (ascii "abc")) ready
        (execute flat (delivering (ascii "abc")) ready (.retr (ascii "f"))).1) ready
      (execute flat (delivering (ascii "abc")) ready (.retr (ascii "f"))).1
        ↔ SendsAll flat (ascii "f") (delivering (ascii "abc")) ready) :=
  transfers_reported_iff files_flat ⟨4, rfl, by decide, rfl⟩

/-- **Nothing is written, and the reply is 226.** `fwrite` takes all three bytes, and they
are lost when the file is closed. -/
theorem stor_full_disk :
    Accepts fullDisk ready
    ∧ (∀ n, 3 ≤ fullDisk.fwrite n)
    ∧ newReplies ready (execute flat fullDisk ready (.stor (ascii "f"))).1
      = [ascii "150 Opening data connection for STOR.\r\n", transferComplete]
    ∧ (execute flat fullDisk ready (.stor (ascii "f"))).1.files (ascii "f") = some []
    ∧ ¬ Reports (Stored flat (ascii "f") fullDisk ready
        (execute flat fullDisk ready (.stor (ascii "f"))).1) ready
      (execute flat fullDisk ready (.stor (ascii "f"))).1 := by
  refine ⟨⟨4, rfl, by decide, rfl⟩, fun n => ?_, by decide, by decide, fun h => ?_⟩
  · show 3 ≤ 1024
    decide
  · obtain ⟨-, i, hi, -, -, hread⟩ := h.1 (by decide)
    obtain rfl : ascii "f" = i := Option.some.inj hi
    exact absurd hread (by decide)

end Ftp
