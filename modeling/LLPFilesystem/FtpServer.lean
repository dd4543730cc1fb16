import Mathlib.Data.Finset.Card
import Mathlib.Data.Finset.Range
import LLPFilesystem.Text

/-!
# The FTP server

`ftp_server.c`, line by line: the commands, the transfers over passive data
sockets, and the loops of `handle_ftp_commands` and `main`.

The file system is a parameter (`Posix`), over types of its states and of the
locations that paths lead to. What the kernel answers while a command runs is
another (`Answers`): whether it gives out a descriptor may depend on those that
are open. The descriptors themselves are kept by the model, with the passive
listening sockets among them.

Behaviour that C leaves undefined – a word of 100 bytes or more scanned into a
buffer of 100, a received segment that leaves no room for the terminating zero, a
listing that outgrows its buffer, the literal that `LIST` frees when it cannot
open the directory – ends a session as `Status.undefined`. A client that closes its
data connection while the server sends on it kills the server by `SIGPIPE`, which
nothing handles: `Status.killed`. The control connection is one that the client
keeps open while it is answered.
-/

namespace Ftp

open Text

/-- `BUFFER_SIZE`. -/
def bufferSize : ℕ := 1024

/-- `LIST_BUFFER_SIZE`. -/
def listBufferSize : ℕ := 8192

/-- The size of the buffers that words are scanned into. -/
def wordSize : ℕ := 100

/-! ## Commands -/

/-- A command, with what is scanned behind it. -/
inductive Command where
  | port
  | pasv
  | stor (filename : List UInt8)
  | retr (filename : List UInt8)
  | epsv
  | list
  | type (transferMode : UInt8)
  | user (username : List UInt8)
  | pass (password : List UInt8)
  | cwd (newDir : List UInt8)
  | cdup
  | rmd (dirName : List UInt8)
  | mkd (dirName : List UInt8)
  | pwd
  | quit
  | unknown
  deriving DecidableEq, Repr

/-- What `sscanf` finds behind a verb of `n` bytes. -/
def argument (buffer : List UInt8) (n : ℕ) : List UInt8 := word ((cstr buffer).drop n)

/-- **The command in a buffer**: the verbs are tried in the order of the source. -/
def commandOf (buffer : List UInt8) : Command :=
  if startsWith buffer "PORT" then .port
  else if startsWith buffer "PASV" then .pasv
  else if startsWith buffer "STOR" then .stor (argument buffer 4)
  else if startsWith buffer "RETR" then .retr (argument buffer 4)
  else if startsWith buffer "EPSV" then .epsv
  else if startsWith buffer "LIST" then .list
  else if startsWith buffer "TYPE" then .type (buffer.getD 5 0)
  else if startsWith buffer "USER" then .user (argument buffer 4)
  else if startsWith buffer "PASS" then .pass (argument buffer 4)
  else if startsWith buffer "CWD" then .cwd (argument buffer 3)
  else if startsWith buffer "CDUP" then .cdup
  else if startsWith buffer "RMD" then .rmd (argument buffer 3)
  else if startsWith buffer "MKD" then .mkd (argument buffer 3)
  else if startsWith buffer "PWD" then .pwd
  else if startsWith buffer "QUIT" then .quit
  else .unknown

/-- The word that a command scans. -/
def Command.scanned : Command → List UInt8
  | .stor w | .retr w | .user w | .pass w | .cwd w | .rmd w | .mkd w => w
  | _ => []

/-- The word of a command fits into its buffer, with the terminating zero. -/
def Command.Fits (c : Command) : Prop := c.scanned.length < wordSize

instance (c : Command) : Decidable c.Fits := Nat.decLt _ _

/-! ## Files and the kernel -/

/-- What `stat` tells. -/
structure Stat where
  isDir : Bool
  mode : ℕ
  nlink : ℕ
  uid : ℕ
  size : ℤ
  mtime : ℤ

/-- **The file system**, over a type `φ` of its states and a type `ι` of the
locations that paths lead to. -/
structure Posix (φ ι : Type) where
  /-- Where a path leads, from a working directory. -/
  locate : φ → ι → List UInt8 → Option ι
  /-- The path of a working directory. -/
  getcwd : φ → ι → Option (List UInt8)
  /-- Whether `chdir` may enter a location. -/
  enter : φ → ι → Bool
  mkdir : φ → ι → Option φ
  rmdir : φ → ι → Option φ
  /-- `fopen` for writing: the file is there, and empty. -/
  create : φ → ι → Option φ
  /-- Bytes behind the last ones of a file. -/
  append : φ → ι → List UInt8 → φ
  /-- `fopen` for reading. It opens directories, too. -/
  opens : φ → ι → Bool
  /-- The bytes of a file; from a directory nothing can be read. -/
  read : φ → ι → Option (List UInt8)
  /-- `opendir`, and the names that `readdir` gives. -/
  entries : φ → ι → Option (List (List UInt8))
  stat : φ → ι → Option Stat
  /-- `strftime` of the local time. -/
  date : ℤ → List UInt8

/-- **What the kernel answers** while a command runs. Whether there is another
descriptor may depend on those that are open. -/
structure Answers where
  socket : Finset ℕ → Bool
  bind : Bool
  listen : Bool
  getsockname : Bool
  /-- The address of the control socket, and the port of a data socket. -/
  ip : List UInt8
  port : ℕ
  accept : Finset ℕ → Bool
  fopen : Finset ℕ → Bool
  opendir : Finset ℕ → Bool
  /-- What the data connection receives; `none` is an error. -/
  incoming : List (Option (List UInt8))
  /-- How many bytes of its chunk the `n`-th `fwrite` takes. -/
  fwrite : ℕ → ℕ
  /-- How many of the bytes in the buffer of its file the `n`-th `fwrite` hands to the
  kernel. -/
  flush : ℕ → ℕ
  /-- How many of these the kernel writes; the others are lost. -/
  write : ℕ → ℕ
  /-- How many of the bytes that are left in the buffer `fclose` writes. -/
  fclose : ℕ
  /-- How many bytes the `n`-th `fread` can deliver. -/
  fread : ℕ → ℕ
  /-- How many bytes the `n`-th `send` on the data connection puts there; `none` is the
  `SIGPIPE` of a connection that the client has closed. -/
  send : ℕ → Option ℕ

/-- **The process**: the files, the working directory, and the open descriptors,
some of which are passive listening sockets. -/
structure Process (φ ι : Type) where
  files : φ
  cwd : ι
  fds : Finset ℕ
  listening : Finset ℕ

/-- **A session**: the process, the variables of `handle_ftp_commands`, and what
the session has done: the commands it has executed, the replies it has sent, the
files it has touched, what it has put on data connections, and the passive
listening sockets there have been at each point, the last point first. -/
structure Session (φ ι : Type) extends Process φ ι where
  dataSocket : Option ℕ
  username : List UInt8
  password : List UInt8
  commands : List Command
  replies : List (List UInt8)
  touched : List ι
  sent : List (List UInt8)
  listeners : List (Finset ℕ)

/-- How a session stands: it goes on, or it has ended – by `QUIT`, because the
connection was closed, because receiving failed – or its behaviour is
undefined, or the server has been killed. -/
inductive Status where
  | going
  | quit
  | lost
  | failed
  | undefined
  | killed
  deriving DecidableEq, Repr

variable {φ ι : Type}

/-! ## Descriptors -/

/-- The lowest descriptor that is not open. -/
def lowest (fds : Finset ℕ) : ℕ :=
  ((List.range (fds.card + 1)).find? fun d => d ∉ fds).getD 0

namespace Session

/-- A new descriptor. -/
def opened (s : Session φ ι) (d : ℕ) : Session φ ι := { s with fds := insert d s.fds }

/-- A socket starts to listen. -/
def listens (s : Session φ ι) (d : ℕ) : Session φ ι :=
  { s with
    listening := insert d s.listening
    listeners := insert d s.listening :: s.listeners }

/-- Close a descriptor. -/
def close (s : Session φ ι) (d : ℕ) : Session φ ι :=
  { s with
    fds := s.fds.erase d
    listening := s.listening.erase d
    listeners := s.listening.erase d :: s.listeners }

/-- Close the data socket; `close(-1)` does nothing. -/
def closeDataSocket (s : Session φ ι) : Session φ ι :=
  match s.dataSocket with
  | some d => s.close d
  | none => s

/-- `send_response` on the control socket. -/
def reply (s : Session φ ι) (response : List UInt8) : Session φ ι :=
  { s with replies := s.replies ++ [response] }

/-- Put bytes on the data connection. -/
def put (s : Session φ ι) (bytes : List UInt8) : Session φ ι :=
  { s with sent := s.sent ++ [bytes] }

/-- Note what is touched. -/
def touch (s : Session φ ι) (i : ι) : Session φ ι := { s with touched := s.touched ++ [i] }

/-- Note a command. -/
def log (s : Session φ ι) (c : Command) : Session φ ι :=
  { s with commands := s.commands ++ [c] }

end Session

/-- `open_passive_data_socket`. -/
def openPassiveDataSocket (a : Answers) (s : Session φ ι) : Option ℕ × Session φ ι :=
  if a.socket s.fds then
    if a.bind then
      if a.listen then
        if a.getsockname then
          (some (lowest s.fds), (s.opened (lowest s.fds)).listens (lowest s.fds))
        else
          (none, ((s.opened (lowest s.fds)).listens (lowest s.fds)).close (lowest s.fds))
      else (none, (s.opened (lowest s.fds)).close (lowest s.fds))
    else (none, (s.opened (lowest s.fds)).close (lowest s.fds))
  else (none, s)

/-- `accept_passive_connection` on the data socket. It fails unless the socket is
listening. -/
def acceptPassiveConnection (a : Answers) (s : Session φ ι) : Option ℕ × Session φ ι :=
  match s.dataSocket with
  | some d =>
    if d ∈ s.listening ∧ a.accept s.fds then
      (some (lowest s.fds), s.opened (lowest s.fds))
    else (none, s)
  | none => (none, s)

/-! ## Directories -/

variable (k : Posix φ ι)

/-- `change_directory`. -/
def changeDirectory (path : List UInt8) (s : Session φ ι) : Option (Session φ ι) :=
  match k.locate s.files s.cwd path with
  | some i => if k.enter s.files i then some { s with cwd := i } else none
  | none => none

/-- What `getcwd` leaves in `current_directory`: nothing if the path does not
fit. -/
def currentDirectory (s : Session φ ι) : List UInt8 :=
  match k.getcwd s.files s.cwd with
  | some path => if path.length < bufferSize then path else []
  | none => []

/-- `create_directory`. -/
def createDirectory (path : List UInt8) (s : Session φ ι) : Session φ ι × Bool :=
  match k.locate s.files s.cwd path with
  | some i =>
    match k.mkdir s.files i with
    | some files => ({ s.touch i with files := files }, true)
    | none => (s.touch i, false)
  | none => (s, false)

/-- `remove_directory`. -/
def removeDirectory (path : List UInt8) (s : Session φ ι) : Session φ ι × Bool :=
  match k.locate s.files s.cwd path with
  | some i =>
    match k.rmdir s.files i with
    | some files => ({ s.touch i with files := files }, true)
    | none => (s.touch i, false)
  | none => (s, false)

/-! ## Transfers -/

/-- The loop of `receive_file`: it stops when nothing comes or receiving fails. What
`fwrite` takes goes into the buffer of the file, and from there to the kernel when it
is flushed, behind the loop by `fclose`. No result is looked at. -/
def receiveLoop (a : Answers) (i : ι) :
    ℕ → List UInt8 → List (Option (List UInt8)) → φ → φ
  | n, buffered, some (b :: bytes) :: rest, files =>
    receiveLoop a i (n + 1)
      ((buffered ++ (b :: bytes).take (a.fwrite n)).drop (a.flush n)) rest
      (k.append files i
        (((buffered ++ (b :: bytes).take (a.fwrite n)).take (a.flush n)).take (a.write n)))
  | _, buffered, _, files => k.append files i (buffered.take a.fclose)

/-- `receive_file`. The descriptor of the file is closed again. -/
def receiveFile (path : List UInt8) (a : Answers) (s : Session φ ι) : Session φ ι :=
  match k.locate s.files s.cwd path with
  | some i =>
    if a.fopen s.fds then
      match k.create s.files i with
      | some files => { s.touch i with files := receiveLoop k a i 0 [] a.incoming files }
      | none => s.touch i
    else s
  | none => s

/-- The loop of `send_file`: what `fread` delivers is sent, a buffer at a time, until
it delivers nothing. -/
def sendLoop (a : Answers) : ℕ → ℕ → List UInt8 → Session φ ι → Session φ ι × Status
  | 0, _, _, s => (s, .going)
  | fuel + 1, n, bytes, s =>
    if bytes.take (min bufferSize (a.fread n)) = [] then (s, .going)
    else
      match a.send n with
      | some m =>
        sendLoop a fuel (n + 1) (bytes.drop (min bufferSize (a.fread n)))
          (s.put ((bytes.take (min bufferSize (a.fread n))).take m))
      | none => (s, .killed)

/-- `send_file`. The descriptor of the file is closed again. -/
def sendFile (path : List UInt8) (a : Answers) (s : Session φ ι) : Session φ ι × Status :=
  match k.locate s.files s.cwd path with
  | some i =>
    if a.fopen s.fds ∧ k.opens s.files i then
      match k.read s.files i with
      | some bytes => sendLoop a (bytes.length + 1) 0 bytes (s.touch i)
      -- the first `fread` fails
      | none => (s.touch i, .going)
    else (s, .going)
  | none => (s, .going)

/-- **The line of an entry**: mode, links, owner, size, time and name. -/
def fileLine (filename : List UInt8) (st : Stat) : List UInt8 :=
  ascii (if st.isDir then "d" else "-")
    ++ ascii (if st.mode.testBit 8 then "r" else "-")
    ++ ascii (if st.mode.testBit 7 then "w" else "-")
    ++ ascii (if st.mode.testBit 6 then "x" else "-")
    ++ ascii (if st.mode.testBit 5 then "r" else "-")
    ++ ascii (if st.mode.testBit 4 then "w" else "-")
    ++ ascii (if st.mode.testBit 3 then "x" else "-")
    ++ ascii (if st.mode.testBit 2 then "r" else "-")
    ++ ascii (if st.mode.testBit 1 then "w" else "-")
    ++ ascii (if st.mode.testBit 0 then "x" else "-")
    ++ ascii " " ++ decimal st.nlink
    -- the user is printed as a signed number
    ++ ascii " " ++ decimal (BitVec.ofNat 32 st.uid).toInt
    ++ ascii " " ++ decimal st.size
    ++ ascii " " ++ k.date st.mtime
    ++ ascii " " ++ filename ++ ascii "\n"

/-- `get_file_line`. -/
def getFileLine (filename : List UInt8) (st : Stat) : List UInt8 :=
  snprintf 256 (fileLine k filename st)

/-- The loop of `get_listing`: the lines of the entries that `stat` finds, as long
as they fit into the buffer. -/
def listingLoop (s : Session φ ι) : List (List UInt8) → List UInt8 → Option (List UInt8)
  | [], info => some info
  | name :: names, info =>
    match (k.locate s.files s.cwd (snprintf 256 (ascii "./" ++ name))).bind
        (k.stat s.files) with
    | some st =>
      if (info ++ getFileLine k name st).length < listBufferSize then
        listingLoop s names (info ++ getFileLine k name st)
      else none
    | none => listingLoop s names info

/-- `get_listing` and the lines of `LIST` that send its result. If the directory
cannot be opened, what is sent is a literal, and freeing it is undefined. -/
def sendListing (a : Answers) (s : Session φ ι) : Session φ ι × Status :=
  if a.opendir s.fds then
    match k.entries s.files s.cwd with
    | some names =>
      match listingLoop k (s.touch s.cwd) names [] with
      | some info =>
        match a.send 0 with
        | some m =>
          ((s.touch s.cwd).put ((snprintf bufferSize (info ++ ascii "\r\n")).take m), .going)
        | none => (s.touch s.cwd, .killed)
      | none => (s.touch s.cwd, .undefined)
    | none => (s.touch s.cwd, .undefined)
  else (s, .undefined)

/-! ## The commands -/

/-- **A passive mode command**: open a data socket, whatever the variable held, and
tell where it listens. -/
def passive (response : List UInt8) (a : Answers) (s : Session φ ι) : Session φ ι :=
  match openPassiveDataSocket a s with
  | (some d, t) => { t with dataSocket := some d }.reply response
  | (none, t) =>
    { t with dataSocket := none }.reply (ascii "425 Can't open data connection.\r\n")

/-- `PASV`. -/
def pasv (a : Answers) (s : Session φ ι) : Session φ ι :=
  passive (snprintf bufferSize
    (ascii "227 Entering Passive Mode ("
      ++ a.ip.map (fun c => if c = 46 then 44 else c)
      ++ ascii "," ++ decimal (a.port / 256) ++ ascii "," ++ decimal (a.port % 256)
      ++ ascii ").\r\n")) a s

/-- `EPSV`. -/
def epsv (a : Answers) (s : Session φ ι) : Session φ ι :=
  passive (snprintf bufferSize
    (ascii "229 Entering Extended Passive Mode (|||" ++ decimal a.port
      ++ ascii "|).\r\n")) a s

/-- **A transfer**: accept a connection on the data socket, use it, and close
both. -/
def transfer (opening closing : String) (use : Session φ ι → Session φ ι × Status)
    (a : Answers) (s : Session φ ι) : Session φ ι × Status :=
  match acceptPassiveConnection a s with
  | (some c, t) =>
    match use (t.reply (ascii opening)) with
    | (u, .going) =>
      (((u.reply (ascii closing)).close c).closeDataSocket, .going)
    | (u, status) => (u, status)
  | (none, t) => (t.reply (ascii "425 Can't open data connection.\r\n"), .going)

/-- `STOR`. -/
def stor (filename : List UInt8) (a : Answers) (s : Session φ ι) : Session φ ι × Status :=
  transfer "150 Opening data connection for STOR.\r\n" "226 File transfer complete.\r\n"
    (fun t => (receiveFile k filename a t, .going)) a s

/-- `RETR`. -/
def retr (filename : List UInt8) (a : Answers) (s : Session φ ι) : Session φ ι × Status :=
  transfer "150 Opening data connection for RETR.\r\n" "226 File transfer complete.\r\n"
    (sendFile k filename a) a s

/-- `LIST`. -/
def list (a : Answers) (s : Session φ ι) : Session φ ι × Status :=
  transfer "150 Opening data connection for directory listing.\r\n"
    "226 Directory listing sent.\r\n" (sendListing k a) a s

/-- `TYPE`. -/
def type (transferMode : UInt8) (s : Session φ ι) : Session φ ι :=
  if transferMode = 65 then s.reply (ascii "200 Switching to ASCII mode.\r\n")
  else if transferMode = 73 then s.reply (ascii "200 Switching to Binary mode.\r\n")
  else s.reply (ascii "500 Unknown transfer mode.\r\n")

/-- `USER`. Scanning no word leaves the variable. -/
def user (username : List UInt8) (s : Session φ ι) : Session φ ι :=
  { s with username := if username = [] then s.username else username }.reply
    (ascii "331 User name okay, need password\n")

/-- `PASS`. Scanning no word leaves the variable. -/
def pass (password : List UInt8) (s : Session φ ι) : Session φ ι :=
  { s with password := if password = [] then s.password else password }.reply
    (ascii "230 User logged in\n")

/-- `CWD`. -/
def cwd (newDir : List UInt8) (s : Session φ ι) : Session φ ι :=
  match changeDirectory k newDir s with
  | some t => t.reply (ascii "250 Directory changed\r\n")
  | none => s.reply (ascii "550 Failed to change directory\r\n")

/-- `CDUP`. -/
def cdup (s : Session φ ι) : Session φ ι := cwd k (ascii "..") s

/-- `RMD`. -/
def rmd (dirName : List UInt8) (s : Session φ ι) : Session φ ι :=
  match changeDirectory k (currentDirectory k s) s with
  | some t =>
    match removeDirectory k (currentDirectory k s ++ ascii "/" ++ dirName) t with
    | (u, true) => u.reply (ascii "250 Directory deleted\r\n")
    | (u, false) => u.reply (ascii "550 Failed to delete directory\r\n")
  | none => s.reply (ascii "550 Failed to delete directory\r\n")

/-- `MKD`. -/
def mkd (dirName : List UInt8) (s : Session φ ι) : Session φ ι :=
  match changeDirectory k (currentDirectory k s) s with
  | some t =>
    match createDirectory k (currentDirectory k s ++ ascii "/" ++ dirName) t with
    | (u, true) => u.reply (ascii "257 Directory created\r\n")
    | (u, false) => u.reply (ascii "550 Failed to create directory\r\n")
  | none => s.reply (ascii "550 Failed to create directory\r\n")

/-- `PWD`. -/
def pwd (s : Session φ ι) : Session φ ι :=
  s.reply (snprintf bufferSize
    (ascii "257 \"" ++ currentDirectory k s ++ ascii "\" is the current directory\r\n"))

/-- The body of the loop, for the command in the buffer. -/
def execute (a : Answers) (s : Session φ ι) : Command → Session φ ι × Status
  | .port => (s.reply (ascii ("502 This server does not support active mode. "
      ++ "Consider using passive mode instead.\r\n")), .going)
  | .pasv => (pasv a s, .going)
  | .stor filename => stor k filename a s
  | .retr filename => retr k filename a s
  | .epsv => (epsv a s, .going)
  | .list => list k a s
  | .type transferMode => (type transferMode s, .going)
  | .user username => (user username s, .going)
  | .pass password => (pass password s, .going)
  | .cwd newDir => (cwd k newDir s, .going)
  | .cdup => (cdup k s, .going)
  | .rmd dirName => (rmd k dirName s, .going)
  | .mkd dirName => (mkd k dirName s, .going)
  | .pwd => (pwd k s, .going)
  | .quit => (s.reply (ascii "221 Goodbye!\r\n"), .quit)
  | .unknown => (s.reply (ascii "500 Unknown command\r\n"), .going)

/-! ## The loops -/

/-- **One turn of the loop** of `handle_ftp_commands`, on what `recv` delivers. A
segment that fills the buffer leaves no zero for `strlen` to stop at. -/
def step (a : Answers) (s : Session φ ι) (received : List UInt8) : Session φ ι × Status :=
  if bufferSize ≤ received.length ∧ 0 ∉ received then (s, .undefined)
  else if cstr received = [] then (s, .lost)
  else if (commandOf received).Fits then
    execute k a (s.log (commandOf received)) (commandOf received)
  else (s.log (commandOf received), .undefined)

/-- **The loop** of `handle_ftp_commands`, over what `recv` delivers and what the
kernel answers to each command, until something ends the session. -/
def loop (answers : ℕ → Answers) (s : Session φ ι) : List (List UInt8) → Session φ ι × Status
  | [] => (s, .going)
  | received :: rest =>
    match step k (answers 0) s received with
    | (t, .going) => loop (fun n => answers (n + 1)) t rest
    | (t, status) => (t, status)

/-- The session as `handle_ftp_commands` starts it. -/
def start (p : Process φ ι) : Session φ ι where
  toProcess := p
  dataSocket := none
  username := []
  password := []
  commands := []
  replies := [ascii "220 Welcome to FTP server\r\n"]
  touched := []
  sent := []
  listeners := [p.listening]

/-- **`handle_ftp_commands`**. Behind what it delivers, `recv` fails or finds the
connection closed. -/
def handleFtpCommands (answers : ℕ → Answers) (p : Process φ ι) (segments : List (List UInt8))
    (broken : Bool) : Session φ ι × Status :=
  match loop k answers (start p) segments with
  | (t, .going) => (t, if broken then .failed else .lost)
  | (t, status) => (t, status)

/-- What a client does, and what the kernel answers meanwhile. -/
structure Client where
  accept : Finset ℕ → Bool
  segments : List (List UInt8)
  broken : Bool
  answers : ℕ → Answers

/-- **One turn of the loop of `main`**: accept a client, handle its commands, close
its socket. -/
def serve (p : Process φ ι) (x : Client) : Option (Session φ ι × Status) :=
  if x.accept p.fds then
    match handleFtpCommands k x.answers { p with fds := insert (lowest p.fds) p.fds }
        x.segments x.broken with
    | (t, status) => some (t.close (lowest p.fds), status)
  else none

/-- The loop of `main`, over some clients; a session whose behaviour is undefined and
one that is killed leave no process. -/
def serveAll (p : Process φ ι) : List Client → Option (Process φ ι)
  | [] => some p
  | x :: xs =>
    match serve k p x with
    | some (_, .undefined) | some (_, .killed) => none
    | some (t, _) => serveAll t.toProcess xs
    | none => serveAll p xs

end Ftp
