import LLPFilesystem.FtpTransfers

/-!
# What a listing sends

The text of a listing passes through four buffers: the path of an entry and its line
have 256 bytes each, all lines together have `LIST_BUFFER_SIZE`, and what is sent is
printed with the size of the reply, `BUFFER_SIZE`. Only the third is as large as it has
to be. The length tells what is lost: a line or a text that is cut is shorter than it
should be, and nothing else makes up for it (`sum_length_codeLine_le`), unless an entry
that cannot be found has a path that leads to another one when it is cut (`NoGhosts`).
-/

namespace Ftp

open Text

variable {φ ι : Type} {k : Posix φ ι} {a : Answers} {s t : Session φ ι} {st : Stat}
  {name info : List UInt8} {names : List (List UInt8)}

/-! ## Lines -/

/-- A complete line is longer than its name. -/
theorem length_le_fileLine (k : Posix φ ι) (name : List UInt8) (st : Stat) :
    name.length + 2 ≤ (fileLine k name st).length := by
  obtain ⟨front, hfront⟩ : ∃ front,
      fileLine k name st = front ++ (ascii " " ++ (name ++ ascii "\n")) := by
    unfold fileLine
    rw [List.append_assoc, List.append_assoc]
    exact ⟨_, rfl⟩
  rw [hfront, List.length_append, List.length_append, List.length_append,
    show (ascii " ").length = 1 from rfl, show (ascii "\n").length = 1 from rfl]
  omega

/-- What the buffer leaves of a line. -/
theorem length_getFileLine :
    (getFileLine k name st).length = min 255 (fileLine k name st).length := by
  rw [getFileLine]
  exact length_snprintf 255 _

/-- What `stat` tells about a path, from the working directory. -/
def statOf (k : Posix φ ι) (s : Session φ ι) (path : List UInt8) : Option Stat :=
  (k.locate s.files s.cwd path).bind (k.stat s.files)

/-- The complete line of an entry, if it can be found. -/
def wholeLine (k : Posix φ ι) (s : Session φ ι) (name : List UInt8) : List UInt8 :=
  ((statOf k s (ascii "./" ++ name)).map (fileLine k name)).getD []

/-- The line that the server makes of an entry. -/
def codeLine (k : Posix φ ι) (s : Session φ ι) (name : List UInt8) : List UInt8 :=
  ((statOf k s (snprintf 256 (ascii "./" ++ name))).map (getFileLine k name)).getD []

theorem wholeLine_of_none (h : statOf k s (ascii "./" ++ name) = none) :
    wholeLine k s name = [] := by
  rw [wholeLine, h, Option.map_none, Option.getD_none]

theorem wholeLine_of_some (h : statOf k s (ascii "./" ++ name) = some st) :
    wholeLine k s name = fileLine k name st := by
  rw [wholeLine, h, Option.map_some, Option.getD_some]

theorem codeLine_of_none (h : statOf k s (snprintf 256 (ascii "./" ++ name)) = none) :
    codeLine k s name = [] := by
  rw [codeLine, h, Option.map_none, Option.getD_none]

theorem codeLine_of_some (h : statOf k s (snprintf 256 (ascii "./" ++ name)) = some st) :
    codeLine k s name = getFileLine k name st := by
  rw [codeLine, h, Option.map_some, Option.getD_some]

/-- **The whole listing**: a complete line for each entry that can be found, and the
closing line ending. -/
def wholeListing (k : Posix φ ι) (s : Session φ ι) (names : List (List UInt8)) : List UInt8 :=
  names.flatMap (wholeLine k s) ++ ascii "\r\n"

/-- **No ghosts**: an entry that cannot be found is not found under the part of its path
that fits the buffer either. -/
def NoGhosts (k : Posix φ ι) (s : Session φ ι) (names : List (List UInt8)) : Prop :=
  ∀ name ∈ names, statOf k s (ascii "./" ++ name) = none →
    statOf k s (snprintf 256 (ascii "./" ++ name)) = none

/-- **The listing fits**: each complete line has at most 255 bytes, and all of it at most
1023, which are sent at once. -/
def ListingFits (k : Posix φ ι) (a : Answers) (s : Session φ ι) (names : List (List UInt8)) :
    Prop :=
  (∀ name ∈ names, (wholeLine k s name).length ≤ 255)
    ∧ (wholeListing k s names).length ≤ bufferSize - 1
    ∧ ∃ m, a.send 0 = some m ∧ (wholeListing k s names).length ≤ m

/-! ## One line -/

section

-- the lines are known by their lengths here
attribute [local irreducible] fileLine wholeLine codeLine

/-- **The server's line is complete or shorter**: if the complete line fits the buffer it
is that line, and if not it is shorter. -/
theorem codeLine_cases
    (hghost : statOf k s (ascii "./" ++ name) = none →
      statOf k s (snprintf 256 (ascii "./" ++ name)) = none) :
    ((wholeLine k s name).length ≤ 255 ∧ codeLine k s name = wholeLine k s name)
      ∨ (255 < (wholeLine k s name).length
        ∧ (codeLine k s name).length < (wholeLine k s name).length) := by
  cases hstat : statOf k s (ascii "./" ++ name) with
  | none =>
    rw [wholeLine_of_none hstat, codeLine_of_none (hghost hstat)]
    exact .inl ⟨Nat.zero_le _, rfl⟩
  | some st =>
    rw [wholeLine_of_some hstat]
    by_cases hfits : (fileLine k name st).length ≤ 255
    · -- then the path fits its buffer, too
      have hpath : snprintf 256 (ascii "./" ++ name) = ascii "./" ++ name := by
        have hle := length_le_fileLine k name st
        refine snprintf_of_length_le ?_
        rw [List.length_append, show (ascii "./").length = 2 from rfl, Nat.add_comm]
        exact Nat.le_trans hle hfits
      rw [← hpath] at hstat
      rw [codeLine_of_some hstat, getFileLine]
      exact .inl ⟨hfits, snprintf_of_length_le hfits⟩
    · have hlong := Nat.lt_of_not_le hfits
      refine .inr ⟨hlong, Nat.lt_of_le_of_lt ?_ hlong⟩
      cases hcut : statOf k s (snprintf 256 (ascii "./" ++ name)) with
      | none =>
        rw [codeLine_of_none hcut]
        exact Nat.zero_le _
      | some st' =>
        rw [codeLine_of_some hcut, length_getFileLine]
        exact Nat.min_le_left _ _

/-- Whoever has the same files and is in the same directory makes the same lines. -/
theorem codeLine_congr (hfiles : t.files = s.files) (hcwd : t.cwd = s.cwd) :
    codeLine k t = codeLine k s := by
  funext name
  unfold codeLine statOf
  rw [hfiles, hcwd]

/-! ## All lines -/

/-- The server's lines are no longer than the complete ones, and as long only if each
complete line fits. -/
theorem length_codeLines (hghosts : NoGhosts k s names) :
    (names.flatMap (codeLine k s)).length ≤ (names.flatMap (wholeLine k s)).length
      ∧ ((names.flatMap (wholeLine k s)).length ≤ (names.flatMap (codeLine k s)).length →
        ∀ name ∈ names, (wholeLine k s name).length ≤ 255) := by
  induction names with
  | nil => exact ⟨Nat.le_refl _, fun _ _ h => absurd h List.not_mem_nil⟩
  | cons name names ih =>
    obtain ⟨hle, hall⟩ := ih fun n hn => hghosts n (List.mem_cons_of_mem _ hn)
    rw [List.flatMap_cons, List.flatMap_cons, List.length_append, List.length_append]
    rcases codeLine_cases (hghosts name List.mem_cons_self) with ⟨hfits, heq⟩ | ⟨-, hlt⟩
    · rw [heq]
      refine ⟨Nat.add_le_add_left hle _, fun hge => ?_⟩
      exact List.forall_mem_cons.mpr ⟨hfits, hall (Nat.le_of_add_le_add_left hge)⟩
    · exact ⟨Nat.add_le_add (Nat.le_of_lt hlt) hle, fun hge =>
        absurd hge (Nat.not_le_of_lt (Nat.add_lt_add_of_lt_of_le hlt hle))⟩

/-- If each complete line fits, the server's lines are these. -/
theorem codeLines_eq (hghosts : NoGhosts k s names)
    (hfits : ∀ name ∈ names, (wholeLine k s name).length ≤ 255) :
    names.flatMap (codeLine k s) = names.flatMap (wholeLine k s) := by
  refine List.flatMap_congr fun name hn => ?_
  rcases codeLine_cases (hghosts name hn) with ⟨-, heq⟩ | ⟨hlong, -⟩
  · exact heq
  · exact absurd (hfits name hn) (Nat.not_le_of_lt hlong)

/-! ## The loop -/

/-- A line is appended if the buffer has room for it. -/
theorem listingLoop_cons :
    listingLoop k s (name :: names) info
      = if codeLine k s name = [] ∨ (info ++ codeLine k s name).length < listBufferSize then
          listingLoop k s names (info ++ codeLine k s name)
        else none := by
  rw [listingLoop]
  cases hcut : statOf k s (snprintf 256 (ascii "./" ++ name)) with
  | none =>
    rw [codeLine_of_none hcut, if_pos (.inl rfl), List.append_nil]
    unfold statOf at hcut
    rw [hcut]
  | some st =>
    have hle := length_le_fileLine k name st
    have hne : getFileLine k name st ≠ [] := List.length_pos_iff.mp (by
      rw [length_getFileLine]
      exact Nat.lt_min.mpr ⟨by decide, Nat.lt_of_lt_of_le (Nat.succ_pos _) hle⟩)
    rw [codeLine_of_some hcut]
    unfold statOf at hcut
    rw [hcut]
    dsimp only
    by_cases hroom : (info ++ getFileLine k name st).length < listBufferSize
    · rw [if_pos hroom, if_pos (.inr hroom)]
    · rw [if_neg hroom, if_neg (not_or.mpr ⟨hne, hroom⟩)]

/-- **The loop of `get_listing`** appends the server's lines. -/
theorem listingLoop_eq {result : List UInt8} (h : listingLoop k s names info = some result) :
    result = info ++ names.flatMap (codeLine k s) := by
  induction names generalizing info with
  | nil =>
    rw [List.flatMap_nil, List.append_nil]
    exact (Option.some.inj h).symm
  | cons name names ih =>
    rw [listingLoop_cons] at h
    split at h
    · rw [ih h, List.flatMap_cons, List.append_assoc]
    · exact nomatch h

/-- The loop returns if its lines fit the buffer. -/
theorem listingLoop_isSome
    (h : (info ++ names.flatMap (codeLine k s)).length < listBufferSize) :
    listingLoop k s names info = some (info ++ names.flatMap (codeLine k s)) := by
  induction names generalizing info with
  | nil =>
    rw [List.flatMap_nil, List.append_nil]
    rfl
  | cons name names ih =>
    rw [List.flatMap_cons, ← List.append_assoc] at h ⊢
    have hroom : (info ++ codeLine k s name).length < listBufferSize := by
      rw [List.length_append] at h
      exact Nat.lt_of_le_of_lt (Nat.le_add_right _ _) h
    rw [listingLoop_cons, if_pos (.inr hroom)]
    exact ih h

/-! ## The command -/

/-- **`LIST` sends the whole directory**, and the session goes on. -/
def SendsListing (k : Posix φ ι) (a : Answers) (s : Session φ ι) (names : List (List UInt8)) :
    Prop :=
  (execute k a s .list).2 = .going
    ∧ newlySent s (execute k a s .list).1 = wholeListing k s names

/-- The directory can be opened, and holds these entries. -/
def Opens (k : Posix φ ι) (a : Answers) (s : Session φ ι) (names : List (List UInt8)) : Prop :=
  a.opendir s.busy = true ∧ k.entries s.files s.cwd = some names

/-- **The listing of an open directory**: the part of the server's lines that fits a
reply, unless the lines outgrow their buffer or the client is gone. -/
theorem sendListing_eq (hopendir : a.opendir s.fds = true)
    (hentries : k.entries s.files s.cwd = some names) :
    (∀ info m, listingLoop k (s.touch s.cwd) names [] = some info → a.send 0 = some m →
      sendListing k a s
        = ((s.touch s.cwd).put ((snprintf bufferSize (info ++ ascii "\r\n")).take m), .going))
    ∧ ((∀ info, listingLoop k (s.touch s.cwd) names [] = some info → a.send 0 = none) →
      (sendListing k a s).2 ≠ .going) := by
  unfold sendListing
  rw [if_pos hopendir, hentries]
  dsimp only
  constructor
  · intro info m hinfo hsend
    rw [hinfo]
    dsimp only
    rw [hsend]
  · intro h
    cases hloop : listingLoop k (s.touch s.cwd) names [] with
    | none => exact nofun
    | some info =>
      dsimp only
      rw [h info hloop]
      exact nofun

/-- **What `LIST` sends** on an accepted connection, if the client takes it. -/
theorem list_sent (h : Accepts a s) (hopen : Opens k a s names) :
    ((execute k a s .list).2 = .going → ∃ m, a.send 0 = some m
      ∧ newlySent s (execute k a s .list).1
        = (snprintf bufferSize (names.flatMap (codeLine k s) ++ ascii "\r\n")).take m)
    ∧ ((names.flatMap (codeLine k s)).length < listBufferSize → (a.send 0).isSome →
      (execute k a s .list).2 = .going) := by
  show ((list k a s).2 = .going → ∃ m, a.send 0 = some m ∧ newlySent s (list k a s).1 = _)
    ∧ (_ → _ → (list k a s).2 = .going)
  set u : Session φ ι := (s.opened (lowest s.fds)).reply
    (ascii "150 Opening data connection for directory listing.\r\n") with hu
  obtain ⟨hsome, hnone⟩ := sendListing_eq (k := k) (s := u) hopen.1 hopen.2
  have hlines : codeLine k (u.touch u.cwd) = codeLine k s := codeLine_congr rfl rfl
  obtain ⟨hstatus, -, hsent, -⟩ := transfer_accepted
    "150 Opening data connection for directory listing.\r\n" "226 Directory listing sent.\r\n"
    (sendListing k a) h
  constructor
  · intro hgoing
    have huse : (sendListing k a u).2 = .going := hstatus.symm.trans hgoing
    obtain ⟨info, hloop, hsend⟩ : ∃ info, listingLoop k (u.touch u.cwd) names [] = some info
        ∧ a.send 0 ≠ none := by
      by_contra hno
      refine hnone (fun info hloop => ?_) huse
      exact by_contra fun hsend => hno ⟨info, hloop, hsend⟩
    obtain ⟨m, hm⟩ := Option.ne_none_iff_exists'.mp hsend
    have hinfo := listingLoop_eq hloop
    rw [hlines, List.nil_append] at hinfo
    refine ⟨m, hm, ?_⟩
    show (List.drop s.sent.length (list k a s).1.sent).flatten = _
    rw [show (list k a s).1.sent = (sendListing k a u).1.sent from hsent, hsome info m hloop hm]
    show (List.drop s.sent.length (s.sent ++ [_])).flatten = _
    rw [List.drop_left, List.flatten_singleton, hinfo]
  · intro hlt hsend
    obtain ⟨m, hm⟩ := Option.isSome_iff_exists.mp hsend
    rw [← hlines] at hlt
    have hroom : listingLoop k (u.touch u.cwd) names [] = some _ := listingLoop_isSome hlt
    exact hstatus.trans (congrArg Prod.snd (hsome _ m hroom hm))

/-- **When `LIST` sends the whole directory.** On an accepted data connection, for every
directory that can be opened: if there are no ghosts, each complete line has at most 255
bytes, the whole listing has at most 1023, and the kernel takes them at once. Where there
are no ghosts, it does so only then. -/
theorem listing_sent_iff (h : Accepts a s) (hopen : Opens k a s names) :
    (NoGhosts k s names ∧ ListingFits k a s names → SendsListing k a s names)
      ∧ (NoGhosts k s names → SendsListing k a s names → ListingFits k a s names) := by
  obtain ⟨hsent, hgoing⟩ := list_sent h hopen
  refine and_comm.mp ⟨?_, ?_⟩
  · rintro hghosts ⟨hstatus, hwhole⟩
    obtain ⟨m, hm, htaken⟩ := hsent hstatus
    obtain ⟨hle, hfull⟩ := length_codeLines hghosts
    have hlen := congrArg List.length (htaken.symm.trans hwhole)
    rw [snprintf, List.length_take, List.length_take, List.length_append, wholeListing,
      List.length_append] at hlen
    refine ⟨hfull (by omega), ?_, m, hm, ?_⟩
    · rw [wholeListing, List.length_append]
      omega
    · rw [wholeListing, List.length_append]
      omega
  · rintro ⟨hghosts, hfits, hbuffer, m, hm, htaken⟩
    have heq := codeLines_eq hghosts hfits
    have hlt : (names.flatMap (codeLine k s)).length < listBufferSize := by
      rw [wholeListing, List.length_append, ← heq] at hbuffer
      exact Nat.lt_of_le_of_lt (Nat.le_trans (Nat.le_add_right _ _) hbuffer) (by decide)
    have hstatus := hgoing hlt (Option.isSome_iff_exists.mpr ⟨m, hm⟩)
    obtain ⟨m', hm', hput⟩ := hsent hstatus
    obtain rfl := Option.some.inj (hm.symm.trans hm')
    refine ⟨hstatus, ?_⟩
    rw [hput, heq]
    show List.take m (snprintf bufferSize (wholeListing k s names)) = _
    rw [snprintf, List.take_of_length_le hbuffer, List.take_of_length_le htaken]

end

/-! ## Directories of directories -/

/-- A session in `/srv`, which holds some directories, with a data socket that listens. -/
def listingOf (names : List (List UInt8)) : Session (List Directory) Directory :=
  { start { freshServer with
      files := [ascii "srv"] :: names.map fun name => [ascii "srv", name]
      fds := {0, 1, 2, 3, 4}
      listening := {4} } with dataSocket := some 4 }

/-- Three directories are listed. -/
theorem listing_sent_abc :
    SendsListing directories granting (listingOf [ascii "a", ascii "b", ascii "long name"])
      [ascii "a", ascii "b", ascii "long name"] := by
  refine (listing_sent_iff ⟨4, rfl, by decide, rfl⟩ ⟨rfl, by decide⟩).1 ⟨?_, ?_, by decide,
    bufferSize, rfl, by decide⟩
  · have hfound : ∀ name ∈ [ascii "a", ascii "b", ascii "long name"],
        (statOf directories (listingOf [ascii "a", ascii "b", ascii "long name"])
          (ascii "./" ++ name)).isSome := by decide
    intro name hn hnone
    exact absurd (hfound name hn) (by rw [hnone]; decide)
  · decide

/-- The line of a name of 250 letters is longer than its buffer. -/
theorem length_longLine :
    (wholeListing directories (listingOf [List.replicate 250 97])
      [List.replicate 250 97]).length = 274 := by
  decide +kernel

/-- **A name of 250 letters** is cut, and the newline behind it is lost. -/
theorem long_name_cut :
    Accepts granting (listingOf [List.replicate 250 97])
    ∧ Opens directories granting (listingOf [List.replicate 250 97]) [List.replicate 250 97]
    ∧ (wholeListing directories (listingOf [List.replicate 250 97])
        [List.replicate 250 97]).length < listBufferSize
    ∧ (newlySent (listingOf [List.replicate 250 97])
        (execute directories granting (listingOf [List.replicate 250 97]) .list).1).length = 257
    ∧ ¬ SendsListing directories granting (listingOf [List.replicate 250 97])
        [List.replicate 250 97] := by
  have hlen : (newlySent (listingOf [List.replicate 250 97])
      (execute directories granting (listingOf [List.replicate 250 97]) .list).1).length = 257 := by
    decide +kernel
  refine ⟨⟨4, rfl, by decide, rfl⟩, ⟨rfl, by decide +kernel⟩, ?_, hlen, fun h => ?_⟩
  · rw [length_longLine]
    decide
  · rw [h.2, length_longLine] at hlen
    exact absurd hlen (by decide)

end Ftp
