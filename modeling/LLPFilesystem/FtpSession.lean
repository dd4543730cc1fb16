import LLPFilesystem.FtpServer

/-!
# What a command does to the session

Each function of the server in one lemma: how a passive mode command and a
transfer can go, and, from these, what a command does to the descriptors
(`Turn`, `execute_turn`) and how it leaves the session (`execute_status`).
-/

namespace Ftp

open Text

variable {φ ι : Type} {k : Posix φ ι} {a : Answers} {s t u : Session φ ι} {c : Command}
  {d : ℕ} {o : Option ℕ} {status : Status} {opening closing : String}
  {use : Session φ ι → Session φ ι × Status} {response path : List UInt8}

/-- A new descriptor is not open. -/
theorem lowest_notMem (fds : Finset ℕ) : lowest fds ∉ fds := by
  have hcard : fds.card < (Finset.range (fds.card + 1)).card := by
    rw [Finset.card_range]
    exact Nat.lt_succ_self _
  obtain ⟨d, hd, hfree⟩ := Finset.exists_mem_notMem_of_card_lt_card hcard
  have hsome : ((List.range (fds.card + 1)).find? fun d => d ∉ fds).isSome := by
    rw [List.find?_isSome]
    exact ⟨d, List.mem_range.mpr (Finset.mem_range.mp hd), decide_eq_true hfree⟩
  obtain ⟨e, he⟩ := Option.isSome_iff_exists.mp hsome
  have hlow : lowest fds = e := by
    unfold lowest
    rw [he]
    rfl
  rw [hlow]
  have hdec := List.find?_some he
  exact of_decide_eq_true hdec

/-- Whether the behaviour of a session is undefined. -/
def Status.isUndefined : Status → Bool
  | .undefined => true
  | _ => false

/-- Whether the server outlives a session: its behaviour is defined, and nothing has
killed the server. -/
def Status.outlived : Status → Bool
  | .undefined | .killed => false
  | _ => true

theorem Status.outlived_eq_false :
    status.outlived = false ↔ status = .undefined ∨ status = .killed := by
  cases status <;> decide

/-! ## The ledger of descriptors -/

/-- **The same ledger**: neither the descriptors have changed, nor the variable
that holds the data socket, nor the commands that are noted. -/
structure SameLedger (s t : Session φ ι) : Prop where
  commands : t.commands = s.commands
  dataSocket : t.dataSocket = s.dataSocket
  fds : t.fds = s.fds
  listening : t.listening = s.listening
  listeners : t.listeners = s.listeners

theorem SameLedger.refl (s : Session φ ι) : SameLedger s s := ⟨rfl, rfl, rfl, rfl, rfl⟩

theorem SameLedger.trans (h : SameLedger s t) (h' : SameLedger t u) : SameLedger s u :=
  ⟨h'.commands.trans h.commands, h'.dataSocket.trans h.dataSocket, h'.fds.trans h.fds,
    h'.listening.trans h.listening, h'.listeners.trans h.listeners⟩

theorem sameLedger_reply : SameLedger s (s.reply response) := ⟨rfl, rfl, rfl, rfl, rfl⟩

theorem sameLedger_touch {i : ι} : SameLedger s (s.touch i) := ⟨rfl, rfl, rfl, rfl, rfl⟩

theorem sameLedger_changeDirectory (h : changeDirectory k path s = some t) :
    SameLedger s t := by
  unfold changeDirectory at h
  split at h
  · split at h
    · obtain rfl := Option.some.inj h
      exact ⟨rfl, rfl, rfl, rfl, rfl⟩
    · exact absurd h.symm (Option.some_ne_none t)
  · exact absurd h.symm (Option.some_ne_none t)

theorem sameLedger_createDirectory : SameLedger s (createDirectory k path s).1 := by
  unfold createDirectory
  split
  · split
    · exact ⟨rfl, rfl, rfl, rfl, rfl⟩
    · exact sameLedger_touch
  · exact .refl s

theorem sameLedger_removeDirectory : SameLedger s (removeDirectory k path s).1 := by
  unfold removeDirectory
  split
  · split
    · exact ⟨rfl, rfl, rfl, rfl, rfl⟩
    · exact sameLedger_touch
  · exact .refl s

theorem sameLedger_receiveFile : SameLedger s (receiveFile k path a s) := by
  unfold receiveFile
  split
  · split
    · split
      · exact ⟨rfl, rfl, rfl, rfl, rfl⟩
      · exact sameLedger_touch
    · exact .refl s
  · exact .refl s

theorem sameLedger_sendLoop {fuel n : ℕ} {bytes : List UInt8} :
    SameLedger s (sendLoop a fuel n bytes s).1 := by
  induction fuel generalizing n bytes s with
  | zero => exact .refl s
  | succ fuel ih =>
    rw [sendLoop]
    split
    · exact .refl s
    · split
      · next m _ =>
        have hput : SameLedger s (s.put ((bytes.take (min bufferSize (a.fread n))).take m)) :=
          ⟨rfl, rfl, rfl, rfl, rfl⟩
        exact hput.trans ih
      · exact .refl s

theorem sameLedger_sendFile : SameLedger s (sendFile k path a s).1 := by
  unfold sendFile
  split
  · split
    · split
      · exact sameLedger_touch.trans sameLedger_sendLoop
      · exact sameLedger_touch
    · exact .refl s
  · exact .refl s

theorem sameLedger_sendListing : SameLedger s (sendListing k a s).1 := by
  unfold sendListing
  split
  · split
    · split
      · split
        · exact ⟨rfl, rfl, rfl, rfl, rfl⟩
        · exact sameLedger_touch
      · exact sameLedger_touch
    · exact sameLedger_touch
  · exact .refl s

theorem sameLedger_cwd : SameLedger s (cwd k path s) := by
  unfold cwd
  split
  · next t h => exact (sameLedger_changeDirectory h).trans sameLedger_reply
  · exact sameLedger_reply

theorem sameLedger_rmd : SameLedger s (rmd k path s) := by
  unfold rmd
  split
  · next t h =>
    have hremove : SameLedger t
        (removeDirectory k (currentDirectory k s ++ ascii "/" ++ path) t).1 :=
      sameLedger_removeDirectory
    split
    · next u heq =>
      rw [heq] at hremove
      exact ((sameLedger_changeDirectory h).trans hremove).trans sameLedger_reply
    · next u heq =>
      rw [heq] at hremove
      exact ((sameLedger_changeDirectory h).trans hremove).trans sameLedger_reply
  · exact sameLedger_reply

theorem sameLedger_mkd : SameLedger s (mkd k path s) := by
  unfold mkd
  split
  · next t h =>
    have hcreate : SameLedger t
        (createDirectory k (currentDirectory k s ++ ascii "/" ++ path) t).1 :=
      sameLedger_createDirectory
    split
    · next u heq =>
      rw [heq] at hcreate
      exact ((sameLedger_changeDirectory h).trans hcreate).trans sameLedger_reply
    · next u heq =>
      rw [heq] at hcreate
      exact ((sameLedger_changeDirectory h).trans hcreate).trans sameLedger_reply
  · exact sameLedger_reply

theorem sameLedger_type {m : UInt8} : SameLedger s (type m s) := by
  unfold type
  split
  · exact sameLedger_reply
  · split
    · exact sameLedger_reply
    · exact sameLedger_reply

/-- Opening a data socket notes no command. -/
theorem commands_openPassiveDataSocket :
    (openPassiveDataSocket a s).2.commands = s.commands := by
  unfold openPassiveDataSocket
  split
  · split
    · split
      · split
        · rfl
        · rfl
      · rfl
    · rfl
  · rfl

theorem commands_passive : (passive response a s).commands = s.commands := by
  have hopen := commands_openPassiveDataSocket (a := a) (s := s)
  unfold passive
  split
  · next d t heq =>
    rw [heq] at hopen
    exact hopen
  · next t heq =>
    rw [heq] at hopen
    exact hopen

/-! ## Transfers -/

/-- **How accepting can go**: the variable holds a listening socket and there is a
descriptor, or nothing has changed. -/
theorem acceptPassiveConnection_cases (a : Answers) (s : Session φ ι) :
    (∃ d ∈ s.listening, s.dataSocket = some d ∧ a.accept s.fds = true
      ∧ acceptPassiveConnection a s = (some (lowest s.fds), s.opened (lowest s.fds)))
    ∨ ((∀ d ∈ s.listening, s.dataSocket = some d → a.accept s.fds = false)
      ∧ acceptPassiveConnection a s = (none, s)) := by
  unfold acceptPassiveConnection
  cases hd : s.dataSocket with
  | none => exact .inr ⟨fun d _ h => absurd h.symm (Option.some_ne_none d), rfl⟩
  | some d =>
    dsimp only
    split
    · next h => exact .inl ⟨d, h.1, rfl, h.2, rfl⟩
    · next h =>
      refine .inr ⟨fun d' hd' heq => ?_, rfl⟩
      obtain rfl := Option.some.inj heq
      exact Bool.eq_false_iff.mpr fun ha => h ⟨hd', ha⟩

/-- **How a transfer can go**: nothing is accepted, or the connection is used and
both sockets are closed, or its use ends the session. -/
theorem transfer_cases (h : transfer opening closing use a s = (t, status)) :
    (acceptPassiveConnection a s = (none, s) ∧ status = .going
      ∧ t = s.reply (ascii "425 Can't open data connection.\r\n"))
    ∨ (∃ d ∈ s.listening, s.dataSocket = some d ∧ ∃ u,
        use ((s.opened (lowest s.fds)).reply (ascii opening)) = (u, .going) ∧ status = .going
        ∧ t = ((u.reply (ascii closing)).close (lowest s.fds)).closeDataSocket)
    ∨ (status ≠ .going
      ∧ use ((s.opened (lowest s.fds)).reply (ascii opening)) = (t, status)) := by
  unfold transfer at h
  rcases acceptPassiveConnection_cases a s with ⟨d, hmem, hd, -, hacc⟩ | ⟨-, hacc⟩
  · rw [hacc] at h
    dsimp only at h
    cases huse : use ((s.opened (lowest s.fds)).reply (ascii opening)) with
    | mk u st =>
      rw [huse] at h
      cases st with
      | going => exact .inr (.inl ⟨d, hmem, hd, u, rfl, (Prod.mk.inj h).2.symm,
          (Prod.mk.inj h).1.symm⟩)
      | quit | lost | failed | undefined | killed =>
        obtain ⟨rfl, rfl⟩ := Prod.mk.inj h
        exact .inr (.inr ⟨by decide, rfl⟩)
  · rw [hacc] at h
    exact .inl ⟨hacc, (Prod.mk.inj h).2.symm, (Prod.mk.inj h).1.symm⟩

/-! ## What a command does to the ledger -/

/-- The commands that open a data socket. -/
def Command.opensPassive : Command → Bool
  | .pasv | .epsv => true
  | _ => false

/-- **What a command does to the ledger.** A passive mode command opens a socket and
keeps it in the variable, or fails and empties the variable, whatever that held. A
transfer closes the listening socket in the variable. Nothing else changes. -/
inductive Turn (c : Command) (s t : Session φ ι) : Prop
  | keep (hc : c.opensPassive = false) (h : SameLedger s t)
  | opened (hc : c.opensPassive = true) (hdata : t.dataSocket = some (lowest s.fds))
    (hfds : t.fds = insert (lowest s.fds) s.fds)
    (hlistening : t.listening = insert (lowest s.fds) s.listening)
    (hpoints : t.listeners = insert (lowest s.fds) s.listening :: s.listeners)
  | refused (hc : c.opensPassive = true) (hdata : t.dataSocket = none) (hfds : t.fds = s.fds)
    (hlistening : t.listening = s.listening)
    (hpoints : ∀ l ∈ t.listeners,
      l ∈ s.listeners ∨ l = s.listening ∨ l = insert (lowest s.fds) s.listening)
  | used (hc : c.opensPassive = false) (d : ℕ) (hmem : d ∈ s.listening)
    (hd : s.dataSocket = some d) (hdata : t.dataSocket = some d)
    (hfds : t.fds = s.fds.erase d) (hlistening : t.listening = s.listening.erase d)
    (hpoints : t.listeners = s.listening.erase d :: s.listening :: s.listeners)

theorem lowest_notMem_listening (h : s.listening ⊆ s.fds) : lowest s.fds ∉ s.listening :=
  fun hmem => lowest_notMem s.fds (h hmem)

/-- A passive mode command. -/
theorem turn_passive (h : s.listening ⊆ s.fds) (hc : c.opensPassive = true) :
    Turn c s (passive response a s) := by
  have hlow := lowest_notMem s.fds
  have hlow' := lowest_notMem_listening h
  have hclosed : ∀ l ∈ s.listening :: s.listeners,
      l ∈ s.listeners ∨ l = s.listening ∨ l = insert (lowest s.fds) s.listening := by
    intro l hl
    rcases List.mem_cons.mp hl with rfl | hl
    · exact .inr (.inl rfl)
    · exact .inl hl
  unfold passive openPassiveDataSocket
  split
  · next d t heq =>
    split at heq
    · split at heq
      · split at heq
        · split at heq
          · obtain ⟨hd, rfl⟩ := Prod.mk.inj heq
            obtain rfl := Option.some.inj hd
            exact .opened hc rfl rfl rfl rfl
          · exact absurd (Prod.mk.inj heq).1.symm (Option.some_ne_none d)
        · exact absurd (Prod.mk.inj heq).1.symm (Option.some_ne_none d)
      · exact absurd (Prod.mk.inj heq).1.symm (Option.some_ne_none d)
    · exact absurd (Prod.mk.inj heq).1.symm (Option.some_ne_none d)
  · next t heq =>
    -- closed before it listens
    have hclose : ((s.opened (lowest s.fds)).close (lowest s.fds)).fds = s.fds
        ∧ ((s.opened (lowest s.fds)).close (lowest s.fds)).listening = s.listening :=
      ⟨Finset.erase_insert hlow, Finset.erase_eq_of_notMem hlow'⟩
    split at heq
    · split at heq
      · split at heq
        · split at heq
          · exact absurd (Prod.mk.inj heq).1 (Option.some_ne_none _)
          · obtain rfl := (Prod.mk.inj heq).2
            refine .refused hc rfl (Finset.erase_insert hlow) (Finset.erase_insert hlow') ?_
            intro l hl
            have hpoints : l ∈ (insert (lowest s.fds) s.listening).erase (lowest s.fds)
                :: insert (lowest s.fds) s.listening :: s.listeners := hl
            rw [Finset.erase_insert hlow'] at hpoints
            rcases List.mem_cons.mp hpoints with rfl | hpoints
            · exact .inr (.inl rfl)
            · rcases List.mem_cons.mp hpoints with rfl | hpoints
              · exact .inr (.inr rfl)
              · exact .inl hpoints
        · obtain rfl := (Prod.mk.inj heq).2
          refine .refused hc rfl hclose.1 hclose.2 fun l hl => hclosed l ?_
          have hpoints : l ∈ s.listening.erase (lowest s.fds) :: s.listeners := hl
          rwa [Finset.erase_eq_of_notMem hlow'] at hpoints
      · obtain rfl := (Prod.mk.inj heq).2
        refine .refused hc rfl hclose.1 hclose.2 fun l hl => hclosed l ?_
        have hpoints : l ∈ s.listening.erase (lowest s.fds) :: s.listeners := hl
        rwa [Finset.erase_eq_of_notMem hlow'] at hpoints
    · obtain rfl := (Prod.mk.inj heq).2
      exact .refused hc rfl rfl rfl fun l hl => .inl hl

/-- A transfer. -/
theorem turn_transfer (h : s.listening ⊆ s.fds) (hc : c.opensPassive = false)
    (huse : ∀ v, SameLedger v (use v).1)
    (hrun : transfer opening closing use a s = (t, .going)) : Turn c s t := by
  have hlow := lowest_notMem s.fds
  have hlow' := lowest_notMem_listening h
  rcases transfer_cases hrun with ⟨-, -, rfl⟩ | ⟨d, hmem, hd, u, hu, -, rfl⟩ | ⟨hne, -⟩
  · exact .keep hc sameLedger_reply
  · have hsame := huse ((s.opened (lowest s.fds)).reply (ascii opening))
    rw [hu] at hsame
    have hfds : u.fds.erase (lowest s.fds) = s.fds := by
      rw [hsame.fds]
      exact Finset.erase_insert hlow
    have hlistening : u.listening.erase (lowest s.fds) = s.listening := by
      rw [hsame.listening]
      exact Finset.erase_eq_of_notMem hlow'
    have hdata : ((u.reply (ascii closing)).close (lowest s.fds)).dataSocket = some d :=
      hsame.dataSocket.trans hd
    have hclose : ((u.reply (ascii closing)).close (lowest s.fds)).closeDataSocket
        = ((u.reply (ascii closing)).close (lowest s.fds)).close d := by
      unfold Session.closeDataSocket
      rw [hdata]
    rw [hclose]
    refine .used hc d hmem hd hdata (congrArg (Finset.erase · d) hfds)
      (congrArg (Finset.erase · d) hlistening) ?_
    show (u.listening.erase (lowest s.fds)).erase d
      :: u.listening.erase (lowest s.fds) :: u.listeners = _
    rw [hlistening, hsame.listeners]
    rfl
  · exact absurd rfl hne

/-- **What a command does to the ledger**, if the session goes on. -/
theorem execute_turn (h : s.listening ⊆ s.fds) (hrun : execute k a s c = (t, .going)) :
    Turn c s t := by
  cases c with
  | pasv =>
    obtain rfl := (Prod.mk.inj hrun).1
    exact turn_passive h rfl
  | epsv =>
    obtain rfl := (Prod.mk.inj hrun).1
    exact turn_passive h rfl
  | stor w =>
    have hstor : stor k w a s = (t, .going) := hrun
    exact turn_transfer h rfl (fun _ => sameLedger_receiveFile) hstor
  | retr w =>
    have hretr : retr k w a s = (t, .going) := hrun
    exact turn_transfer h rfl (fun _ => sameLedger_sendFile) hretr
  | list =>
    have hlist : list k a s = (t, .going) := hrun
    exact turn_transfer h rfl (fun _ => sameLedger_sendListing) hlist
  | quit => exact absurd (Prod.mk.inj hrun).2 (by decide)
  | port | unknown =>
    obtain rfl := (Prod.mk.inj hrun).1
    exact .keep rfl sameLedger_reply
  | type m =>
    obtain rfl := (Prod.mk.inj hrun).1
    exact .keep rfl sameLedger_type
  | user w | pass w =>
    obtain rfl := (Prod.mk.inj hrun).1
    exact .keep rfl ⟨rfl, rfl, rfl, rfl, rfl⟩
  | cwd w =>
    obtain rfl := (Prod.mk.inj hrun).1
    exact .keep rfl sameLedger_cwd
  | cdup =>
    obtain rfl := (Prod.mk.inj hrun).1
    exact .keep rfl sameLedger_cwd
  | rmd w =>
    obtain rfl := (Prod.mk.inj hrun).1
    exact .keep rfl sameLedger_rmd
  | mkd w =>
    obtain rfl := (Prod.mk.inj hrun).1
    exact .keep rfl sameLedger_mkd
  | pwd =>
    obtain rfl := (Prod.mk.inj hrun).1
    exact .keep rfl sameLedger_reply

/-- The loop of `send_file` comes to its end, or the server does not outlive it. -/
theorem sendLoop_status {fuel n : ℕ} {bytes : List UInt8} :
    (sendLoop a fuel n bytes s).2 = .going
      ∨ (sendLoop a fuel n bytes s).2.outlived = false := by
  induction fuel generalizing n bytes s with
  | zero => exact .inl rfl
  | succ fuel ih =>
    rw [sendLoop]
    split
    · exact .inl rfl
    · split
      · exact ih
      · exact .inr rfl

/-- So does `send_file`. -/
theorem sendFile_status :
    (sendFile k path a s).2 = .going ∨ (sendFile k path a s).2.outlived = false := by
  unfold sendFile
  split
  · split
    · split
      · exact sendLoop_status
      · exact .inl rfl
    · exact .inl rfl
  · exact .inl rfl

/-- A listing is sent, or the server does not outlive it. -/
theorem sendListing_status :
    (sendListing k a s).2 = .going ∨ (sendListing k a s).2.outlived = false := by
  unfold sendListing
  split
  · split
    · split
      · split
        · exact .inl rfl
        · exact .inr rfl
      · exact .inr rfl
    · exact .inr rfl
  · exact .inr rfl

/-- **How a command leaves the session**: it goes on, unless the command is `QUIT` or
the server does not outlive it. -/
theorem execute_status (hrun : execute k a s c = (t, status)) :
    status.outlived = false ∨ (status = .going ∧ c ≠ .quit)
      ∨ (status = .quit ∧ c = .quit ∧ SameLedger s t) := by
  have htransfer : ∀ {opening closing : String}
      {use : Session φ ι → Session φ ι × Status}, c ≠ .quit →
      (∀ v, (use v).2 = .going ∨ (use v).2.outlived = false) →
      transfer opening closing use a s = (t, status) →
      status.outlived = false ∨ (status = .going ∧ c ≠ .quit)
        ∨ (status = .quit ∧ c = .quit ∧ SameLedger s t) := by
    intro opening closing use hc huse h
    rcases transfer_cases h with ⟨-, hst, -⟩ | ⟨-, -, -, -, -, hst, -⟩ | ⟨hne, hu⟩
    · exact .inr (.inl ⟨hst, hc⟩)
    · exact .inr (.inl ⟨hst, hc⟩)
    · have hcase := huse ((s.opened (lowest s.fds)).reply (ascii opening))
      rw [hu] at hcase
      exact .inl (hcase.resolve_left hne)
  cases c with
  | stor w =>
    exact htransfer nofun (fun v => .inl (show (receiveFile k w a v, Status.going).2 = _ from rfl))
      hrun
  | retr w =>
    have huse : ∀ v : Session φ ι, (sendFile k w a v).2 = .going
        ∨ (sendFile k w a v).2.outlived = false := fun v => sendFile_status
    exact htransfer nofun huse hrun
  | list =>
    have huse : ∀ v : Session φ ι, (sendListing k a v).2 = .going
        ∨ (sendListing k a v).2.outlived = false := fun v => sendListing_status
    exact htransfer nofun huse hrun
  | quit =>
    obtain ⟨rfl, rfl⟩ := Prod.mk.inj hrun
    exact .inr (.inr ⟨rfl, rfl, sameLedger_reply⟩)
  | port | pasv | epsv | cdup | pwd | unknown | type _ | user _ | pass _ | cwd _ | rmd _
  | mkd _ => exact .inr (.inl ⟨(Prod.mk.inj hrun).2.symm, nofun⟩)

/-! ## When nothing is accepted -/

theorem transfer_of_refused (h : ∀ fds, a.accept fds = false) :
    transfer opening closing use a s
      = (s.reply (ascii "425 Can't open data connection.\r\n"), .going) := by
  have hnone : acceptPassiveConnection a s = (none, s) := by
    rcases acceptPassiveConnection_cases a s with ⟨d, -, -, hacc, -⟩ | ⟨-, hnone⟩
    · exact absurd ((h s.fds).symm.trans hacc) (by decide)
    · exact hnone
  unfold transfer
  rw [hnone]

/-- **When nothing is accepted**, every command runs to its end, and notes no other
one. -/
theorem execute_of_refused (h : ∀ fds, a.accept fds = false) :
    (execute k a s c).1.commands = s.commands ∧ (execute k a s c).2.outlived = true := by
  cases c with
  | pasv | epsv => exact ⟨commands_passive, rfl⟩
  | stor w =>
    rw [execute, stor, transfer_of_refused h]
    exact ⟨rfl, rfl⟩
  | retr w =>
    rw [execute, retr, transfer_of_refused h]
    exact ⟨rfl, rfl⟩
  | list =>
    rw [execute, list, transfer_of_refused h]
    exact ⟨rfl, rfl⟩
  | quit | port | unknown | user _ | pass _ | pwd => exact ⟨rfl, rfl⟩
  | type m => exact ⟨sameLedger_type.commands, rfl⟩
  | cwd w => exact ⟨sameLedger_cwd.commands, rfl⟩
  | cdup => exact ⟨sameLedger_cwd.commands, rfl⟩
  | rmd w => exact ⟨sameLedger_rmd.commands, rfl⟩
  | mkd w => exact ⟨sameLedger_mkd.commands, rfl⟩

end Ftp
