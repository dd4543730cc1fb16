import LLPFilesystem.FtpDescriptors

/-!
# What a session leaves to the next one

One process serves one client after the other. What a session is answered, and what
it touches, depends on the process it finds: its files, its working directory and
its descriptors. `CWD` and `CDUP` move the working directory of the process, and
nothing moves it back. So clients are isolated exactly if the process is back in its
directory, with the descriptors it had (`sessions_isolated_iff`).
-/

namespace Ftp

open Text

variable {φ ι : Type} {k : Posix φ ι} {p q : Process φ ι} {s t : Session φ ι}
  {clients : List Client} {status : Status} {x : Client} {d : ℕ}

/-- What a client can tell, and what it touches: the replies, the locations of the
files, and what comes over data connections. -/
def record (o : Session φ ι × Status) : List (List UInt8) × List ι × List (List UInt8) :=
  (o.1.replies, o.1.touched, o.1.sent)

/-! ## The process between clients -/

/-- **A process that has served clients** since it was `p`: what was open is open, and
what was open listens if it did before. -/
structure Served (p q : Process φ ι) : Prop where
  kept : p.fds ⊆ q.fds
  listening : q.listening ⊆ q.fds
  inherited : ∀ d ∈ p.fds, d ∈ q.listening ↔ d ∈ p.listening

theorem Served.refl (hp : p.listening ⊆ p.fds) : Served p p :=
  ⟨Finset.Subset.refl _, hp, fun _ _ => Iff.rfl⟩

theorem Served.trans {r : Process φ ι} (h : Served p q) (h' : Served q r) : Served p r :=
  ⟨h.kept.trans h'.kept, h'.listening,
    fun d hd => (h'.inherited d (h.kept hd)).trans (h.inherited d hd)⟩

/-- Serving one client. -/
theorem served_serve (hp : p.listening ⊆ p.fds) (h : serve k p x = some (t, status))
    (hd : status.outlived = true) : Served p t.toProcess := by
  unfold serve at h
  split at h
  · split at h
    next u st heq =>
    obtain ⟨rfl, rfl⟩ := Prod.mk.inj (Option.some.inj h)
    set c := lowest p.fds with hc
    have hlow : c ∉ p.fds := lowest_notMem p.fds
    have hne : ∀ d ∈ p.fds, d ≠ c := fun d hd heq => hlow (heq ▸ hd)
    obtain ⟨st', hloop, hst'⟩ := loop_of_handleFtpCommands heq hd
    have hstart := accounted_start (p := { p with fds := insert c p.fds })
      (hp.trans (Finset.subset_insert c p.fds))
    obtain ⟨hu, -⟩ := loop_slot hstart hloop hst'
    have hclient : c ∉ u.listening := fun hmem =>
      hlow (hp ((hu.inherited c (Finset.mem_insert_self c _)).mp hmem))
    refine ⟨fun d hd => ?_, fun d hd => ?_, fun d hd => ?_⟩
    · exact Finset.mem_erase.mpr ⟨hne d hd, hu.kept (Finset.mem_insert_of_mem hd)⟩
    · have hmem : d ∈ u.listening := Finset.mem_of_mem_erase hd
      exact Finset.mem_erase.mpr ⟨fun heq => hclient (heq ▸ hmem), hu.listening hmem⟩
    · show d ∈ u.listening.erase c ↔ _
      rw [Finset.erase_eq_of_notMem hclient]
      exact hu.inherited d (Finset.mem_insert_of_mem hd)
  · exact absurd h.symm (Option.some_ne_none _)

/-- Serving some clients. -/
theorem served_serveAll (hp : p.listening ⊆ p.fds) (h : serveAll k p clients = some q) :
    Served p q := by
  induction clients generalizing p with
  | nil =>
    obtain rfl := Option.some.inj h
    exact .refl hp
  | cons x xs ih =>
    unfold serveAll at h
    cases hx : serve k p x with
    | none =>
      rw [hx] at h
      exact ih hp h
    | some o =>
      obtain ⟨t, status⟩ := o
      rw [hx] at h
      cases status with
      | undefined | killed => exact absurd h.symm (Option.some_ne_none q)
      | going | quit | lost | failed =>
        have ht := served_serve hp hx rfl
        exact ht.trans (ih ht.listening h)

/-- A process that has served clients and has its files, its directory and its
descriptors as before is as before. -/
theorem Served.eq (h : Served p q) (hp : p.listening ⊆ p.fds) (hfiles : q.files = p.files)
    (hcwd : q.cwd = p.cwd) (hfds : q.fds = p.fds) : q = p := by
  have hlistening : q.listening = p.listening := by
    ext d
    by_cases hd : d ∈ p.fds
    · exact h.inherited d hd
    · exact ⟨fun hq => absurd (hfds ▸ h.listening hq) hd, fun hq => absurd (hp hq) hd⟩
  cases p
  cases q
  obtain rfl : _ = _ := hfiles
  obtain rfl : _ = _ := hcwd
  obtain rfl : _ = _ := hfds
  obtain rfl : _ = _ := hlistening
  rfl

/-! ## Telling two processes apart -/

/-- The client that lists the working directory. -/
def lister : Client where
  accept _ := true
  segments := [ascii "PASV\r\n", ascii "LIST\r\n"]
  broken := false
  answers _ := granting

/-- The client that is accepted by a process with the given descriptors only. -/
def prober (fds : Finset ℕ) : Client where
  accept fds' := fds' = fds
  segments := []
  broken := false
  answers _ := granting

theorem touched_sendListing :
    (sendListing k granting s).1.touched = s.touched ++ [s.cwd] := by
  have hopen : granting.opendir s.fds = true := rfl
  unfold sendListing
  rw [if_pos hopen]
  cases k.entries s.files s.cwd with
  | none => rfl
  | some names =>
    dsimp only
    cases listingLoop k (s.touch s.cwd) names [] with
    | none => rfl
    | some info => rfl

theorem touched_closeDataSocket : s.closeDataSocket.touched = s.touched := by
  unfold Session.closeDataSocket
  cases s.dataSocket with
  | none => rfl
  | some d => rfl

/-- `LIST` on a waiting socket touches the working directory. -/
theorem touched_list (hd : s.dataSocket = some d) (hmem : d ∈ s.listening) :
    (list k granting s).1.touched = s.touched ++ [s.cwd] := by
  have hacc : acceptPassiveConnection granting s
      = (some (lowest s.fds), s.opened (lowest s.fds)) := by
    rcases acceptPassiveConnection_cases granting s with ⟨-, -, -, -, hacc⟩ | ⟨hno, -⟩
    · exact hacc
    · exact Bool.noConfusion (show true = false from hno d hmem hd)
  unfold list transfer
  rw [hacc]
  dsimp only
  have htouched := touched_sendListing (k := k) (s := (s.opened (lowest s.fds)).reply
    (ascii "150 Opening data connection for directory listing.\r\n"))
  cases hsend : sendListing k granting ((s.opened (lowest s.fds)).reply
      (ascii "150 Opening data connection for directory listing.\r\n")) with
  | mk u st =>
    rw [hsend] at htouched
    cases st with
    | going => exact touched_closeDataSocket.trans htouched
    | quit | lost | failed | undefined | killed => exact htouched

/-- What the loop has done with its first segment is not undone. -/
theorem touched_loop_pair {r₁ r₂ : List UInt8} {answers : ℕ → Answers}
    (h₁ : step k (answers 0) s r₁ = (t, .going)) :
    (loop k answers s [r₁, r₂]).1 = (step k (answers 1) t r₂).1 := by
  rw [loop, h₁]
  show (loop k (fun n => answers (n + 1)) t [r₂]).1 = _
  rw [loop, Nat.zero_add]
  cases step k (answers 1) t r₂ with
  | mk u st =>
    cases st with
    | going | quit | lost | failed | undefined | killed => rfl

/-- **The client that lists** touches the working directory of the process. -/
theorem touched_lister (p : Process φ ι) :
    (handleFtpCommands k lister.answers p lister.segments lister.broken).1.touched
      = [p.cwd] := by
  have hpasv : step k granting (start p) (ascii "PASV\r\n")
      = (pasv granting ((start p).log .pasv), .going) := by
    rw [step, if_neg (by decide), if_neg (by decide),
      show commandOf (ascii "PASV\r\n") = .pasv by decide, if_pos (by decide)]
    rfl
  set s := pasv granting ((start p).log .pasv) with hs
  have hlist : (step k granting s (ascii "LIST\r\n")).1 = (list k granting (s.log .list)).1 := by
    rw [step, if_neg (by decide), if_neg (by decide),
      show commandOf (ascii "LIST\r\n") = .list by decide, if_pos (by decide)]
    rfl
  have hloop : (handleFtpCommands k lister.answers p lister.segments lister.broken).1
      = (loop k lister.answers (start p) lister.segments).1 := by
    unfold handleFtpCommands
    split
    · next t heq => rw [heq]
    · next t st _ heq => rw [heq]
  have hpair : (loop k lister.answers (start p) lister.segments).1
      = (step k granting s (ascii "LIST\r\n")).1 := touched_loop_pair hpasv
  rw [hloop, hpair, hlist, touched_list (d := lowest p.fds) rfl]
  · rfl
  · exact Finset.mem_insert_self _ _

/-! ## Isolation -/

/-- **When clients are isolated.** Behind any clients that leave the files as they
were, every client is served as by a fresh server, exactly if the process is back in
the directory it was started in and has the descriptors it was started with. -/
theorem sessions_isolated_iff (hp : p.listening ⊆ p.fds) (h : serveAll k p clients = some q)
    (hfiles : q.files = p.files) :
    (∀ x, (serve k q x).map record = (serve k p x).map record)
      ↔ q.cwd = p.cwd ∧ q.fds = p.fds := by
  refine ⟨fun hsame => ?_, fun ⟨hcwd, hfds⟩ x => ?_⟩
  · have hfds : q.fds = p.fds := by
      by_contra hne
      have hprobe := hsame (prober p.fds)
      unfold serve at hprobe
      rw [if_neg (show ¬ (prober p.fds).accept q.fds = true from fun hdec =>
          hne (of_decide_eq_true hdec)),
        if_pos (show (prober p.fds).accept p.fds = true from decide_eq_true rfl)] at hprobe
      exact absurd hprobe.symm (Option.some_ne_none _)
    refine ⟨?_, hfds⟩
    have htouched : ∀ r : Process φ ι,
        ((serve k r lister).map record).map (fun o => o.2.1) = some [r.cwd] := by
      intro r
      have hcwd := touched_lister (k := k) { r with fds := insert (lowest r.fds) r.fds }
      unfold serve
      rw [if_pos (show lister.accept r.fds = true from rfl)]
      split
      next t st heq =>
      rw [heq] at hcwd
      exact congrArg some hcwd
    have hlists := congrArg (Option.map fun o => o.2.1) (hsame lister)
    rw [htouched, htouched] at hlists
    exact (List.cons.inj (Option.some.inj hlists)).1
  · rw [(served_serveAll hp h).eq hp hfiles hcwd hfds]

/-- A client that sends some lines. -/
def clientOf (segments : List (List UInt8)) : Client where
  accept _ := true
  segments := segments
  broken := false
  answers _ := granting

/-- A client that walks to another directory and leaves, and what it leaves. -/
theorem serveAll_walk : serveAll directories freshServer
    [clientOf [ascii "CWD a\r\n", ascii "QUIT\r\n"]]
      = some { freshServer with cwd := [ascii "srv", ascii "a"] } := rfl

/-- Behind a client that walks to another directory, later ones are served otherwise, and
behind two of whom the second one walks back, as by a fresh server. -/
theorem sessions_isolated_walks :
    (¬ ∀ x, (serve directories { freshServer with cwd := [ascii "srv", ascii "a"] } x).map record
        = (serve directories freshServer x).map record)
    ∧ ∃ q, serveAll directories freshServer
        [clientOf [ascii "CWD a\r\n", ascii "QUIT\r\n"], clientOf [ascii "CDUP\r\n"]] = some q
      ∧ ∀ x, (serve directories q x).map record = (serve directories freshServer x).map record := by
  constructor
  · intro h
    have hback := (sessions_isolated_iff (by decide) serveAll_walk rfl).mp h
    exact absurd hback.1 (by decide)
  · have hserved : serveAll directories freshServer
        [clientOf [ascii "CWD a\r\n", ascii "QUIT\r\n"], clientOf [ascii "CDUP\r\n"]]
        = some freshServer := rfl
    exact ⟨freshServer, hserved, (sessions_isolated_iff (by decide) hserved rfl).mpr ⟨rfl, rfl⟩⟩

/-- **A client that is found elsewhere.** Behind a client that walks to `/srv/a` and
leaves, the next one is told that it is in `/srv/a`, and not in `/srv`, where the
server was started. -/
theorem cwd_outlives_session :
    ∃ q, serveAll directories freshServer [clientOf [ascii "CWD a\r\n", ascii "QUIT\r\n"]]
        = some q
      ∧ q.files = freshServer.files
      ∧ (serve directories q (clientOf [ascii "PWD\r\n"])).map (fun o => o.1.replies)
        = some [ascii "220 Welcome to FTP server\r\n",
            ascii "257 \"/srv/a\" is the current directory\r\n"]
      ∧ (serve directories freshServer (clientOf [ascii "PWD\r\n"])).map (fun o => o.1.replies)
        = some [ascii "220 Welcome to FTP server\r\n",
            ascii "257 \"/srv\" is the current directory\r\n"] :=
  ⟨{ freshServer with cwd := [ascii "srv", ascii "a"] }, serveAll_walk, rfl, by decide, by decide⟩

end Ftp
