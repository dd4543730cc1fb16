import LLPFilesystem.FtpDirectories
import LLPFilesystem.FtpSession
import LLPFilesystem.Slot

/-!
# What becomes of the data sockets

The listening socket of a session lives in one variable, which `PASV` and `EPSV`
overwrite and a transfer that is accepted releases; nothing else looks after it. So
the session is a `Slot` (`Session.slot`, `Accounted.turn`), and it leaves the
descriptors as they were exactly if no socket waits in the variable when it is
overwritten and when the session ends (`descriptors_kept_iff`).
-/

namespace Ftp

open Text

variable {φ ι : Type} {k : Posix φ ι} {a : Answers} {answers : ℕ → Answers}
  {s t : Session φ ι} {p : Process φ ι} {c : Command} {segments : List (List UInt8)}
  {broken : Bool} {status : Status} {d : ℕ} {l : Finset ℕ}

/-- **A socket waits**: the variable holds a listening socket. -/
def Session.Waiting (s : Session φ ι) : Prop := ∃ d ∈ s.listening, s.dataSocket = some d

/-- **No waiting socket is forgotten**: when `PASV` or `EPSV` is executed, and when the
session ends, no listening socket waits in the variable. -/
def Settled (k : Posix φ ι) (answers : ℕ → Answers) (s : Session φ ι) :
    List (List UInt8) → Prop
  | [] => ¬ s.Waiting
  | received :: rest =>
    match step k (answers 0) s received with
    | (t, .going) =>
      ((commandOf received).opensPassive = true → ¬ s.Waiting)
        ∧ Settled k (fun n => answers (n + 1)) t rest
    | _ => ¬ s.Waiting

/-! ## The session as a slot -/

/-- The listening socket in the variable. -/
def Session.held (s : Session φ ι) : Option ℕ := s.dataSocket.filter (· ∈ s.listening)

/-- **The variable and what was lost**, of a session that started with the process
`p`. -/
def Session.slot (p : Process φ ι) (s : Session φ ι) : Slot ℕ where
  held := s.held
  lost := (s.fds \ p.fds) \ s.held.toFinset

/-- **The books of a session** that started with the process `p`: what was open is
open, what listens is open, the socket in the variable is the session's own, and what
was open listens if it did before. -/
structure Accounted (p : Process φ ι) (s : Session φ ι) : Prop where
  kept : p.fds ⊆ s.fds
  listening : s.listening ⊆ s.fds
  own : ∀ d, s.dataSocket = some d → d ∉ p.fds
  inherited : ∀ d ∈ p.fds, d ∈ s.listening ↔ d ∈ p.listening

theorem Session.held_eq_some :
    s.held = some d ↔ d ∈ s.listening ∧ s.dataSocket = some d := by
  rw [held, Option.filter_eq_some_iff, decide_eq_true_eq, and_comm]

theorem Session.held_eq_none : s.held = none ↔ ¬ s.Waiting := by
  rw [Option.eq_none_iff_forall_ne_some]
  exact ⟨fun h ⟨d, hd, heq⟩ => h d (held_eq_some.mpr ⟨hd, heq⟩),
    fun h d heq => h ⟨d, held_eq_some.mp heq⟩⟩

theorem Session.slot_of_held {o : Option ℕ} (h : s.held = o) :
    s.slot p = ⟨o, (s.fds \ p.fds) \ o.toFinset⟩ := by
  rw [slot, h]

/-- The descriptors the session has out. -/
theorem Accounted.out_eq (h : Accounted p s) : (s.slot p).out = s.fds \ p.fds := by
  refine Finset.sdiff_union_of_subset fun d hd => ?_
  obtain ⟨hmem, heq⟩ := Session.held_eq_some.mp (Option.mem_toFinset.mp hd)
  exact Finset.mem_sdiff.mpr ⟨h.listening hmem, h.own d heq⟩

/-- All that a session has open is what it started with, if it has nothing out. -/
theorem Accounted.fds_eq_iff (h : Accounted p s) : s.fds = p.fds ↔ (s.slot p).out = ∅ := by
  rw [h.out_eq, Finset.sdiff_eq_empty_iff_subset]
  exact ⟨fun heq => heq.le, fun hle => Finset.Subset.antisymm hle h.kept⟩

theorem slot_eq_of_sameLedger (h : SameLedger s t) : t.slot p = s.slot p := by
  unfold Session.slot Session.held
  rw [h.dataSocket, h.listening, h.fds]

theorem Accounted.of_sameLedger (h : Accounted p s) (hst : SameLedger s t) : Accounted p t where
  kept := hst.fds ▸ h.kept
  listening := by
    rw [hst.listening, hst.fds]
    exact h.listening
  own := hst.dataSocket ▸ h.own
  inherited := hst.listening ▸ h.inherited

/-- **A turn acts on the slot**, and the passive mode commands are the ones that
overwrite it. -/
theorem Accounted.turn (h : Accounted p s) (hturn : Turn c s t) :
    Accounted p t ∧ ∃ action : Slot.Action ℕ, t.slot p = (s.slot p).act action
      ∧ (action.Overwrites ↔ c.opensPassive = true) := by
  have hout : (s.slot p).out = s.fds \ p.fds := h.out_eq
  cases hturn with
  | keep hc hst =>
    refine ⟨h.of_sameLedger hst, .keep, slot_eq_of_sameLedger hst, ?_⟩
    rw [hc]
    exact ⟨False.elim, fun hf => absurd hf Bool.false_ne_true⟩
  | opened hc hdata hfds hlistening _ =>
    have hlow := lowest_notMem s.fds
    have hlow' : lowest s.fds ∉ p.fds := fun hmem => hlow (h.kept hmem)
    have hheld : t.held = some (lowest s.fds) := by
      rw [Session.held_eq_some, hlistening]
      exact ⟨Finset.mem_insert_self _ _, hdata⟩
    refine ⟨⟨?_, ?_, ?_, ?_⟩, .fill (lowest s.fds), ?_, ?_⟩
    · rw [hfds]
      exact h.kept.trans (Finset.subset_insert _ _)
    · rw [hfds, hlistening]
      exact Finset.insert_subset_insert _ h.listening
    · rintro d hd
      obtain rfl := Option.some.inj (hdata.symm.trans hd)
      exact hlow'
    · rw [hlistening]
      intro d hd
      have hne : d ≠ lowest s.fds := fun heq => hlow' (heq ▸ hd)
      rw [Finset.mem_insert, or_iff_right hne]
      exact h.inherited d hd
    · rw [Session.slot_of_held hheld, Slot.act, hout, hfds,
        Finset.insert_sdiff_of_notMem _ hlow', Option.toFinset_some,
        Finset.sdiff_singleton_eq_erase,
        Finset.erase_insert fun hmem => hlow (Finset.mem_sdiff.mp hmem).1]
    · rw [hc]
      exact ⟨fun _ => rfl, fun _ => ⟨⟩⟩
  | refused hc hdata hfds hlistening _ =>
    have hheld : t.held = none := by
      rw [Session.held, hdata]
      rfl
    refine ⟨⟨?_, ?_, ?_, ?_⟩, .clear, ?_, ?_⟩
    · rw [hfds]
      exact h.kept
    · rw [hfds, hlistening]
      exact h.listening
    · exact fun d hd => absurd (hd.symm.trans hdata) (Option.some_ne_none d)
    · rw [hlistening]
      exact h.inherited
    · rw [Session.slot_of_held hheld, Slot.act, hout, hfds, Option.toFinset_none,
        Finset.sdiff_empty]
    · rw [hc]
      exact ⟨fun _ => rfl, fun _ => ⟨⟩⟩
  | used hc d hmem hd hdata hfds hlistening _ =>
    have hheld : t.held = none := by
      refine Session.held_eq_none.mpr fun ⟨e, he, heq⟩ => ?_
      obtain rfl := Option.some.inj (hdata.symm.trans heq)
      rw [hlistening] at he
      exact Finset.notMem_erase d _ he
    have hheld' : s.held = some d := Session.held_eq_some.mpr ⟨hmem, hd⟩
    refine ⟨⟨?_, ?_, ?_, ?_⟩, .release, ?_, ?_⟩
    · rw [hfds]
      exact fun e he => Finset.mem_erase.mpr ⟨fun heq => h.own d hd (heq ▸ he), h.kept he⟩
    · rw [hfds, hlistening]
      exact Finset.erase_subset_erase d h.listening
    · exact fun e he => h.own e (hd.trans (hdata.symm.trans he))
    · rw [hlistening]
      intro e he
      have hne : e ≠ d := fun heq => h.own d hd (heq ▸ he)
      rw [Finset.mem_erase, and_iff_right hne]
      exact h.inherited e he
    · rw [Session.slot_of_held hheld, Session.slot_of_held hheld', Slot.act, hfds,
        Option.toFinset_none, Finset.sdiff_empty, Option.toFinset_some,
        Finset.sdiff_singleton_eq_erase]
      exact congrArg (Slot.mk none) (Finset.erase_sdiff_comm s.fds p.fds d)
    · rw [hc]
      exact ⟨False.elim, fun hf => absurd hf Bool.false_ne_true⟩

/-! ## At every point -/

/-- At most one passive listening socket beyond those of the process `p`. -/
def AtMostOne (p : Process φ ι) (l : Finset ℕ) : Prop := (l \ p.listening).card ≤ 1

theorem AtMostOne.mono {l' : Finset ℕ} (h : AtMostOne p l) (hle : l' ⊆ l) : AtMostOne p l' :=
  Nat.le_trans (Finset.card_le_card (Finset.sdiff_subset_sdiff hle (Finset.Subset.refl _))) h

/-- What listens beyond the process `p` is in the variable, if nothing was lost. -/
theorem Accounted.listening_sdiff (h : Accounted p s) (hlost : (s.slot p).lost = ∅) :
    s.listening \ p.listening ⊆ s.held.toFinset := by
  have hout := h.out_eq
  rw [Slot.out, hlost, Finset.empty_union] at hout
  show _ ⊆ (s.slot p).held.toFinset
  rw [hout]
  intro d hd
  obtain ⟨hmem, hnot⟩ := Finset.mem_sdiff.mp hd
  exact Finset.mem_sdiff.mpr ⟨h.listening hmem,
    fun hp => hnot ((h.inherited d hp).mp hmem)⟩

theorem Accounted.atMostOne (h : Accounted p s) (hlost : (s.slot p).lost = ∅) :
    AtMostOne p s.listening := by
  refine Nat.le_trans (Finset.card_le_card (h.listening_sdiff hlost)) ?_
  cases s.held with
  | none => exact Nat.zero_le 1
  | some d => exact Nat.le_refl 1

/-- One more socket may listen, if none waits. -/
theorem Accounted.atMostOne_insert (h : Accounted p s) (hlost : (s.slot p).lost = ∅)
    (hw : ¬ s.Waiting) (d : ℕ) : AtMostOne p (insert d s.listening) := by
  have hnone : s.listening \ p.listening = ∅ := by
    have hsub := h.listening_sdiff hlost
    rw [Session.held_eq_none.mpr hw] at hsub
    exact Finset.subset_empty.mp hsub
  have hsub : insert d s.listening \ p.listening ⊆ {d} := by
    intro e he
    obtain ⟨hmem, hnot⟩ := Finset.mem_sdiff.mp he
    rcases Finset.mem_insert.mp hmem with rfl | hmem
    · exact Finset.mem_singleton_self _
    · exact absurd (hnone ▸ Finset.mem_sdiff.mpr ⟨hmem, hnot⟩) (Finset.notMem_empty e)
  exact Nat.le_trans (Finset.card_le_card hsub) (Nat.le_of_eq (Finset.card_singleton d))

/-- **The points of a turn**, if it overwrites no waiting socket. -/
theorem Accounted.turn_points (h : Accounted p s) (hlost : (s.slot p).lost = ∅)
    (hturn : Turn c s t) (hw : c.opensPassive = true → ¬ s.Waiting) :
    ∀ l ∈ t.listeners, l ∈ s.listeners ∨ AtMostOne p l := by
  intro l hl
  cases hturn with
  | keep _ hst => exact .inl (hst.listeners ▸ hl)
  | opened hc _ _ _ hpoints =>
    rw [hpoints] at hl
    rcases List.mem_cons.mp hl with rfl | hl
    · exact .inr (h.atMostOne_insert hlost (hw hc) _)
    · exact .inl hl
  | refused hc _ _ _ hpoints =>
    rcases hpoints l hl with hl | rfl | rfl
    · exact .inl hl
    · exact .inr (h.atMostOne hlost)
    · exact .inr (h.atMostOne_insert hlost (hw hc) _)
  | used _ d _ _ _ _ _ hpoints =>
    rw [hpoints] at hl
    rcases List.mem_cons.mp hl with rfl | hl
    · exact .inr ((h.atMostOne hlost).mono (Finset.erase_subset _ _))
    · rcases List.mem_cons.mp hl with rfl | hl
      · exact .inr (h.atMostOne hlost)
      · exact .inl hl

/-! ## The whole session -/

/-- Noting a command leaves the ledger, and so whether a socket waits. -/
theorem Accounted.log (h : Accounted p s) : Accounted p (s.log c) :=
  ⟨h.kept, h.listening, h.own, h.inherited⟩

/-- **How a turn ends**: it takes what `step` takes, by the command in the buffer. -/
theorem step_cases {r : List UInt8} (hrun : step k a s r = (t, status))
    (hd : status.outlived = true) :
    (status = .going ∧ execute k a (s.log (commandOf r)) (commandOf r) = (t, .going))
    ∨ (status ≠ .going ∧ t.dataSocket = s.dataSocket ∧ t.fds = s.fds
      ∧ t.listening = s.listening ∧ t.listeners = s.listeners) := by
  unfold step at hrun
  split at hrun
  · exact absurd ((Prod.mk.inj hrun).2 ▸ hd) (by decide)
  · split at hrun
    · obtain ⟨rfl, rfl⟩ := Prod.mk.inj hrun
      exact .inr ⟨nofun, rfl, rfl, rfl, rfl⟩
    · split at hrun
      · rcases execute_status hrun with hdead | ⟨rfl, -⟩ | ⟨rfl, -, hst⟩
        · exact absurd (hdead.symm.trans hd) (by decide)
        · exact .inl ⟨rfl, hrun⟩
        · exact .inr ⟨nofun, hst.dataSocket, hst.fds, hst.listening, hst.listeners⟩
      · exact absurd ((Prod.mk.inj hrun).2 ▸ hd) (by decide)

/-- **The loop acts on the slot**, tidily exactly if the session is settled. -/
theorem loop_slot (h : Accounted p s) (hrun : loop k answers s segments = (t, status))
    (hd : status.outlived = true) :
    Accounted p t ∧ ∃ actions, t.slot p = (s.slot p).run actions
      ∧ ((s.slot p).Tidy actions ↔ Settled k answers s segments)
      ∧ ((s.slot p).lost = ∅ → Settled k answers s segments →
          ∀ l ∈ t.listeners, l ∈ s.listeners ∨ AtMostOne p l) := by
  induction segments generalizing answers s with
  | nil =>
    obtain ⟨rfl, -⟩ := Prod.mk.inj hrun
    exact ⟨h, [], rfl, Session.held_eq_none, fun _ _ l hl => .inl hl⟩
  | cons r rest ih =>
    rw [loop] at hrun
    unfold Settled
    cases hstep : step k (answers 0) s r with
    | mk u st =>
      rw [hstep] at hrun
      have hcases : st = .going ∨ (st ≠ .going ∧ (u, st) = (t, status)) := by
        cases st with
        | going => exact .inl rfl
        | quit | lost | failed | undefined | killed => exact .inr ⟨nofun, hrun⟩
      rcases hcases with rfl | ⟨hne, heq⟩
      · rcases step_cases hstep rfl with ⟨-, hexec⟩ | ⟨hne, -⟩
        · have hturn := execute_turn h.log.listening hexec
          obtain ⟨hu, action, hact, hover⟩ := h.log.turn hturn
          obtain ⟨ht, actions, hslot, htidy, hpoints⟩ := ih hu hrun
          have hw : (action.Overwrites → (s.slot p).held = none)
              ↔ ((commandOf r).opensPassive = true → ¬ s.Waiting) :=
            imp_congr hover Session.held_eq_none
          rw [show (s.log (commandOf r)).slot p = s.slot p from rfl] at hact
          rw [hact] at hslot htidy hpoints
          refine ⟨ht, action :: actions, hslot, and_congr hw htidy, fun hlost hset l hl => ?_⟩
          have hlost' : ((s.slot p).act action).lost = ∅ :=
            Slot.act_lost_eq_empty_iff.mpr ⟨hlost, hw.mpr hset.1⟩
          rcases hpoints hlost' hset.2 l hl with hl | hl
          · exact h.log.turn_points hlost hturn hset.1 l hl
          · exact .inr hl
        · exact absurd rfl hne
      · obtain ⟨rfl, rfl⟩ := Prod.mk.inj heq
        rcases step_cases hstep hd with ⟨hgo, -⟩ | ⟨-, hdata, hfds, hlistening, hlisteners⟩
        · exact absurd hgo hne
        · have hslot : u.slot p = s.slot p := by
            unfold Session.slot Session.held
            rw [hdata, hfds, hlistening]
          refine ⟨⟨hfds ▸ h.kept, ?_, hdata ▸ h.own, hlistening ▸ h.inherited⟩, [], hslot, ?_, ?_⟩
          · rw [hfds, hlistening]
            exact h.listening
          · cases st with
            | going => exact absurd rfl hne
            | quit | lost | failed | undefined | killed => exact Session.held_eq_none
          · exact fun _ _ l hl => .inl (hlisteners ▸ hl)

theorem accounted_start (hp : p.listening ⊆ p.fds) : Accounted p (start p) where
  kept := Finset.Subset.refl _
  listening := hp
  own d hd := absurd hd.symm (Option.some_ne_none d)
  inherited _ _ := Iff.rfl

/-- A session ends as its loop does, or behind it. -/
theorem loop_of_handleFtpCommands
    (hrun : handleFtpCommands k answers p segments broken = (t, status))
    (hd : status.outlived = true) :
    ∃ st, loop k answers (start p) segments = (t, st) ∧ st.outlived = true := by
  unfold handleFtpCommands at hrun
  split at hrun
  · next u heq =>
    obtain ⟨rfl, -⟩ := Prod.mk.inj hrun
    exact ⟨.going, heq, rfl⟩
  · next u st _ heq =>
    obtain ⟨rfl, rfl⟩ := Prod.mk.inj hrun
    exact ⟨_, heq, hd⟩

/-- **When a session leaves no descriptor behind.** A session that ends by `QUIT`, a
closed connection or a receive error leaves the descriptors as they were, with at
most one passive listening socket at every point, exactly if no listening socket
waits in the variable when `PASV` or `EPSV` is executed and when the session ends. -/
theorem descriptors_kept_iff (hp : p.listening ⊆ p.fds)
    (hrun : handleFtpCommands k answers p segments broken = (t, status))
    (hd : status.outlived = true) :
    (t.fds = p.fds ∧ ∀ l ∈ t.listeners, (l \ p.listening).card ≤ 1)
      ↔ Settled k answers (start p) segments := by
  have hlost : ((start p).slot p).lost = ∅ := by
    show (p.fds \ p.fds) \ _ = ∅
    rw [Finset.sdiff_self, Finset.empty_sdiff]
  obtain ⟨st, hloop, hst⟩ := loop_of_handleFtpCommands hrun hd
  obtain ⟨ht, actions, hslot, htidy, hpoints⟩ := loop_slot (accounted_start hp) hloop hst
  rw [ht.fds_eq_iff, hslot, Slot.run_out_eq_empty_iff, htidy]
  refine ⟨fun h => h.1.2, fun h => ⟨⟨hlost, h⟩, fun l hl => ?_⟩⟩
  rcases hpoints hlost h l hl with hl | hl
  · obtain rfl := List.mem_singleton.mp hl
    show (p.listening \ p.listening).card ≤ 1
    rw [Finset.sdiff_self]
    exact Nat.zero_le 1
  · exact hl

/-- A session that lists its directory and leaves. -/
theorem descriptors_kept_listing :
    ((handleFtpCommands directories (fun _ => granting) freshServer
        [ascii "PASV\r\n", ascii "LIST\r\n", ascii "QUIT\r\n"] false).1.fds = freshServer.fds
      ∧ ∀ l ∈ (handleFtpCommands directories (fun _ => granting) freshServer
          [ascii "PASV\r\n", ascii "LIST\r\n", ascii "QUIT\r\n"] false).1.listeners,
        (l \ freshServer.listening).card ≤ 1)
      ↔ Settled directories (fun _ => granting) (start freshServer)
          [ascii "PASV\r\n", ascii "LIST\r\n", ascii "QUIT\r\n"] :=
  descriptors_kept_iff (by decide) (Prod.mk.eta).symm (by decide)

/-- **A listening socket that is forgotten.** A second `PASV` overwrites the socket of
the first one: two of them listen, and both are open behind the session. -/
theorem passive_twice :
    (handleFtpCommands directories (fun _ => granting) freshServer
      [ascii "PASV\r\n", ascii "PASV\r\n", ascii "QUIT\r\n"] false).2 = .quit
    ∧ freshServer.fds = {0, 1, 2, 3}
    ∧ (handleFtpCommands directories (fun _ => granting) freshServer
      [ascii "PASV\r\n", ascii "PASV\r\n", ascii "QUIT\r\n"] false).1.fds = {0, 1, 2, 3, 4, 5}
    ∧ {4, 5} ∈ (handleFtpCommands directories (fun _ => granting) freshServer
      [ascii "PASV\r\n", ascii "PASV\r\n", ascii "QUIT\r\n"] false).1.listeners := by
  decide

end Ftp
