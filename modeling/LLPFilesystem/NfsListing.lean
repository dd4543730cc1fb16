import LLPFilesystem.NfsCalls

/-!
# Resuming a directory listing

A `READDIR` carries the cookie of the entry behind which it is to go on. The server
reads neither the cookie nor the count: each reply lists the whole directory and says
that it ends there. That is right for the cookie zero, which asks for everything, and
wrong for every other one.

As the first reply has everything, a client that follows the cookies never comes to use one,
and sees each entry once. But the names in a reply are pointers into the buffer of a
directory that has been closed, and are right only if they still lie there. Both is in
`readdir_resumes_iff`.
-/

namespace Nfs

open Codec Text Wire

variable {dir : List UInt8} {dirents : List Dirent} {cookie count : ℕ}

/-- An entry as a reply is to list it. -/
def Dirent.entry (e : Dirent) : Entry3 := ⟨e.ino, e.name, e.off⟩

/-- **A cookie of a directory**: zero, or one that came with an entry. -/
def IsCookie (dirents : List Dirent) (cookie : ℕ) : Prop :=
  cookie = 0 ∨ ∃ e ∈ dirents, e.off = cookie

/-- **What remains behind a cookie**: the entries strictly after the one it came with,
and behind zero all of them. -/
def remaining (dirents : List Dirent) (cookie : ℕ) : List Dirent :=
  if cookie = 0 then dirents else (dirents.dropWhile fun e => e.off ≠ cookie).tail

/-- **The reply resumes at the cookie**: it lists what remains behind it in order,
starting with the next entry, and says `eof` exactly if it reaches the last one. -/
def Resumes (dirents : List Dirent) (cookie : ℕ) (told : Option (Procedure.Result .readdir)) :
    Prop :=
  ∃ r listed rest, told = some (.taken r) ∧ remaining dirents cookie = listed ++ rest
    ∧ r.entries = listed.map Dirent.entry
    ∧ (r.eof = true ↔ rest = [])
    ∧ (remaining dirents cookie ≠ [] → listed ≠ [])

/-! ## The client -/

/-- **A client** that lists a directory: the last cookie it has decoded, what it has seen,
and whether it has stopped. -/
structure Lister where
  cookie : ℕ := 0
  seen : List Entry3 := []
  stopped : Bool := false

/-- What the client makes of what it is told. -/
def Lister.hear (x : Lister) (told : Option (Procedure.Result .readdir)) : Lister :=
  if x.stopped then x
  else
    match told with
    | some (.taken r) =>
      { cookie := (r.entries.getLast?.map Entry3.cookie).getD x.cookie
        seen := x.seen ++ r.entries
        stopped := r.eof }
    | _ => x

/-- **The client after some requests**, each with the last cookie it has decoded. The `n`-th
asks for `counts n` bytes, and is served by whatever stands behind the server then, in
whatever state earlier calls have left it. -/
def listing (b : ℕ → Backing) (s : ℕ → Statics) (dir : List UInt8) (verf : ℕ → List UInt8)
    (counts : ℕ → ℕ) : ℕ → Lister
  | 0 => {}
  | n + 1 =>
    (listing b s dir verf counts n).hear
      (ask (b n) (s n) .readdir
        ⟨dir, (listing b s dir verf counts n).cookie, verf n, counts n⟩)

/-- **The client sees every entry exactly once**: it stops, and has seen the directory then,
from the first entry to the last. -/
structure SeesAll (b : ℕ → Backing) (s : ℕ → Statics) (dir : List UInt8) (verf : ℕ → List UInt8)
    (counts : ℕ → ℕ) (dirents : List Dirent) : Prop where
  stops : ∃ n, (listing b s dir verf counts n).stopped = true
  seen : ∀ n, (listing b s dir verf counts n).stopped = true →
    (listing b s dir verf counts n).seen = dirents.map Dirent.entry

/-! ## One reply -/

/-- **The names are intact**: they still lie where `readdir` had put them. -/
def Intact (b : Backing) (path : List UInt8) (dirents : List Dirent) : Prop :=
  ∀ n e, dirents[n]? = some e → b.leftover path n = e.name

/-- The reply has attributes that can be encoded: those of the directory, or if `stat` does
not find it those that the last call has left. -/
def AttributesFit (b : Backing) (s : Statics) (path : List UInt8) : Prop :=
  (∀ st, b.stat path = some st → (attributesOf st).Fits)
    ∧ (b.stat path = none → s.readdir.dirAttributes.attributes.Fits)

/-- **A directory is told**: the server survives the handle, and the attributes can be
encoded. -/
def Told (b : Backing) (s : Statics) (dir : List UInt8) : Prop :=
  b.Terminates dir ∧ AttributesFit b s (pathOf dir)

/-- There is memory for the entries. -/
def Allocates (b : Backing) (dirents : List Dirent) : Prop :=
  dirents = [] ∨ b.malloc sizeofEntry3 = true

instance (b : Backing) (dirents : List Dirent) : Decidable (Allocates b dirents) :=
  inferInstanceAs (Decidable (_ ∨ _))

/-- The entries of a listing, with the names as they are found. -/
def found (b : Backing) (path : List UInt8) (dirents : List Dirent) : List Entry3 :=
  dirents.mapIdx fun n e => ⟨e.ino, b.leftover path n, e.off⟩

/-- **What a reply tells**, whatever the cookie and the count: all entries and `eof`, or no
entry and no `eof` if memory runs out. -/
def replyOf (b : Backing) (s : Statics) (dir : List UInt8) (dirents : List Dirent) :
    READDIR3resok where
  dirAttributes := some (fillAttributes b (pathOf dir) s.readdir.dirAttributes.attributes)
  cookieverf := List.replicate 8 0
  entries := if Allocates b dirents then found b (pathOf dir) dirents else []
  eof := Allocates b dirents

/-- The entries are right if the names are. -/
theorem found_eq_iff {b : Backing} {path : List UInt8} :
    found b path dirents = dirents.map Dirent.entry ↔ Intact b path dirents := by
  unfold found Intact
  rw [List.ext_getElem?_iff]
  refine ⟨fun h n e he => ?_, fun h n => ?_⟩
  · have hn := h n
    rw [List.getElem?_mapIdx, List.getElem?_map, he] at hn
    exact congrArg Entry3.name (Option.some.inj hn)
  · rw [List.getElem?_mapIdx, List.getElem?_map]
    cases he : dirents[n]? with
    | none => rfl
    | some e =>
      rw [Option.map_some, Option.map_some, h n e he]
      rfl

/-- What `followed` fills in can be encoded. -/
theorem fits_followed_iff {b : Backing} {s : Statics} {path : List UInt8} :
    (followed b path s.readdir.dirAttributes).Fits ↔ AttributesFit b s path := by
  unfold AttributesFit
  cases hst : b.stat path with
  | none =>
    rw [followed, fillAttributes_of_none hst]
    exact ⟨fun h => ⟨fun _ h' => absurd h'.symm (Option.some_ne_none _), fun _ => h rfl⟩,
      fun h _ => h.2 rfl⟩
  | some st =>
    rw [followed, fillAttributes_of_some hst]
    refine ⟨fun h => ⟨fun st' hst' => Option.some.inj hst' ▸ h rfl, fun h' => ?_⟩,
      fun h _ => h.1 st rfl⟩
    exact absurd h' (Option.some_ne_none _)

section Reply

variable {b : Backing} {s : Statics} {cookieverf : List UInt8}

theorem fillEntriesForReaddir_eq {path : List UInt8} (hopen : b.opendir path = some dirents) :
    fillEntriesForReaddir b path
      = if Allocates b dirents then (found b path dirents, false) else ([], true) := by
  unfold fillEntriesForReaddir
  rw [hopen]
  rfl

/-- **A client is told the reply**, if the directory is told at all. -/
theorem ask_readdir_iff (hs : s.Reached) (hdir : dir.length ≤ nfs3Fhsize)
    (hopen : b.opendir (pathOf dir) = some dirents) (hcookie : cookie < 2 ^ 64)
    (hverf : cookieverf.length = 8) (hcount : count < 2 ^ 32)
    (told : Procedure.Result .readdir) :
    ask b s .readdir ⟨dir, cookie, cookieverf, count⟩ = some told
      ↔ Told b s dir ∧ .taken (replyOf b s dir dirents) = told := by
  have hreaddir : (dispatch b s (.readdir dir cookie cookieverf count)).readdir
      = ⟨nfs3Ok, followed b (pathOf dir) s.readdir.dirAttributes, List.replicate 8 0,
        (replyOf b s dir dirents).entries, (replyOf b s dir dirents).eof⟩ := by
    show nfsproc3Readdir3Svc b dir s.readdir = _
    unfold nfsproc3Readdir3Svc replyOf
    rw [fillEntriesForReaddir_eq hopen, hs.regular.readdir.status,
      hs.regular.readdir.cookieverf]
    by_cases h : Allocates b dirents
    · rw [if_pos h, if_pos h, decide_eq_true h]
      rfl
    · rw [if_neg h, if_neg h, decide_eq_false h]
      rfl
  rw [ask_eq_some_iff hs.regular (isSome_readdirArgs hdir hcookie hverf hcount), Told, and_assoc]
  refine and_congr_right fun _ => and_congr ?_ ?_
  · show (dispatch b s (.readdir dir cookie cookieverf count)).readdir.dirAttributes.Fits ↔ _
    rw [hreaddir]
    exact fits_followed_iff
  · show (dispatch b s (.readdir dir cookie cookieverf count)).readdir.shown = told ↔ _
    rw [hreaddir]
    rfl

/-- Behind an entry there are fewer entries than there are. -/
theorem length_remaining_lt (hcookie : cookie ≠ 0) (h : IsCookie dirents cookie) :
    (remaining dirents cookie).length < dirents.length := by
  obtain ⟨e, he, hoff⟩ := h.resolve_left hcookie
  have hpos : 0 < dirents.length := List.length_pos_of_mem he
  have hdrop := (List.dropWhile_suffix (l := dirents) fun e => e.off ≠ cookie).length_le
  rw [remaining, if_neg hcookie, List.length_tail]
  exact Nat.lt_of_le_of_lt (Nat.sub_le_sub_right hdrop 1) (Nat.sub_lt hpos Nat.one_pos)

theorem IsCookie.lt (h : IsCookie dirents cookie) : cookie < 2 ^ 64 := by
  rcases h with rfl | ⟨e, -, rfl⟩
  · exact Nat.two_pow_pos 64
  · exact e.off_lt

/-- **When a reply resumes where its cookie says.** -/
theorem resumes_replyOf_iff (hcookie : IsCookie dirents cookie) :
    Resumes dirents cookie (some (.taken (replyOf b s dir dirents)))
      ↔ cookie = 0 ∧ Allocates b dirents ∧ Intact b (pathOf dir) dirents := by
  by_cases hmem : Allocates b dirents
  · have hentries : (replyOf b s dir dirents).entries = found b (pathOf dir) dirents := if_pos hmem
    constructor
    · rintro ⟨r, listed, rest, htold, hsplit, hlisted, hend, -⟩
      obtain rfl := Switch.taken.inj (Option.some.inj htold)
      have hnil : rest = [] := hend.mp (decide_eq_true hmem)
      rw [hnil, List.append_nil] at hsplit
      rw [hentries] at hlisted
      have hlen := congrArg List.length hlisted
      rw [found, List.length_mapIdx, List.length_map] at hlen
      -- behind another cookie there are fewer entries than are listed
      have hzero : cookie = 0 := by
        by_contra hne
        have hlt := length_remaining_lt hne hcookie
        rw [hsplit, hlen] at hlt
        exact absurd hlt (Nat.lt_irrefl _)
      rw [remaining, if_pos hzero] at hsplit
      exact ⟨hzero, hmem, found_eq_iff.mp (hsplit ▸ hlisted)⟩
    · rintro ⟨hzero, -, hintact⟩
      refine ⟨_, dirents, [], rfl, ?_, hentries.trans (found_eq_iff.mpr hintact),
        ⟨fun _ => rfl, fun _ => decide_eq_true hmem⟩, ?_⟩
      · rw [remaining, if_pos hzero, List.append_nil]
      · rw [remaining, if_pos hzero]
        exact id
  · refine ⟨?_, fun h => absurd h.2.1 hmem⟩
    rintro ⟨r, listed, rest, htold, hsplit, hlisted, hend, hstart⟩
    obtain rfl := Switch.taken.inj (Option.some.inj htold)
    -- nothing is listed, so something must remain, and it should have been listed
    have hentries : (replyOf b s dir dirents).entries = [] := if_neg hmem
    have hnil : listed = [] := List.map_eq_nil_iff.mp (hlisted.symm.trans hentries)
    have hrest : rest ≠ [] := fun h => hmem (of_decide_eq_true (hend.mpr h))
    rw [hnil, List.nil_append] at hsplit
    exact absurd hnil (hstart (hsplit ▸ hrest))

end Reply

/-! ## The run -/

section Run

variable {b : ℕ → Backing} {s : ℕ → Statics} {verf : ℕ → List UInt8} {counts : ℕ → ℕ} {n m : ℕ}

/-- A client that has stopped does nothing more. -/
theorem listing_of_stopped (h : (listing b s dir verf counts n).stopped = true) (hle : n ≤ m) :
    listing b s dir verf counts m = listing b s dir verf counts n := by
  induction m, hle using Nat.le_induction with
  | base => rfl
  | succ m _ ih =>
    rw [listing, ih]
    exact if_pos h

variable (hs : ∀ n, (s n).Reached) (hdir : dir.length ≤ nfs3Fhsize)
  (hopen : ∀ n, (b n).opendir (pathOf dir) = some dirents) (hverf : ∀ n, (verf n).length = 8)
  (hcounts : ∀ n, counts n < 2 ^ 32)

include hs hdir hopen hverf hcounts

/-- A client that has been told no entry asks for the first again. -/
theorem listing_eq_zero (h : ∀ m < n, ¬ (Told (b m) (s m) dir ∧ Allocates (b m) dirents)) :
    listing b s dir verf counts n = {} := by
  induction n with
  | zero => rfl
  | succ n ih =>
    rw [listing, ih fun m hm => h m (hm.trans (Nat.lt_succ_self n))]
    have htold := ask_readdir_iff (hs n) hdir (hopen n) (Nat.two_pow_pos 64)
      (hverf n) (hcounts n)
    -- either it is told nothing, or that there is no entry
    cases hask : ask (b n) (s n) .readdir ⟨dir, 0, verf n, counts n⟩ with
    | none => rfl
    | some told =>
      obtain ⟨hlisted, rfl⟩ := (htold told).mp hask
      have hmem : ¬ Allocates (b n) dirents := fun hmem => h n (Nat.lt_succ_self n) ⟨hlisted, hmem⟩
      have hentries : (replyOf (b n) (s n) dir dirents).entries = [] := if_neg hmem
      have heof : (replyOf (b n) (s n) dir dirents).eof = false := decide_eq_false hmem
      show Lister.mk _ _ _ = _
      rw [hentries, heof]
      rfl

/-- **The first reply that has entries has all of them.** -/
theorem listing_succ (h : ∀ m < n, ¬ (Told (b m) (s m) dir ∧ Allocates (b m) dirents))
    (htold : Told (b n) (s n) dir) (hmem : Allocates (b n) dirents) :
    (listing b s dir verf counts (n + 1)).stopped = true
      ∧ (listing b s dir verf counts (n + 1)).seen = found (b n) (pathOf dir) dirents := by
  have hask := (ask_readdir_iff (hs n) hdir (hopen n) (Nat.two_pow_pos 64) (hverf n)
    (hcounts n) _).mpr ⟨htold, rfl⟩
  rw [listing, listing_eq_zero hs hdir hopen hverf hcounts h, hask]
  refine ⟨decide_eq_true hmem, ?_⟩
  show [] ++ (replyOf (b n) (s n) dir dirents).entries = _
  rw [List.nil_append]
  exact if_pos hmem

/-- **When a client sees every entry exactly once.** -/
theorem seesAll_iff :
    SeesAll b s dir verf counts dirents
      ↔ ∃ n, (Told (b n) (s n) dir ∧ Allocates (b n) dirents)
        ∧ (∀ m < n, ¬ (Told (b m) (s m) dir ∧ Allocates (b m) dirents))
        ∧ Intact (b n) (pathOf dir) dirents := by
  constructor
  · rintro ⟨⟨N, hstop⟩, hseen⟩
    have hex : ∃ n, Told (b n) (s n) dir ∧ Allocates (b n) dirents := by
      by_contra hno
      rw [listing_eq_zero hs hdir hopen hverf hcounts fun m _ h => hno ⟨m, h⟩] at hstop
      exact absurd hstop Bool.false_ne_true
    classical
    obtain ⟨htold, hmem⟩ := Nat.find_spec hex
    have hbefore := fun m (hm : m < Nat.find hex) => Nat.find_min hex hm
    obtain ⟨hstopped, hfound⟩ := listing_succ hs hdir hopen hverf hcounts hbefore htold hmem
    refine ⟨Nat.find hex, ⟨htold, hmem⟩, hbefore, found_eq_iff.mp ?_⟩
    rw [← hfound]
    exact hseen _ hstopped
  · rintro ⟨n, ⟨htold, hmem⟩, hbefore, hintact⟩
    obtain ⟨hstopped, hfound⟩ := listing_succ hs hdir hopen hverf hcounts hbefore htold hmem
    refine ⟨⟨n + 1, hstopped⟩, fun m hm => ?_⟩
    rcases Nat.lt_or_ge n m with hlt | hge
    · rw [listing_of_stopped hstopped hlt, hfound, found_eq_iff.mpr hintact]
    · rw [listing_eq_zero hs hdir hopen hverf hcounts fun k hk =>
        hbefore k (hk.trans_le hge)] at hm
      exact absurd hm Bool.false_ne_true

/-- **When a listing resumes where its cookie says.** For every directory that can be
opened, every cookie of it and every count, a reply does exactly if the directory is told, the
cookie is zero, memory does not run out, and the names are intact. A client that follows the
last cookie sees every entry exactly once exactly if the names are intact in the first reply
that has entries. -/
theorem readdir_resumes_iff :
    (∀ n cookie, IsCookie dirents cookie →
      (Resumes dirents cookie (ask (b n) (s n) .readdir ⟨dir, cookie, verf n, counts n⟩)
        ↔ Told (b n) (s n) dir ∧ cookie = 0 ∧ Allocates (b n) dirents
          ∧ Intact (b n) (pathOf dir) dirents))
    ∧ (SeesAll b s dir verf counts dirents
      ↔ ∃ n, (Told (b n) (s n) dir ∧ Allocates (b n) dirents)
        ∧ (∀ m < n, ¬ (Told (b m) (s m) dir ∧ Allocates (b m) dirents))
        ∧ Intact (b n) (pathOf dir) dirents) := by
  refine ⟨fun n cookie hcookie => ?_, seesAll_iff hs hdir hopen hverf hcounts⟩
  have htold := ask_readdir_iff (hs n) hdir (hopen n) hcookie.lt (hverf n) (hcounts n)
  have hreply : Resumes dirents cookie (some (.taken (replyOf (b n) (s n) dir dirents))) ↔ _ :=
    resumes_replyOf_iff hcookie
  rw [← hreply]
  constructor
  · rintro ⟨r, listed, rest, hask, hresumes⟩
    obtain ⟨hlisted, hr⟩ := (htold _).mp hask
    exact ⟨hlisted, r, listed, rest, congrArg some hr, hresumes⟩
  · rintro ⟨hlisted, hresumes⟩
    rwa [(htold _).mpr ⟨hlisted, rfl⟩]

end Run

/-! ## A directory of two files -/

/-- Two files, `a` and `b`. -/
def twoFiles : List Dirent :=
  [⟨11, ascii "a", 1, by norm_num, by norm_num⟩, ⟨12, ascii "b", 2, by norm_num, by norm_num⟩]

/-- A file system with these in one directory, whose names stay where they are. -/
def withTwoFiles (path : List UInt8) : Backing :=
  { everywhere 0o040000 with
    opendir := fun p => if p = path then some twoFiles else none
    leftover := fun _ n => if n = 0 then ascii "a" else ascii "b"
    leftover_lt := fun _ n => by split <;> decide }

theorem told_withTwoFiles {s : Statics} : Told (withTwoFiles (ascii "/d")) s (ascii "/d") := by
  refine ⟨⟨by decide, by decide⟩, fun st hst => ?_, fun h => absurd h (Option.some_ne_none _)⟩
  exact Option.some.inj hst ▸ fits_plain (by norm_num)

theorem intact_withTwoFiles :
    Intact (withTwoFiles (ascii "/d")) (pathOf (ascii "/d")) twoFiles := by
  intro n e h
  rcases n with _ | _ | n
  · exact congrArg Dirent.name (Option.some.inj h)
  · exact congrArg Dirent.name (Option.some.inj h)
  · exact absurd h.symm (Option.some_ne_none _)

/-- From the start the directory is listed as it should be, and the client sees both
files. -/
theorem readdir_resumes_zero :
    Resumes twoFiles 0
      (ask (withTwoFiles (ascii "/d")) {} .readdir ⟨ascii "/d", 0, List.replicate 8 0, 4096⟩)
    ∧ SeesAll (fun _ => withTwoFiles (ascii "/d")) (fun _ => {}) (ascii "/d")
      (fun _ => List.replicate 8 0) (fun _ => 4096) twoFiles := by
  have hopen : ∀ _ : ℕ, (withTwoFiles (ascii "/d")).opendir (pathOf (ascii "/d")) = some twoFiles :=
    fun _ => rfl
  have hverf : ∀ _ : ℕ, (List.replicate 8 (0 : UInt8)).length = 8 := fun _ => rfl
  have hcounts : ∀ _ : ℕ, 4096 < 2 ^ 32 := fun _ => by norm_num
  obtain ⟨hresumes, hsees⟩ :=
    readdir_resumes_iff (fun _ => Statics.reached_zero) (by decide) hopen hverf hcounts
  refine ⟨(hresumes 0 0 (.inl rfl)).mpr ⟨told_withTwoFiles, rfl, .inr rfl, intact_withTwoFiles⟩,
    hsees.mpr ⟨0, ⟨told_withTwoFiles, .inr rfl⟩, fun m hm => ?_, intact_withTwoFiles⟩⟩
  exact absurd hm (Nat.not_lt_zero m)

/-- **Behind the first file** the reply starts with the first file. -/
theorem readdir_starts_again :
    IsCookie twoFiles 1
    ∧ ask (withTwoFiles (ascii "/d")) {} .readdir ⟨ascii "/d", 1, List.replicate 8 0, 4096⟩
      = some (.taken ⟨some (attributesOf (plain 0o040000)), List.replicate 8 0,
        [⟨11, ascii "a", 1⟩, ⟨12, ascii "b", 2⟩], true⟩)
    ∧ remaining twoFiles 1 = twoFiles.drop 1
    ∧ ¬ Resumes twoFiles 1
      (ask (withTwoFiles (ascii "/d")) {} .readdir
        ⟨ascii "/d", 1, List.replicate 8 0, 4096⟩) := by
  have hcookie : IsCookie twoFiles 1 := .inr ⟨_, List.mem_cons_self, rfl⟩
  have hask : ask (withTwoFiles (ascii "/d")) {} .readdir
      ⟨ascii "/d", 1, List.replicate 8 0, 4096⟩
      = some (.taken (replyOf (withTwoFiles (ascii "/d")) {} (ascii "/d") twoFiles)) :=
    (ask_readdir_iff Statics.reached_zero (by decide) rfl (by norm_num) rfl (by norm_num) _).mpr
      ⟨told_withTwoFiles, rfl⟩
  refine ⟨hcookie, hask, rfl, fun hresumes => ?_⟩
  rw [hask] at hresumes
  exact absurd ((resumes_replyOf_iff hcookie).mp hresumes).1 (by decide)

end Nfs
